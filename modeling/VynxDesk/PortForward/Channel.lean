import VynxDesk.PortForward.Window

/-!
# A channel of a multiplexed tunnel

One end of a channel is a task with two relays, and what the demultiplexer of that end shares with
it: the credit, the window and the inbound queue of the channel's entry.  `Chan.Step` has one
constructor for each thing the task may do next, so that every interleaving of its relays, of
`run_channel` and of the demultiplexer is a sequence of steps.  The same task runs on both ends; it
starts with `open` on the controller (`TunnelHandle::open`), and with a connection to the target
on the controlled side (`run_controlled_channel`).
-/

namespace VynxDesk.Mux

/-- `Inbound`: what the demultiplexer tells the task. -/
inductive Inbound where
  | data (b : Bytes)
  | close
  | violation
  deriving DecidableEq

/-- The bytes of a command, when it brings data. -/
def Inbound.bytes : Inbound → Option Bytes
  | .data b => some b
  | _ => none

@[simp]
theorem Inbound.bytes_data (b : Bytes) : (Inbound.data b).bytes = some b := rfl

@[simp]
theorem Inbound.bytes_close : Inbound.close.bytes = none := rfl

@[simp]
theorem Inbound.bytes_violation : Inbound.violation.bytes = none := rfl

/-- `RelayEnd`. -/
inductive RelayEnd where
  | localEof | peerClosed | violation | cancelled | tunnelGone
  deriving DecidableEq

/-- Where `relay_socket_to_tunnel` stands. -/
inductive ToTunnel where
  /-- It waits for credit. -/
  | take
  /-- It has taken `allow`, and reads. -/
  | read (allow : Nat)
  /-- It has read `chunk`, and gives back what the chunk does not cost. -/
  | refund (allow : Nat) (chunk : Bytes)
  /-- It has a frame to send, paid from `allow`. -/
  | send (allow : Nat) (chunk : Bytes)
  | done (r : RelayEnd)
  deriving DecidableEq

/-- Where `relay_tunnel_to_socket` stands. -/
inductive ToSocket where
  /-- It takes the next chunk. -/
  | next
  /-- It writes a chunk, and `rest` is left to write. -/
  | write (chunk rest : Bytes)
  /-- It has an update of the window to send. -/
  | update (add : Nat)
  | done (r : RelayEnd)
  deriving DecidableEq

/-- Where the task stands. -/
inductive Stage where
  /-- `run_controlled_channel` connects; `charged` is what the frames buffered meanwhile cost. -/
  | connecting (addr : String) (isRdp : Bool) (charged : Nat)
  /-- The target is connected, and the window has not been granted yet. -/
  | granting
  /-- It sends its first frame, and runs the channel when it could. -/
  | greeting (m : PortForwardChannel)
  /-- `run_channel`. -/
  | relaying
  /-- It sends its last frame. -/
  | parting (m : PortForwardChannel)
  | ended
  deriving DecidableEq

/-- One end of a channel.  `listed` tells whether the table still has its entry; `opened` is the
flag of the controller's entry; `left` tells whether the controller's task has removed its entry,
and `evicted` whether another task that had the same id has removed it.
The other fields record what has happened: `produced` is what the local side has handed in, `prebuf`
and what the socket has read; `granted` the window granted so far; `accepted` the data frames
accepted, and `drained` how many of them were drained; `written` what was written to the socket;
`sent` what the task has put on its sink, and `paid` the data frames among it, each with the
credit taken for it; `refused` whether its sink has refused a frame; `broke` why the task ended
while it connected, if it did for a command or the lack of one. -/
structure Chan where
  id : ChannelId
  credit : Nat
  window : RecvWindow
  stage : Stage
  prebuf : Bytes := []
  inbound : List Inbound := []
  listed : Bool := true
  opened : Bool := false
  pending : List Bytes := []
  toTunnel : ToTunnel := .take
  toSocket : ToSocket := .next
  cancel : Bool := false
  left : Bool := false
  evicted : Bool := false
  produced : Bytes := prebuf
  granted : Nat := window.remaining
  accepted : List Bytes := []
  drained : Nat := 0
  written : Bytes := []
  sent : List PortForwardChannel := []
  paid : List (Nat × Bytes) := []
  refused : Bool := false
  broke : Option RelayEnd := none
  deriving DecidableEq

/-- What a step of the task puts on its sink: nothing, a frame of the ordered queue, or a frame of
the control queue. -/
inductive Output where
  | quiet
  | ordered (m : PortForwardChannel)
  | control (m : PortForwardChannel)
  deriving DecidableEq

/-- `pending_fits`. -/
def pendingFits (charged addLen : Nat) : Bool := charged + charge addLen ≤ initialWindow

/-- `unreachable_message`. -/
def unreachableMessage (addr : String) (isRdp : Bool) : String :=
  "Failed to access remote " ++ (if isRdp then "RDP" else addr)
    ++ ". Please make sure it is reachable/open."

/-- The end of a relay. -/
def ToTunnel.result : ToTunnel → Option RelayEnd
  | .done r => some r
  | _ => none

/-- The end of a relay. -/
def ToSocket.result : ToSocket → Option RelayEnd
  | .done r => some r
  | _ => none

@[simp]
theorem ToSocket.result_next : ToSocket.next.result = none := rfl

@[simp]
theorem ToSocket.result_write (chunk rest : Bytes) : (ToSocket.write chunk rest).result = none
  := rfl

@[simp]
theorem ToSocket.result_update (add : Nat) : (ToSocket.update add).result = none := rfl

@[simp]
theorem ToSocket.result_done (r : RelayEnd) : (ToSocket.done r).result = some r := rfl

/-- The task has nothing left to do but to send its last frame. -/
def Stage.isLast : Stage → Bool
  | .parting _ | .ended => true
  | _ => false

namespace Stage

@[simp]
theorem isLast_connecting (addr : String) (isRdp : Bool) (charged : Nat) :
  (connecting addr isRdp charged).isLast = false
  := rfl

@[simp]
theorem isLast_granting : granting.isLast = false := rfl

@[simp]
theorem isLast_greeting (m : PortForwardChannel) : (greeting m).isLast = false := rfl

@[simp]
theorem isLast_relaying : relaying.isLast = false := rfl

@[simp]
theorem isLast_parting (m : PortForwardChannel) : (parting m).isLast = true := rfl

@[simp]
theorem isLast_ended : ended.isLast = true := rfl

end Stage

namespace Chan

/-- The inbound receiver of the task is still there. -/
def receiving (c : Chan) : Bool :=
  match c.stage, c.toSocket with
  | .ended, _ => false
  | _, .done _ => false
  | _, _ => true

/-- The task still writes what it is told to. -/
def live (c : Chan) : Bool := !c.stage.isLast && c.toSocket.result.isNone

theorem receiving_of_live {c : Chan} (h : c.live = true) :
  c.receiving = true
  := by
  rw [live] at h
  rw [receiving]
  split <;> simp_all

/-- The task puts `m` on its sink. -/
def put (m : PortForwardChannel) (c : Chan) : Chan := { c with sent := c.sent ++ [m] }

/-- `run_channel` tells the peer: a relay ended for a local reason, and none on the peer's `close`
or on a tunnel that is gone. -/
def closes (first second : RelayEnd) : Bool :=
  first ≠ .peerClosed && second ≠ .peerClosed && first ≠ .tunnelGone && second ≠ .tunnelGone
    && (first = .localEof || first = .violation || second = .localEof || second = .violation)

/-- `run_controlled_channel` takes a command while it connects. -/
def onConnecting (addr : String) (isRdp : Bool) (charged : Nat) (cmd : Inbound) (c : Chan) : Chan :=
  match cmd with
  | .data b =>
      if pendingFits charged b.length then
        { c with
          pending := c.pending ++ [b]
          stage := .connecting addr isRdp (charged + charge b.length) }
      else { c with stage := .parting (.close c.id), broke := some .violation }
  | .close => { c with stage := .ended, broke := some .peerClosed }
  | .violation => { c with stage := .parting (.close c.id), broke := some .violation }

/-- `relay_tunnel_to_socket` takes a command of the inbound queue. -/
def onInbound (cmd : Inbound) (c : Chan) : Chan :=
  match cmd with
  | .data b => { c with toSocket := .write b b }
  | .close => { c with toSocket := .done .peerClosed }
  | .violation => { c with toSocket := .done .violation }

/-- `relay_socket_to_tunnel` has read `chunk`, on the credit `allow`: it gives back what the chunk
does not cost.  An empty chunk is the end of the local side. -/
def refund (allow : Nat) (chunk : Bytes) (c : Chan) : Chan :=
  let spent := if chunk = [] then 0 else charge chunk.length
  { c with
    credit := if spent < allow then SendCredit.add (allow - spent) c.credit else c.credit
    toTunnel := if chunk = [] then .done .localEof else .send allow chunk }

/-- `relay_tunnel_to_socket` has written a chunk. -/
def account (len : Nat) (c : Chan) : Chan :=
  let r := c.window.drained len
  { c with
    window := r.1
    drained := c.drained + 1
    toSocket := match r.2 with
      | none => .next
      | some add => .update add }

/-- `run_controlled_channel` widens the window before `opened` leaves, so that the peer is never
ahead of it. -/
def grant (c : Chan) : Chan :=
  { c with
    window := c.window.grant (channelWindow - initialWindow)
    granted := c.granted + (channelWindow - initialWindow)
    stage := .greeting (.opened c.id true "" channelWindow) }

/-- The steps of the task.  `gone` tells that the sink is closed, and `down` that the tunnel closes
under the channel. -/
inductive Step (gone down : Bool) : Chan → Output → Chan → Prop where
  /-- `credit.take(MAX_FRAME)`. -/
  | take {c : Chan} (hs : c.stage = .relaying) (ht : c.toTunnel = .take)
      (hcredit : minFrameCharge ≤ c.credit) :
      Step gone down c .quiet
        { c with
          credit := c.credit - SendCredit.taken maxFrame c.credit
          toTunnel := .read (SendCredit.taken maxFrame c.credit) }
  | cancelTake {c : Chan} (hs : c.stage = .relaying) (ht : c.toTunnel = .take)
      (hcancel : c.cancel = true) :
      Step gone down c .quiet { c with toTunnel := .done .cancelled }
  /-- `reader.read` while the head of the byte stream is left. -/
  | readPrebuf {c : Chan} {allow : Nat} (hs : c.stage = .relaying) (ht : c.toTunnel = .read allow)
      (hbuf : c.prebuf ≠ []) :
      Step gone down c .quiet
        { c with
          prebuf := c.prebuf.drop allow, toTunnel := .refund allow (c.prebuf.take allow) }
  /-- `reader.read` of the socket.  Nothing read is its end, or an error. -/
  | readSocket {c : Chan} {allow : Nat} {chunk : Bytes} (hs : c.stage = .relaying)
      (ht : c.toTunnel = .read allow) (hbuf : c.prebuf = []) (hlen : chunk.length ≤ allow) :
      Step gone down c .quiet
        { c with produced := c.produced ++ chunk, toTunnel := .refund allow chunk }
  | cancelRead {c : Chan} {allow : Nat} (hs : c.stage = .relaying) (ht : c.toTunnel = .read allow)
      (hcancel : c.cancel = true) :
      Step gone down c .quiet
        { c with credit := SendCredit.add allow c.credit, toTunnel := .done .cancelled }
  | refund {c : Chan} {allow : Nat} {chunk : Bytes} (hs : c.stage = .relaying)
      (ht : c.toTunnel = .refund allow chunk) :
      Step gone down c .quiet (c.refund allow chunk)
  /-- `sink.send_ordered(frame)`. -/
  | send {c : Chan} {allow : Nat} {chunk : Bytes} (hs : c.stage = .relaying)
      (ht : c.toTunnel = .send allow chunk) (hsink : gone = false) :
      Step gone down c (.ordered (.data c.id chunk))
        { c.put (.data c.id chunk) with
          toTunnel := .take, paid := c.paid ++ [(allow, chunk)] }
  | sendGone {c : Chan} {allow : Nat} {chunk : Bytes} (hs : c.stage = .relaying)
      (ht : c.toTunnel = .send allow chunk) (hsink : gone = true) :
      Step gone down c .quiet { c with toTunnel := .done .tunnelGone, refused := true }
  /-- `pending.pop_front`. -/
  | nextPending {c : Chan} {b : Bytes} {bs : List Bytes} (hs : c.stage = .relaying)
      (ht : c.toSocket = .next) (hpending : c.pending = b :: bs) :
      Step gone down c .quiet { c with pending := bs, toSocket := .write b b }
  /-- `inbound.recv`. -/
  | nextInbound {c : Chan} {cmd : Inbound} {cmds : List Inbound} (hs : c.stage = .relaying)
      (ht : c.toSocket = .next) (hpending : c.pending = []) (hinbound : c.inbound = cmd :: cmds) :
      Step gone down c .quiet ({ c with inbound := cmds }.onInbound cmd)
  | nextGone {c : Chan} (hs : c.stage = .relaying) (ht : c.toSocket = .next)
      (hpending : c.pending = []) (hinbound : c.inbound = []) (hlisted : c.listed = false) :
      Step gone down c .quiet { c with toSocket := .done .tunnelGone }
  | cancelNext {c : Chan} (hs : c.stage = .relaying) (ht : c.toSocket = .next)
      (hpending : c.pending = []) (hcancel : c.cancel = true) :
      Step gone down c .quiet { c with toSocket := .done .cancelled }
  /-- `writer.write_all` writes some of the chunk. -/
  | write {c : Chan} {chunk rest : Bytes} {n : Nat} (hs : c.stage = .relaying)
      (ht : c.toSocket = .write chunk rest) :
      Step gone down c .quiet
        { c with written := c.written ++ rest.take n, toSocket := .write chunk (rest.drop n) }
  | writeFailed {c : Chan} {chunk rest : Bytes} (hs : c.stage = .relaying)
      (ht : c.toSocket = .write chunk rest) :
      Step gone down c .quiet { c with toSocket := .done .localEof }
  | cancelWrite {c : Chan} {chunk rest : Bytes} (hs : c.stage = .relaying)
      (ht : c.toSocket = .write chunk rest) (hcancel : c.cancel = true) :
      Step gone down c .quiet { c with toSocket := .done .cancelled }
  /-- The whole chunk is written: `window.drained`. -/
  | account {c : Chan} {chunk : Bytes} (hs : c.stage = .relaying)
      (ht : c.toSocket = .write chunk []) :
      Step gone down c .quiet (c.account chunk.length)
  /-- `sink.send_control(window_update)`. -/
  | update {c : Chan} {add : Nat} (hs : c.stage = .relaying) (ht : c.toSocket = .update add)
      (hsink : gone = false) :
      Step gone down c (.control (.windowUpdate c.id add))
        { c.put (.windowUpdate c.id add) with toSocket := .next }
  | updateGone {c : Chan} {add : Nat} (hs : c.stage = .relaying) (ht : c.toSocket = .update add)
      (hsink : gone = true) :
      Step gone down c .quiet { c with toSocket := .done .tunnelGone, refused := true }
  /-- `run_channel` cancels the relays: one has ended, or the tunnel closes. -/
  | cancel {c : Chan} (hs : c.stage = .relaying)
      (hend : c.toTunnel.result.isSome = true ∨ c.toSocket.result.isSome = true ∨ down = true) :
      Step gone down c .quiet { c with cancel := true }
  /-- Both relays have ended. -/
  | join {c : Chan} {first second : RelayEnd} (hs : c.stage = .relaying)
      (htunnel : c.toTunnel = .done first) (hsocket : c.toSocket = .done second) :
      Step gone down c .quiet
        { c with stage := if closes first second then .parting (.close c.id) else .ended }
  /-- The last frame. -/
  | part {c : Chan} {m : PortForwardChannel} (hs : c.stage = .parting m) (hsink : gone = false) :
      Step gone down c (.ordered m) { c.put m with stage := .ended }
  | partGone {c : Chan} {m : PortForwardChannel} (hs : c.stage = .parting m)
      (hsink : gone = true) :
      Step gone down c .quiet { c with stage := .ended, refused := true }
  /-- The first frame. -/
  | greet {c : Chan} {m : PortForwardChannel} (hs : c.stage = .greeting m) (hsink : gone = false) :
      Step gone down c (.ordered m) { c.put m with stage := .relaying }
  | greetGone {c : Chan} {m : PortForwardChannel} (hs : c.stage = .greeting m)
      (hsink : gone = true) :
      Step gone down c .quiet { c with stage := .ended, refused := true }
  /-- `inbound.recv` while the target is being connected. -/
  | connecting {c : Chan} {addr : String} {isRdp : Bool} {charged : Nat} {cmd : Inbound}
      {cmds : List Inbound} (hs : c.stage = .connecting addr isRdp charged)
      (hinbound : c.inbound = cmd :: cmds) :
      Step gone down c .quiet ({ c with inbound := cmds }.onConnecting addr isRdp charged cmd)
  | connectingGone {c : Chan} {addr : String} {isRdp : Bool} {charged : Nat}
      (hs : c.stage = .connecting addr isRdp charged) (hinbound : c.inbound = [])
      (hlisted : c.listed = false) :
      Step gone down c .quiet { c with stage := .ended, broke := some .tunnelGone }
  /-- The target is connected, and no command is waiting. -/
  | connected {c : Chan} {addr : String} {isRdp : Bool} {charged : Nat}
      (hs : c.stage = .connecting addr isRdp charged) (hinbound : c.inbound = [])
      (hlisted : c.listed = true) :
      Step gone down c .quiet { c with stage := .granting }
  | connectFailed {c : Chan} {addr : String} {isRdp : Bool} {charged : Nat}
      (hs : c.stage = .connecting addr isRdp charged) (hinbound : c.inbound = [])
      (hlisted : c.listed = true) :
      Step gone down c .quiet
        { c with stage := .parting (.opened c.id false (unreachableMessage addr isRdp) 0) }
  /-- `window.grant`. -/
  | grant {c : Chan} (hs : c.stage = .granting) :
      Step gone down c .quiet c.grant

/-! ### The demultiplexer -/

/-- The demultiplexer queues a command, when there is someone to receive it. -/
def push (cmd : Inbound) (c : Chan) : Chan :=
  if c.receiving then { c with inbound := c.inbound ++ [cmd] } else c

@[simp]
theorem push_listed (cmd : Inbound) (c : Chan) :
  (c.push cmd).listed = c.listed
  := by
  rw [push]
  split_ifs <;> rfl

@[simp]
theorem push_evicted (cmd : Inbound) (c : Chan) :
  (c.push cmd).evicted = c.evicted
  := by
  rw [push]
  split_ifs <;> rfl

/-- The entry leaves the table. -/
def unlist (c : Chan) : Chan := { c with listed := false }

/-- A `data` frame.  One that is not delivered takes the entry out of the table. -/
def onData (data : Bytes) (c : Chan) : Chan :=
  match c.window.accept data.length with
  | some w =>
      let c := { c with window := w, accepted := c.accepted ++ [data] }
      if c.receiving then c.push (.data data) else c.unlist
  | none => c.unlist.push .violation

/-- A frame that is delivered is queued, and leaves the entry in the table. -/
theorem onData_of_receiving {data : Bytes} {w : RecvWindow} {c : Chan}
    (haccept : c.window.accept data.length = some w) (hreceiving : c.receiving = true) :
  c.onData data
    = { c with
        window := w, accepted := c.accepted ++ [data], inbound := c.inbound ++ [.data data] }
  := by
  have hreceiving' : Chan.receiving { c with window := w, accepted := c.accepted ++ [data] } = true :=
    hreceiving
  rw [onData]
  rw [haccept]
  dsimp only
  rw [if_pos hreceiving']
  rw [push]
  rw [if_pos hreceiving']

theorem onData_evicted (data : Bytes) (c : Chan) :
  (c.onData data).evicted = c.evicted
  := by
  rw [onData]
  cases c.window.accept data.length with
  | none => exact push_evicted .violation c.unlist
  | some w =>
      dsimp only
      split_ifs
      · apply push_evicted
      · rfl

/-- The peer closes the channel, or refuses to open it. -/
def onClose (c : Chan) : Chan := c.unlist.push .close

/-- A `window_update` frame. -/
def onWindowUpdate (add : Nat) (c : Chan) : Chan := { c with credit := SendCredit.add add c.credit }

/-- An `opened` frame with success.  A repeated one raises nothing. -/
def onOpened (window : Nat) (c : Chan) : Chan :=
  if c.opened then c
  else { c with opened := true, credit := SendCredit.raiseInitial window c.credit }

end Chan

end VynxDesk.Mux
