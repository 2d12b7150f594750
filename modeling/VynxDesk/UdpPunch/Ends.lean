import Mathlib.Logic.Function.Basic
import VynxDesk.Lib.Run
import VynxDesk.UdpPunch.Packet

/-!
# The two ends of a UDP punch

The connector and the listener run `punch_udp` on connected sockets, and then hand their sockets to
a KCP endpoint, whose io loop is `kcp_io`.  The datagrams between them may be lost, repeated and
reordered: whatever an end has sent may reach the socket of the other one any number of times, at
any time.  Third parties send anything until the initial drain is over, and later on empty datagrams
and acknowledgements of other transaction ids.  The timers may go off at any time.

The KCP endpoints are parameters: they emit any datagrams, and `headerSize` is the size of a
`KcpPacketHeader`.
-/

namespace VynxDesk.UdpPunch

/-- Which end it is. -/
inductive Side where
  | connector
  | listener
  deriving DecidableEq

/-- The other end. -/
def Side.peer : Side → Side
  | .connector => .listener
  | .listener => .connector

/-- The local variables of `punch_udp`. -/
structure Punch where
  listen : Bool
  tid : UInt64
  probesSent : ℕ
  probesSeen : ℕ
  acked : Bool
  recvErrors : ℕ
  deriving DecidableEq

namespace Punch

/-- When the first probe has been sent. -/
def start (side : Side) (tid : UInt64) : Punch := ⟨side = .listener, tid, 1, 0, false, 0⟩

/-- What the loop does with a datagram: it goes on and perhaps answers a probe, or it returns. -/
inductive Flow where
  | goOn (p : Punch) (answer : Option UInt64)
  | done (packet : Option Bytes)

/-- `punch_udp`, when `recv` has returned `data`. -/
def receive (p : Punch) (data : Bytes) : Flow :=
  let ack := punchTid data punchAck
  if ack = some p.tid then
    if !p.listen then .done none else .goOn { p with acked := true } none
  else
    match punchTid data punchProbe with
    | some peerTid => .goOn { p with probesSeen := p.probesSeen + 1 } (some peerTid)
    | none => if ack.isNone && 0 < data.length then .done (some data) else .goOn p none

/-- The error of `punch_udp` when its deadline has passed. -/
def timedOut (p : Punch) : String :=
  "UDP punch is timed out, " ++ toString p.probesSent ++ " probes sent, " ++ toString p.probesSeen
    ++ " probes received, acked: " ++ toString p.acked ++ ", " ++ toString p.recvErrors
    ++ " recv errors absorbed"

end Punch

/-- A datagram, and whether a KCP endpoint emitted it. -/
structure Datagram where
  kcp : Bool
  bytes : Bytes
  deriving DecidableEq

/-- Where an end is: `punched` is between the return of `punch_udp` and the start of `kcp_io`. -/
inductive Phase where
  | draining
  | punching (p : Punch)
  | punched (packet : Option Bytes)
  | io
  | gaveUp
  deriving DecidableEq

/-- The packet that `punch_udp` has returned, until it is handed to the KCP endpoint. -/
def Phase.held : Phase → List Bytes
  | .punched packet => packet.toList
  | .draining | .punching _ | .io | .gaveUp => []

/-- One end: what its socket has queued, what it has sent and what `punch_udp` has returned.  Beside
them, its history: the transaction ids of the probes it has answered, the datagrams that have
reached its socket and those handed to its KCP endpoint. -/
structure End where
  phase : Phase
  queue : List Datagram
  sent : List Datagram
  result : Option (Except String (Option Bytes))
  answered : List UInt64
  arrived : List Datagram
  handed : List Bytes

/-- What happens at an end.  `leftover`, `stray` and `deliver` bring a datagram to its socket;
`begin` is the end of the initial drain, `start` that of `punch_udp`; `emit` is a datagram of its
KCP endpoint, `stop` the end of `kcp_io`. -/
inductive Event where
  | leftover (data : Bytes)
  | stray (data : Bytes)
  | deliver (i : ℕ)
  | begin
  | probe
  | receive
  | error
  | timeOut
  | start
  | emit (data : Bytes)
  | stop

/-- What third parties may send after the initial drain: an empty datagram, or an acknowledgement
with another transaction id. -/
def isStray (tid : UInt64) (data : Bytes) : Bool :=
  data.isEmpty || (punchTid data punchAck).any (fun other => other ≠ tid)

namespace End

/-- The datagrams that the KCP endpoint of the peer emitted, among those that have arrived. -/
def kcpArrived (e : End) : List Bytes := (e.arrived.filter (·.kcp)).map (·.bytes)

/-- Those of them that are still in the socket. -/
def kcpQueued (e : End) : List Bytes := (e.queue.filter (·.kcp)).map (·.bytes)

/-- Before `punch_udp`. -/
def start : End := ⟨.draining, [], [], none, [], [], []⟩

/-- The end sends a datagram. -/
def send (e : End) (kcp : Bool) (data : Bytes) : End :=
  { e with sent := e.sent ++ [⟨kcp, data⟩] }

/-- A datagram reaches the socket. -/
def arrive (e : End) (d : Datagram) : End :=
  { e with queue := e.queue ++ [d], arrived := e.arrived ++ [d] }

/-- The loop of `punch_udp` goes on, and answers a probe. -/
def goOn (e : End) (p : Punch) (answer : Option UInt64) : End :=
  { e with
    phase := .punching p
    sent := e.sent ++ (answer.map fun tid => ⟨false, punchPacket punchAck tid⟩).toList
    answered := e.answered ++ answer.toList }

/-- `punch_udp` returns. -/
def finish (e : End) (packet : Option Bytes) : End :=
  { e with phase := .punched packet, result := some (.ok packet) }

/-- A packet is handed to the KCP endpoint if it is as long as a header. -/
def hand (headerSize : ℕ) (e : End) (data : Bytes) : End :=
  if data.length < headerSize then e else { e with handed := e.handed ++ [data] }

/-- Whoever reads the socket gets `data`, at most the 1500 bytes of its buffer. -/
def receive (headerSize : ℕ) (e : End) (data : Bytes) : Option End :=
  match e.phase with
  | .draining => some e
  | .punching p =>
      match p.receive (data.take 1500) with
      | .goOn p answer => some (e.goOn p answer)
      | .done packet => some (e.finish packet)
  | .io => some (e.hand headerSize (data.take 1500))
  | .punched _ | .gaveUp => none

/-- `KcpStream::accept` hands the packet of `punch_udp` to the KCP endpoint, `KcpStream::connect`
gets none; then both start `kcp_io`. -/
def startIo (headerSize : ℕ) (side : Side) (e : End) (packet : Option Bytes) : End :=
  match side, packet with
  | .listener, some packet => ({ e with phase := .io } : End).hand headerSize packet
  | _, _ => { e with phase := .io }

/-- The drain ends when `try_recv` fails: what is left in the socket then, if anything, is not from
third parties. -/
def Drained (tid : UInt64) (incoming : List Datagram) (e : End) : Prop :=
  ∀ d ∈ e.queue, d ∈ incoming ∨ d.kcp = false ∧ isStray tid d.bytes = true

instance (tid : UInt64) (incoming : List Datagram) (e : End) : Decidable (e.Drained tid incoming) :=
  inferInstanceAs (Decidable
    (∀ d ∈ e.queue, d ∈ incoming ∨ d.kcp = false ∧ isStray tid d.bytes = true))

/-- What an event at an end leads to, where the peer has sent `incoming`; `none` where it cannot
happen. -/
def step (headerSize : ℕ) (side : Side) (tid : UInt64) (incoming : List Datagram) (e : End) :
    Event → Option End
  | .leftover data => if e.phase = .draining then some (e.arrive ⟨false, data⟩) else none
  | .stray data =>
      if e.phase ≠ .gaveUp ∧ isStray tid data = true then some (e.arrive ⟨false, data⟩) else none
  | .deliver i => if e.phase ≠ .gaveUp then incoming[i]?.map e.arrive else none
  | .begin =>
      if e.phase = .draining ∧ e.Drained tid incoming then
        some { e.send false (punchPacket punchProbe tid) with
          phase := .punching (.start side tid) }
      else none
  | .probe =>
      match e.phase with
      | .punching p =>
          some { e.send false (punchPacket punchProbe tid) with
            phase := .punching { p with probesSent := p.probesSent + 1 } }
      | _ => none
  | .receive =>
      match e.queue with
      | d :: rest => ({ e with queue := rest } : End).receive headerSize d.bytes
      | [] => none
  | .error =>
      match e.phase with
      | .punching p => some { e with phase := .punching { p with recvErrors := p.recvErrors + 1 } }
      | _ => none
  | .timeOut =>
      match e.phase with
      | .punching p => some { e with phase := .gaveUp, result := some (.error p.timedOut) }
      | _ => none
  | .start =>
      match e.phase with
      | .punched packet => some (e.startIo headerSize side packet)
      | _ => none
  | .emit data => if e.phase = .io then some (e.send true data) else none
  | .stop => if e.phase = .io then some { e with phase := .gaveUp } else none

/-- What the events do, and when they can happen. -/
inductive Effect (headerSize : ℕ) (side : Side) (tid : UInt64) (incoming : List Datagram)
    (e : End) : Event → End → Prop where
  | leftover (data : Bytes) (hphase : e.phase = .draining) :
      Effect headerSize side tid incoming e (.leftover data) (e.arrive ⟨false, data⟩)
  | stray {data : Bytes} (hphase : e.phase ≠ .gaveUp) (hstray : isStray tid data = true) :
      Effect headerSize side tid incoming e (.stray data) (e.arrive ⟨false, data⟩)
  | deliver {i : ℕ} {d : Datagram} (hd : d ∈ incoming) :
      Effect headerSize side tid incoming e (.deliver i) (e.arrive d)
  | begin (hphase : e.phase = .draining) (hdrained : e.Drained tid incoming) :
      Effect headerSize side tid incoming e .begin
        { e.send false (punchPacket punchProbe tid) with phase := .punching (.start side tid) }
  | probe {p : Punch} (hphase : e.phase = .punching p) :
      Effect headerSize side tid incoming e .probe
        { e.send false (punchPacket punchProbe tid) with
          phase := .punching { p with probesSent := p.probesSent + 1 } }
  | receive {d : Datagram} {rest : List Datagram} {e' : End} (hqueue : e.queue = d :: rest)
      (hreceive : ({ e with queue := rest } : End).receive headerSize d.bytes = some e') :
      Effect headerSize side tid incoming e .receive e'
  | error {p : Punch} (hphase : e.phase = .punching p) :
      Effect headerSize side tid incoming e .error
        { e with phase := .punching { p with recvErrors := p.recvErrors + 1 } }
  | timeOut {p : Punch} (hphase : e.phase = .punching p) :
      Effect headerSize side tid incoming e .timeOut
        { e with phase := .gaveUp, result := some (.error p.timedOut) }
  | start {packet : Option Bytes} (hphase : e.phase = .punched packet) :
      Effect headerSize side tid incoming e .start (e.startIo headerSize side packet)
  | emit (data : Bytes) (hphase : e.phase = .io) :
      Effect headerSize side tid incoming e (.emit data) (e.send true data)
  | stop (hphase : e.phase = .io) :
      Effect headerSize side tid incoming e .stop { e with phase := .gaveUp }

theorem effect_of_step {headerSize : ℕ} {side : Side} {tid : UInt64} {incoming : List Datagram}
    {e e' : End} {i : Event} (hstep : e.step headerSize side tid incoming i = some e') :
  Effect headerSize side tid incoming e i e'
  := by
  rw [step.eq_def] at hstep
  cases i with
  | leftover data =>
      obtain ⟨hphase, hsome⟩ := Option.ite_none_right_eq_some.mp hstep
      obtain rfl := Option.some.inj hsome
      apply Effect.leftover data hphase
  | stray data =>
      obtain ⟨⟨hphase, hstray⟩, hsome⟩ := Option.ite_none_right_eq_some.mp hstep
      obtain rfl := Option.some.inj hsome
      apply Effect.stray hphase hstray
  | deliver i =>
      obtain ⟨-, hsome⟩ := Option.ite_none_right_eq_some.mp hstep
      obtain ⟨d, hd, rfl⟩ := Option.map_eq_some_iff.mp hsome
      apply Effect.deliver (List.mem_of_getElem? hd)
  | begin =>
      obtain ⟨⟨hphase, hdrained⟩, hsome⟩ := Option.ite_none_right_eq_some.mp hstep
      obtain rfl := Option.some.inj hsome
      apply Effect.begin hphase hdrained
  | receive =>
      dsimp only at hstep
      split at hstep
      next hqueue => apply Effect.receive hqueue hstep
      next => cases hstep
  | emit data =>
      obtain ⟨hphase, hsome⟩ := Option.ite_none_right_eq_some.mp hstep
      obtain rfl := Option.some.inj hsome
      apply Effect.emit data hphase
  | stop =>
      obtain ⟨hphase, hsome⟩ := Option.ite_none_right_eq_some.mp hstep
      obtain rfl := Option.some.inj hsome
      apply Effect.stop hphase
  | _ =>
      dsimp only at hstep
      split at hstep
      next =>
          obtain rfl := Option.some.inj hstep
          constructor
          all_goals assumption
      next => cases hstep

end End

/-- The two ends. -/
abbrev System := Side → End

namespace System

/-- Before both punches. -/
def start : System := fun _ => .start

/-- What an event at a side leads to. -/
def step (headerSize : ℕ) (tid : Side → UInt64) (s : System) (i : Side × Event) : Option System :=
  ((s i.1).step headerSize i.1 (tid i.1) (s i.1.peer).sent i.2).map (Function.update s i.1)

/-- The events as a transition system. -/
def Step (headerSize : ℕ) (tid : Side → UInt64) (s : System) (i : Side × Event) (s' : System) :
    Prop :=
  s.step headerSize tid i = some s'

end System

end VynxDesk.UdpPunch
