import VynxDesk.Lib.Channel
import VynxDesk.Connection.Tunnel

/-!
# Raw hand-over of a legacy tunnel

A legacy tunnel starts framed and ends raw.  The controlled side runs the loop of its connection,
and enters `try_port_forward_loop` when the loop ends with a socket to the target.  The controller
runs `connect_and_login`, and leaves for the raw mode on the login response.  Two in-order byte
channels join them.

What the hand-over owes to both ends is `Pair.Clean`: no framed message of the controller is unread
when the controlled side has entered the raw loop, nothing framed follows the login response, and
the target and the local application get exactly the forwarded bytes.  It fails when a delay probe
is outstanding at an `Authorize`, when the controller has written behind its login, and when an
authorized tunnel still in the loop gets an event that writes.  `Pair.HandoverSafe` is the condition
on a step that excludes these.
-/

namespace VynxDesk

/-! ### The controller -/

/-- Where `connect_and_login` stands: it logs in, or it has left for the raw mode, or it has
ended. -/
inductive Phase where
  | login | raw | gone
  deriving DecidableEq

/-- The state of `connect_and_login`.  `pendingLogin` is a password typed before the hash was
there, with the login it will make. -/
structure Controller where
  phase : Phase := .login
  challenge : Bool := false
  pendingLogin : Option LoginRequest := none
  buffer : Bytes := []

/-- A message the user interface may pass on while its tunnel logs in. -/
def isUiMessage : Message → Bool
  | some (.loginRequest _) | some (.testDelay _) | some (.switchSidesResponse _) => false
  | _ => true

/-- A message an honest controller may send while it logs in. -/
def isHonest : Message → Bool
  | some (.loginRequest lr) => lr.legacy
  | some (.testDelay fromClient) => !fromClient
  | msg => isUiMessage msg

theorem isHonest_of_isUiMessage {msg : Message} (hmsg : isUiMessage msg = true) :
  isHonest msg = true
  := by
  unfold isHonest
  split
  · cases hmsg
  · cases hmsg
  · apply hmsg

namespace Controller

/-- What `connect_and_login` does with a message of the controlled side, and what it writes.
`answer` is the login that `handle_hash` sends, if any. -/
def onMessage (answer : Option LoginRequest) (m : OutMsg) (k : Controller) :
    Controller × List Message × List Bytes :=
  match m with
  | .hash =>
      let login := if k.pendingLogin.isSome then k.pendingLogin else answer
      ({ k with challenge := true, pendingLogin := none },
        login.toList.map fun lr => some (.loginRequest lr), [])
  | .testDelay => (k, [some (.testDelay false)], [])
  | .peerInfo _ =>
      ({ k with phase := .raw, buffer := [] }, [], if k.buffer.isEmpty then [] else [k.buffer])
  | _ => (k, [], [])

/-- A password typed at the user interface. -/
def onUiLogin (lr : LoginRequest) (k : Controller) : Controller × List Message × List Bytes :=
  if k.challenge then (k, [some (.loginRequest lr)], [])
  else ({ k with pendingLogin := some lr }, [], [])

/-- Bytes of the local application: kept while the login goes on, then passed on. -/
def onForward (data : Bytes) (k : Controller) : Controller × List Message × List Bytes :=
  match k.phase with
  | .login => ({ k with buffer := k.buffer ++ data }, [], [])
  | _ => (k, [], [data])

end Controller

/-! ### Both ends -/

/-- The bytes of the framed messages. -/
structure Framing where
  message : Message → Bytes
  outMsg : OutMsg → Bytes

/-- The messages a turn of the loop has written to the peer. -/
def Loop.framed (l : Loop) : List OutMsg := l.conn.out.filterMap Effect.framed

/-- The controlled side is in `try_port_forward_loop`. -/
def Loop.handedOver (l : Loop) : Bool := !l.running && l.conn.portForwardSocket

/-- The event takes something from the stream. -/
def Event.isRead : Event → Bool
  | .message _ | .unparsed => true
  | _ => false

/-- Reading the packet may be the event of the loop. -/
def Event.Delivers (p : Packet Message UInt8) : Event → Prop
  | .message msg => p.Reads msg
  | .unparsed => p.IsRaw
  | _ => False

/-- The two ends of a legacy tunnel and the byte channels between them.  `sent` records every
framed message of the controlled side; `targetData` and `appData` record what the target and the
local application have handed in, and `targetGot` and `appGot` what they were given. -/
structure Pair where
  controlled : Loop
  controller : Controller := {}
  toController : List (Packet OutMsg UInt8)
  toControlled : List (Packet Message UInt8) := []
  sent : List OutMsg
  targetData : Bytes := []
  appData : Bytes := []
  targetGot : Bytes := []
  appGot : Bytes := []

/-- What may happen next. -/
inductive Pair.Act where
  /-- An event of the controlled side's loop that takes nothing from the stream. -/
  | turn (e : Env) (ev : Event)
  /-- The controlled side's loop reads the stream. -/
  | receive (e : Env) (ev : Event)
  /-- The controller reads a message while it logs in. -/
  | read (answer : Option LoginRequest) (m : OutMsg)
  /-- A password is typed at the user interface. -/
  | uiLogin (lr : LoginRequest)
  /-- The user interface passes a message on. -/
  | uiMessage (msg : Message)
  /-- `connect_and_login` returns without a stream, or the raw pipe ends. -/
  | leave
  /-- The controller reads the local application. -/
  | appRead (data : Bytes)
  /-- The controller, in the raw mode, writes what it reads to the local application. -/
  | appWrite
  /-- `try_port_forward_loop` reads the target. -/
  | targetRead (data : Bytes)
  /-- `try_port_forward_loop` writes what it reads to the target. -/
  | targetWrite
  /-- `try_port_forward_loop` ends. -/
  | endTunnel

namespace Pair

/-- The loop of the controlled side has made a turn. -/
def turned (l : Loop) (s : Pair) : Pair :=
  { s with
    controlled := l
    toController := s.toController ++ l.framed.map .framed
    sent := s.sent ++ l.framed }

/-- The controller has reacted. -/
def reacted (r : Controller × List Message × List Bytes) (s : Pair) : Pair :=
  { s with
    controller := r.1
    toControlled := s.toControlled ++ r.2.1.map .framed ++ r.2.2.map .raw }

/-- The steps of both ends, in any order.  The logins of the controller ask for a tunnel without
multiplexing. -/
inductive Step (h : Host) (w : Framing) : Pair → Act → Pair → Prop where
  | turn {s : Pair} {e : Env} {ev : Event} {l : Loop} (hev : ev.isRead = false)
      (hl : Loop.Step h s.controlled (e, ev) l) : Step h w s (.turn e ev) (s.turned l)
  | receive {s : Pair} {p : Packet Message UInt8} {ps : List (Packet Message UInt8)} {e : Env}
      {ev : Event} {l : Loop} (hps : s.toControlled = p :: ps) (hp : ev.Delivers p)
      (hl : Loop.Step h s.controlled (e, ev) l) :
      Step h w s (.receive e ev) ({ s with toControlled := ps }.turned l)
  | read {s : Pair} {p : Packet OutMsg UInt8} {ps : List (Packet OutMsg UInt8)} {m : OutMsg}
      {answer : Option LoginRequest} (hphase : s.controller.phase = .login)
      (hps : s.toController = p :: ps) (hp : p.Reads m)
      (hanswer : ∀ lr ∈ answer, lr.legacy = true) :
      Step h w s (.read answer m)
        ({ s with toController := ps }.reacted (s.controller.onMessage answer m))
  | uiLogin {s : Pair} {lr : LoginRequest} (hphase : s.controller.phase = .login)
      (hlr : lr.legacy = true) : Step h w s (.uiLogin lr) (s.reacted (s.controller.onUiLogin lr))
  | uiMessage {s : Pair} {msg : Message} (hphase : s.controller.phase = .login)
      (hmsg : isUiMessage msg = true) :
      Step h w s (.uiMessage msg) (s.reacted (s.controller, [msg], []))
  | leave {s : Pair} : Step h w s .leave { s with controller.phase := .gone }
  | appRead {s : Pair} {data : Bytes} (hphase : s.controller.phase ≠ .gone) :
      Step h w s (.appRead data)
        ({ s with appData := s.appData ++ data }.reacted (s.controller.onForward data))
  | appWrite {s : Pair} {p : Packet OutMsg UInt8} {ps : List (Packet OutMsg UInt8)}
      (hphase : s.controller.phase = .raw) (hps : s.toController = p :: ps) :
      Step h w s .appWrite
        { s with toController := ps, appGot := s.appGot ++ p.bytes w.outMsg }
  | targetRead {s : Pair} {data : Bytes} (hraw : s.controlled.handedOver = true) :
      Step h w s (.targetRead data)
        { s with
          targetData := s.targetData ++ data, toController := s.toController ++ [.raw data] }
  | targetWrite {s : Pair} {p : Packet Message UInt8} {ps : List (Packet Message UInt8)}
      (hraw : s.controlled.handedOver = true) (hps : s.toControlled = p :: ps) :
      Step h w s .targetWrite
        { s with toControlled := ps, targetGot := s.targetGot ++ p.bytes w.message }
  | endTunnel {s : Pair} (hraw : s.controlled.handedOver = true) :
      Step h w s .endTunnel
        { s with controlled.conn := s.controlled.conn.clear.onClose h false }

/-- The connection has just been opened. -/
def IsStart (h : Host) (s : Pair) : Prop :=
  ∃ l : Loop, l.IsStart h
    ∧ s = { controlled := l, toController := l.framed.map .framed, sent := l.framed }

/-- What the hand-over owes to both ends. -/
structure Clean (w : Framing) (s : Pair) : Prop where
  /-- No framed message of the controller is unread once the controlled side is in the raw
  loop. -/
  unread : s.controlled.handedOver = true → ∀ p ∈ s.toControlled, p.IsRaw
  /-- No framed message follows the login response. -/
  last : ∀ before m after, s.sent = before ++ m :: after → m.isPeerInfo = true → after = []
  /-- The target gets what the local application has sent, and nothing else. -/
  target : s.targetGot <+: s.appData
  /-- The local application gets what the target has sent, and nothing else. -/
  app : s.appGot <+: s.targetData
  /-- What the target has not got yet is on its way. -/
  toTarget : s.controlled.handedOver = true →
    s.targetGot ++ s.toControlled.flatMap (Packet.bytes w.message) ++ s.controller.buffer
      = s.appData
  /-- What the local application has not got yet is on its way. -/
  toApp : s.controller.phase = .raw →
    s.appGot ++ s.toController.flatMap (Packet.bytes w.outMsg) = s.targetData

end Pair

/-! ### The condition -/

/-- A login, or a code of the second factor, that the controlled side has not read yet. -/
def Pair.LoginUnread (s : Pair) : Prop :=
  ∃ msg, Packet.framed msg ∈ s.toControlled ∧ isLoginMessage msg = true

/-- Nothing but answers to delay probes is on its way to the controlled side. -/
def Pair.OnlyReplies (s : Pair) : Prop :=
  ∀ msg, Packet.framed msg ∈ s.toControlled → msg = some (.testDelay false)

/-- The controller may write a login or a message of its user interface: it does not write behind a
login that is unread, and not after the approval. -/
structure Pair.MayWrite (s : Pair) : Prop where
  framed : s.controlled.handedOver = false
  waiting : s.controlled.running = true →
    s.controlled.conn.auth.authorized = false ∧ ¬ s.LoginUnread

/-- An `Authorize` ends the loop: the target of the login is reached, or it was before. -/
def Conn.AuthorizeEnds (e : Env) (c : Conn) : Prop :=
  c.auth.authorized = true ∨ c.auth.lr.reached e = true

/-- The condition on an event of the loop.  An authorized tunnel gets none that writes, and an
`Authorize` that ends the loop finds no delay probe outstanding and no message of the controller
on its way but answers to probes. -/
structure Pair.TurnSafe (h : Host) (e : Env) (ev : Event) (s : Pair) : Prop where
  silent : s.controlled.conn.auth.authorized = true → s.controlled.conn.portForwardSocket = true →
    ev.writes h e s.controlled.conn = false
  probe : ev = .cm .authorize → s.controlled.conn.AuthorizeEnds e →
    s.controlled.conn.lastTestDelay = false
  replies : ev = .cm .authorize → s.controlled.conn.AuthorizeEnds e → s.OnlyReplies

/-- The condition on a step: the events of the loop that read nothing are safe, and the controller
writes its logins and the messages of its user interface only when it may.  There is none on what
the loop reads. -/
def Pair.HandoverSafe (h : Host) (s : Pair) : Pair.Act → Prop
  | .turn e ev => s.TurnSafe h e ev
  | .read answer .hash => (s.controller.pendingLogin.isSome ∨ answer.isSome) → s.MayWrite
  | .uiLogin _ => s.controller.challenge = true → s.MayWrite
  | .uiMessage _ => s.MayWrite
  | _ => True

end VynxDesk
