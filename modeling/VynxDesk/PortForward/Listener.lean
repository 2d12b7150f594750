import Mathlib.Logic.Relation
import VynxDesk.PortForward.Inbound

/-!
# The tunnel of a listener

`Tunnel` of `port_forward_mux.rs`, with the accept loop of `listen` that establishes tunnels on it,
the loops of these tunnels, and the tasks of their channels.  A handle is named by its place among
those that were made.  The accept loop is sequential; everything else interleaves with it.

A tunnel is published exactly while its loop has not reset the state (`Listener.Invariant.published`),
from which the rest follows (`Listener.tunnel_of_run`).
-/

namespace VynxDesk.Mux

/-! ### Tunnel loops -/

/-- Where `tunnel_loop` stands: its handle is published and the loop is not spawned yet, it runs, it
is broken off, `close_all` has cleared the table, and raised the teardown, the loop has reset the
state, and it has returned. -/
inductive LoopStage where
  | published | running | broken | cleared | raised | reset | returned
  deriving DecidableEq

namespace LoopStage

/-- The loop has not run its final reset. -/
def pending : LoopStage → Bool
  | .reset | .returned => false
  | _ => true

/-- `close_all` has cleared the table. -/
def hasCleared : LoopStage → Bool
  | .cleared | .raised | .reset | .returned => true
  | _ => false

/-- `close_all` has raised the teardown. -/
def hasRaised : LoopStage → Bool
  | .raised | .reset | .returned => true
  | _ => false

end LoopStage

/-- A tunnel: its handle and its loop. -/
structure TunnelLoop where
  handle : TunnelHandle := .new
  stage : LoopStage := .published
  deriving DecidableEq

namespace TunnelLoop

/-- What happens in a tunnel without the accept loop and the state: its loop handles a frame or takes
one from a queue, breaks off and goes through `close_all`, and drops the queues as it returns; a task
takes a step, or it leaves the table at its end. -/
inductive Act where
  | frame (ch : PortForwardChannel)
  | takeData
  | takeControl
  | breakOff
  | clear
  | raise
  | drop
  | task (i : Nat)
  | leave (i : Nat)
  deriving DecidableEq

/-- The steps of a tunnel. -/
inductive Step : TunnelLoop → Act → TunnelLoop → Prop where
  | frame {t : TunnelLoop} {h : TunnelHandle} {ch : PortForwardChannel} (hstage : t.stage = .running)
      (hstep : TunnelHandle.Step t.handle (.frame ch) h) :
      Step t (.frame ch) { t with handle := h }
  | takeData {t : TunnelLoop} {h : TunnelHandle} (hstage : t.stage = .running)
      (hstep : TunnelHandle.Step t.handle .takeData h) :
      Step t .takeData { t with handle := h }
  | takeControl {t : TunnelLoop} {h : TunnelHandle} (hstage : t.stage = .running)
      (hstep : TunnelHandle.Step t.handle .takeControl h) :
      Step t .takeControl { t with handle := h }
  | breakOff {t : TunnelLoop} (hstage : t.stage = .running) :
      Step t .breakOff { t with stage := .broken }
  | clear {t : TunnelLoop} {h : TunnelHandle} (hstage : t.stage = .broken)
      (hstep : TunnelHandle.Step t.handle .clear h) :
      Step t .clear { handle := h, stage := .cleared }
  | raise {t : TunnelLoop} {h : TunnelHandle} (hstage : t.stage = .cleared)
      (hstep : TunnelHandle.Step t.handle .raise h) :
      Step t .raise { handle := h, stage := .raised }
  | drop {t : TunnelLoop} {h : TunnelHandle} (hstage : t.stage = .reset)
      (hstep : TunnelHandle.Step t.handle .drop h) :
      Step t .drop { handle := h, stage := .returned }
  | task {t : TunnelLoop} {h : TunnelHandle} {i : Nat}
      (hstep : TunnelHandle.Step t.handle (.task i) h) :
      Step t (.task i) { t with handle := h }
  | leave {t : TunnelLoop} {h : TunnelHandle} {i : Nat}
      (hstep : TunnelHandle.Step t.handle (.leave i) h) :
      Step t (.leave i) { t with handle := h }

end TunnelLoop

/-! ### The listener -/

/-- `TunnelState`. -/
inductive TunnelState where
  | unset
  | muxed (k : Nat)
  | legacy
  | failed
  deriving DecidableEq

/-- `Claim`. -/
inductive Claim where
  | claimed
  | muxed (k : Nat)
  | legacy
  deriving DecidableEq

/-- What `connect_and_login_mux` comes to in `establish_tunnel`. -/
inductive Outcome where
  | mux (localEof : Bool) (prebuf : Bytes)
  | legacy
  | failed
  | closePortForward
  deriving DecidableEq

/-- Where the accept loop of `listen` stands. -/
inductive Phase where
  /-- It waits for a connection. -/
  | accepting
  /-- `establish_tunnel`, after the claim. -/
  | establishing
  /-- `set_muxed` has published the handle; `first` is what the first connection has sent. -/
  | spawning (k : Nat) (first : Option Bytes)
  /-- It calls `open`. -/
  | opening (k : Nat) (prebuf : Bytes)
  /-- `open` has seen the sink open. -/
  | inserting (k : Nat) (prebuf : Bytes)
  /-- The listener is gone. -/
  | over
  deriving DecidableEq

/-- A listener: the state of its `Tunnel`, the tunnels it has made, and its accept loop. -/
structure Listener where
  state : TunnelState := .unset
  tunnels : List TunnelLoop := []
  phase : Phase := .accepting
  deriving DecidableEq

namespace Listener

/-- `Tunnel::claim`. -/
def claim (l : Listener) : Claim :=
  match l.state with
  | .unset | .failed => .claimed
  | .muxed k => .muxed k
  | .legacy => .legacy

/-- `Tunnel::set_muxed`, up to the spawn. -/
def setMuxed (l : Listener) : Listener :=
  { l with state := .muxed l.tunnels.length, tunnels := l.tunnels ++ [{}] }

/-- `Tunnel::set_legacy`. -/
def setLegacy (l : Listener) : Listener := { l with state := .legacy }

/-- `Tunnel::set_failed`. -/
def setFailed (l : Listener) : Listener := { l with state := .failed }

/-- A connection is accepted.  What is no tunnel is a raw pipe of its own. -/
def accept (portForwardMux : Bool) (l : Listener) : Listener :=
  match if portForwardMux then l.claim else .legacy with
  | .muxed k => { l with phase := .opening k [] }
  | .claimed => { l with phase := .establishing }
  | .legacy => l

/-- `establish_tunnel`, once the peer has answered. -/
def establishTunnel (outcome : Outcome) (l : Listener) : Listener :=
  match outcome with
  | .mux localEof prebuf =>
      { l.setMuxed with
        phase := .spawning l.tunnels.length (if localEof then none else some prebuf) }
  | .legacy => { l.setLegacy with phase := .accepting }
  | .failed => { l.setFailed with phase := .accepting }
  | .closePortForward => { l.setFailed with phase := .over }

/-- The loop of a tunnel is spawned, and the first connection is opened on it. -/
def spawn (k : Nat) (first : Option Bytes) (l : Listener) : Listener :=
  { l with
    tunnels := l.tunnels.modify k fun t => { t with stage := .running }
    phase := match first with
      | none => .accepting
      | some prebuf => .opening k prebuf }

/-- What may happen. -/
inductive Act where
  /-- A connection is accepted. -/
  | accept (portForwardMux : Bool)
  /-- The accept loop ends. -/
  | stop
  | establish (outcome : Outcome)
  | spawn
  /-- `open` looks whether the sink is closed. -/
  | check
  /-- `open` inserts an entry. -/
  | insert
  /-- Something happens in a tunnel. -/
  | tunnel (k : Nat) (act : TunnelLoop.Act)
  /-- The loop of a tunnel resets the state. -/
  | reset (k : Nat)
  deriving DecidableEq

/-- The steps of a listener for `host` and `port`. -/
inductive Step (host : Str) (port : BitVec 32) : Listener → Act → Listener → Prop where
  | accept {l : Listener} (portForwardMux : Bool) (hphase : l.phase = .accepting) :
      Step host port l (.accept portForwardMux) (l.accept portForwardMux)
  | stop {l : Listener} (hphase : l.phase = .accepting) :
      Step host port l .stop { l with phase := .over }
  | establish {l : Listener} (outcome : Outcome) (hphase : l.phase = .establishing) :
      Step host port l (.establish outcome) (l.establishTunnel outcome)
  | spawn {l : Listener} {k : Nat} {first : Option Bytes} (hphase : l.phase = .spawning k first) :
      Step host port l .spawn (l.spawn k first)
  | check {l : Listener} {k : Nat} {prebuf : Bytes} {t : TunnelLoop}
      (hphase : l.phase = .opening k prebuf) (ht : l.tunnels[k]? = some t) :
      Step host port l .check
        { l with phase := if t.handle.teardown.gone then .accepting else .inserting k prebuf }
  | insert {l : Listener} {k : Nat} {prebuf : Bytes} {t : TunnelLoop}
      (hphase : l.phase = .inserting k prebuf) (ht : l.tunnels[k]? = some t) :
      Step host port l .insert
        { l with
          tunnels := l.tunnels.set k { t with handle := t.handle.insert host port prebuf }
          phase := .accepting }
  | tunnel {l : Listener} {k : Nat} {act : TunnelLoop.Act} {t t' : TunnelLoop}
      (ht : l.tunnels[k]? = some t) (hstep : TunnelLoop.Step t act t') :
      Step host port l (.tunnel k act) { l with tunnels := l.tunnels.set k t' }
  | reset {l : Listener} {k : Nat} {t : TunnelLoop} (ht : l.tunnels[k]? = some t)
      (hstage : t.stage = .raised) :
      Step host port l (.reset k)
        { l with state := .unset, tunnels := l.tunnels.set k { t with stage := .reset } }

end Listener

/-! ### The tasks of a tunnel -/

namespace Chan

variable {c c' : Chan}

/-- The task has a socket: it is past connecting to a target. -/
def hasSocket (c : Chan) : Bool :=
  match c.stage with
  | .connecting _ _ _ | .granting => false
  | _ => true

/-- A task keeps its socket. -/
theorem Step.hasSocket {gone down : Bool} {out : Output} (hstep : Step gone down c out c')
    (h : c.hasSocket = true) :
  c'.hasSocket = true
  := by
  cases hstep with
  | @nextInbound cmd cmds hs ht hpending hinbound => cases cmd <;> exact h
  | join hs htunnel hsocket =>
      rw [Chan.hasSocket]
      dsimp only
      split_ifs <;> rfl
  | part hs hsink => rfl
  | partGone hs hsink => rfl
  | greet hs hsink => rfl
  | greetGone hs hsink => rfl
  | connecting hs hinbound =>
      rw [Chan.hasSocket] at h
      rw [hs] at h
      cases h
  | connectingGone hs hinbound hlisted => rfl
  | connected hs hinbound hlisted =>
      rw [Chan.hasSocket] at h
      rw [hs] at h
      cases h
  | connectFailed hs hinbound hlisted => rfl
  | grant hs => rfl
  | _ => exact h

@[simp]
theorem push_left (cmd : Inbound) (c : Chan) :
  (c.push cmd).left = c.left
  := by
  rw [push]
  split_ifs <;> rfl

theorem onData_left (data : Bytes) (c : Chan) :
  (c.onData data).left = c.left
  := by
  rw [onData]
  cases c.window.accept data.length with
  | none => apply push_left
  | some w =>
      dsimp only
      split_ifs
      · apply push_left
      · rfl

theorem onOpened_left (window : Nat) (c : Chan) :
  (c.onOpened window).left = c.left
  := by
  rw [onOpened]
  split_ifs <;> rfl

/-- A channel of the controller has a socket from the start, and its entry leaves the table with its
task at the latest. -/
structure Opened (c : Chan) : Prop where
  hasSocket : c.hasSocket = true
  left : c.left = true → c.listed = false

theorem Opened.of_start (hstart : Start .controller c) :
  c.Opened
  := by
  cases hstart
  constructor
  · rfl
  · intro hleft
    cases hleft

/-- What is done to an entry that is listed leaves the task in the table. -/
theorem Opened.of_listed (h : c.Opened) (hlisted : c.listed = true) (hstage : c'.stage = c.stage)
    (hleft : c'.left = c.left) :
  c'.Opened
  := by
  constructor
  · rw [Chan.hasSocket]
    rw [hstage]
    apply h.hasSocket
  · intro hgone
    rw [hleft] at hgone
    rw [h.left hgone] at hlisted
    cases hlisted

theorem Opened.unlist (h : c.Opened) : c.unlist.Opened := ⟨h.hasSocket, fun _ => rfl⟩

theorem Opened.move {t : Teardown} (h : c.Opened) (hmove : Move .controller t c c') :
  c'.Opened
  := by
  cases hmove with
  | stay => exact h
  | step hstep =>
      constructor
      · apply hstep.hasSocket h.hasSocket
      · rw [hstep.id_left.2, hstep.entry.1]
        apply h.left
  | data data hlisted => exact h.of_listed hlisted (sameTask_onData data c).stage (onData_left data c)
  | close hlisted =>
      exact h.of_listed hlisted ((SameTask.refl c).unlist.push .close).stage (push_left .close _)
  | windowUpdate add hlisted => exact h.of_listed hlisted rfl rfl
  | opened window hlisted hside =>
      exact h.of_listed hlisted (sameTask_onOpened window c).stage (onOpened_left window c)
  | retain hreceiving => exact h.unlist
  | clear hcleared => exact h.unlist
  | leave hended hside => exact ⟨h.hasSocket, fun _ => rfl⟩
  | evict hlisted hside => exact ⟨h.hasSocket, fun _ => rfl⟩

/-! ### The end of a task -/

/-- Once the teardown is raised and the sink is closed, the task comes to its end by steps of its
own. -/
def Finishes (c : Chan) : Prop :=
  ∃ c', Relation.ReflTransGen (fun d d' => ∃ out, Step true true d out d') c c' ∧ c'.stage = .ended

theorem Finishes.of_ended (hs : c.stage = .ended) : c.Finishes := ⟨c, .refl, hs⟩

theorem Finishes.of_step {out : Output} (hstep : Step true true c out c') (h : c'.Finishes) :
  c.Finishes
  := by
  obtain ⟨d, hsteps, hended⟩ := h
  exact ⟨d, .head ⟨out, hstep⟩ hsteps, hended⟩

theorem Finishes.of_parting {m : PortForwardChannel} (hs : c.stage = .parting m) :
  c.Finishes
  := by
  apply Finishes.of_step (.partGone hs rfl)
  apply Finishes.of_ended rfl

theorem Finishes.of_joined {first second : RelayEnd} (hs : c.stage = .relaying)
    (htunnel : c.toTunnel = .done first) (hsocket : c.toSocket = .done second) :
  c.Finishes
  := by
  apply Finishes.of_step (.join hs htunnel hsocket)
  by_cases hcloses : closes first second = true
  · have hparting : (if closes first second then Stage.parting (.close c.id) else .ended)
        = .parting (.close c.id) := if_pos hcloses
    exact Finishes.of_parting hparting
  · apply Finishes.of_ended
    rw [if_neg hcloses]

/-- The relay to the socket ends. -/
theorem Finishes.of_toTunnel {first : RelayEnd} (hs : c.stage = .relaying)
    (hcancel : c.cancel = true) (htunnel : c.toTunnel = .done first) :
  c.Finishes
  := by
  have hwriting {d : Chan} {chunk rest : Bytes} (hs : d.stage = .relaying)
      (hcancel : d.cancel = true) (htunnel : d.toTunnel = .done first)
      (hsocket : d.toSocket = .write chunk rest) : d.Finishes :=
    .of_step (.cancelWrite hs hsocket hcancel) (.of_joined hs htunnel rfl)
  cases hsocket : c.toSocket with
  | next =>
      cases hpending : c.pending with
      | nil => exact .of_step (.cancelNext hs hsocket hpending hcancel) (.of_joined hs htunnel rfl)
      | cons b bs =>
          exact .of_step (.nextPending hs hsocket hpending) (hwriting hs hcancel htunnel rfl)
  | write chunk rest => exact hwriting hs hcancel htunnel hsocket
  | update add => exact .of_step (.updateGone hs hsocket rfl) (.of_joined hs htunnel rfl)
  | done second => exact .of_joined hs htunnel hsocket

/-- Both relays end. -/
theorem Finishes.of_cancel (hs : c.stage = .relaying) (hcancel : c.cancel = true) :
  c.Finishes
  := by
  have hsending {d : Chan} {allow : Nat} {chunk : Bytes} (hs : d.stage = .relaying)
      (hcancel : d.cancel = true) (htunnel : d.toTunnel = .send allow chunk) : d.Finishes :=
    .of_step (.sendGone hs htunnel rfl) (.of_toTunnel hs hcancel rfl)
  cases htunnel : c.toTunnel with
  | take => exact .of_step (.cancelTake hs htunnel hcancel) (.of_toTunnel hs hcancel rfl)
  | read allow => exact .of_step (.cancelRead hs htunnel hcancel) (.of_toTunnel hs hcancel rfl)
  | refund allow chunk =>
      apply Finishes.of_step (.refund hs htunnel)
      by_cases hchunk : chunk = []
      · have hdone : (c.refund allow chunk).toTunnel = .done .localEof := if_pos hchunk
        exact Finishes.of_toTunnel (c := c.refund allow chunk) hs hcancel hdone
      · have hsend : (c.refund allow chunk).toTunnel = .send allow chunk := if_neg hchunk
        exact hsending (d := c.refund allow chunk) hs hcancel hsend
  | send allow chunk => exact hsending hs hcancel htunnel
  | done first => exact .of_toTunnel hs hcancel htunnel

/-- A task with a socket is nowhere parked for good. -/
theorem Opened.finishes (h : c.Opened) :
  c.Finishes
  := by
  have hsocket := h.hasSocket
  rw [Chan.hasSocket] at hsocket
  cases hs : c.stage with
  | connecting addr isRdp charged =>
      rw [hs] at hsocket
      cases hsocket
  | granting =>
      rw [hs] at hsocket
      cases hsocket
  | greeting m => exact .of_step (.greetGone hs rfl) (.of_ended rfl)
  | relaying => exact .of_step (.cancel hs (Or.inr (Or.inr rfl))) (.of_cancel hs rfl)
  | parting m => exact .of_parting hs
  | ended => exact .of_ended hs

end Chan

namespace TunnelHandle

variable {h h' : TunnelHandle}

theorem insert_teardown (host : Str) (port : BitVec 32) (prebuf : Bytes) (h : TunnelHandle) :
  (h.insert host port prebuf).teardown = h.teardown
  := by
  obtain heq | ⟨id, heq, -, -⟩ := insert_cases host port prebuf h
  · rw [heq]
  · rw [heq]

theorem onFrame_teardown (ch : PortForwardChannel) (h : TunnelHandle) :
  (h.onFrame ch).teardown = h.teardown
  := by
  cases ch with
  | opened id success message window => cases success <;> rfl
  | _ => rfl

/-- Every channel of the handle is as `Chan.Opened` says. -/
def Opened (h : TunnelHandle) : Prop := ∀ c ∈ h.channels, c.Opened

theorem Opened.step {act : Act} (hopened : h.Opened) (hstep : Step h act h') :
  h'.Opened
  := by
  have hstart (c : Chan) (hc : Chan.Start .controller c) : c.Opened := .of_start hc
  have hmove (c c' : Chan) (hc : c.Opened)
      (hmoved : Chan.Move .controller h'.teardown c c') : c'.Opened := hc.move hmoved
  exact hstep.advance.forall_mem hstart hmove hopened

end TunnelHandle

/-! ### The steps of a tunnel -/

namespace TunnelLoop

variable {t t' : TunnelLoop} {act : Act}

/-- What holds of a tunnel: how far its handle is torn down is where its loop stands. -/
structure Sound (t : TunnelLoop) : Prop where
  cleared : t.handle.teardown.cleared = t.stage.hasCleared
  down : t.handle.teardown.down = t.stage.hasRaised
  gone : t.handle.teardown.gone = decide (t.stage = .returned)
  opened : t.handle.Opened

theorem sound_new : Sound {} where
  cleared := rfl
  down := rfl
  gone := rfl
  opened := by
    intro c hc
    cases hc

/-- The handle changes, and its teardown does not. -/
theorem Sound.of_handle {h : TunnelHandle} {act : TunnelHandle.Act} (hsound : t.Sound)
    (hstep : TunnelHandle.Step t.handle act h) (hteardown : h.teardown = t.handle.teardown) :
  Sound { t with handle := h }
  := by
  constructor
  · rw [hteardown]
    apply hsound.cleared
  · rw [hteardown]
    apply hsound.down
  · rw [hteardown]
    apply hsound.gone
  · apply hsound.opened.step hstep

theorem Sound.insert (hsound : t.Sound) (host : Str) (port : BitVec 32) (prebuf : Bytes) :
  Sound { t with handle := t.handle.insert host port prebuf }
  := hsound.of_handle (.insert host port prebuf) (TunnelHandle.insert_teardown host port prebuf _)

theorem Sound.spawn (hsound : t.Sound) (hstage : t.stage = .published) :
  Sound { t with stage := .running }
  := by
  obtain ⟨hcleared, hdown, hgone, hopened⟩ := hsound
  rw [hstage] at hcleared hdown hgone
  exact ⟨hcleared, hdown, hgone, hopened⟩

theorem Sound.reset (hsound : t.Sound) (hstage : t.stage = .raised) :
  Sound { t with stage := .reset }
  := by
  obtain ⟨hcleared, hdown, hgone, hopened⟩ := hsound
  rw [hstage] at hcleared hdown hgone
  exact ⟨hcleared, hdown, hgone, hopened⟩

theorem Sound.step (hsound : t.Sound) (hstep : Step t act t') :
  t'.Sound
  := by
  cases hstep with
  | frame hstage hstep =>
      apply hsound.of_handle hstep
      cases hstep
      apply TunnelHandle.onFrame_teardown
  | takeData hstage hstep =>
      apply hsound.of_handle hstep
      cases hstep
      rfl
  | takeControl hstage hstep =>
      apply hsound.of_handle hstep
      cases hstep
      rfl
  | breakOff hstage =>
      obtain ⟨hcleared, hdown, hgone, hopened⟩ := hsound
      rw [hstage] at hcleared hdown hgone
      exact ⟨hcleared, hdown, hgone, hopened⟩
  | clear hstage hstep =>
      have hopened := hsound.opened.step hstep
      have hdown := hsound.down
      have hgone := hsound.gone
      rw [hstage] at hdown hgone
      cases hstep
      exact ⟨rfl, hdown, hgone, hopened⟩
  | raise hstage hstep =>
      have hopened := hsound.opened.step hstep
      have hcleared := hsound.cleared
      have hgone := hsound.gone
      rw [hstage] at hcleared hgone
      cases hstep
      exact ⟨hcleared, rfl, hgone, hopened⟩
  | drop hstage hstep =>
      have hopened := hsound.opened.step hstep
      have hcleared := hsound.cleared
      have hdown := hsound.down
      rw [hstage] at hcleared hdown
      cases hstep
      exact ⟨hcleared, hdown, rfl, hopened⟩
  | task hstep =>
      apply hsound.of_handle hstep
      cases hstep
      apply TunnelHandle.emit_teardown
  | leave hstep =>
      apply hsound.of_handle hstep
      cases hstep
      rfl

/-- Only the reset ends what is pending. -/
theorem Step.pending (hstep : Step t act t') :
  t'.stage.pending = t.stage.pending
  := by
  cases hstep with
  | breakOff hstage | clear hstage hstep | raise hstage hstep | drop hstage hstep =>
      rw [hstage]
      rfl
  | _ => rfl

/-- A loop that is not spawned does nothing. -/
theorem Step.published (hstep : Step t act t') (h : t.stage = .published) :
  t'.stage = .published
  := by
  cases hstep with
  | breakOff hstage | clear hstage hstep | raise hstage hstep | drop hstage hstep =>
      rw [h] at hstage
      cases hstage
  | _ => exact h

/-- When every task has left the table, the table is empty. -/
theorem Sound.len_eq_zero (hsound : t.Sound) (hleft : ∀ c ∈ t.handle.channels, c.left = true) :
  t.handle.channels.len = 0
  := by
  apply List.countP_eq_zero.mpr
  intro c hc
  rw [(hsound.opened c hc).left (hleft c hc)]
  exact Bool.false_ne_true

end TunnelLoop

/-! ### The runs of a listener -/

namespace Listener

variable {host : Str} {port : BitVec 32} {l l' : Listener} {act : Act}

/-- The tunnel is there, and its loop has not run its final reset. -/
def Pending (l : Listener) (k : Nat) : Prop :=
  ∃ t, l.tunnels[k]? = some t ∧ t.stage.pending = true

/-- What holds of a listener. -/
structure Invariant (l : Listener) : Prop where
  published : ∀ k, l.state = .muxed k ↔ l.Pending k
  establishing : l.phase = .establishing → l.claim = .claimed
  spawning : ∀ k first, l.phase = .spawning k first →
    ∃ t, l.tunnels[k]? = some t ∧ t.stage = .published
  sound : ∀ t ∈ l.tunnels, t.Sound

theorem invariant_start : Invariant {} where
  published := by
    intro k
    constructor
    · intro h
      cases h
    · rintro ⟨t, ht, -⟩
      cases ht
  establishing := by
    intro h
    cases h
  spawning := by
    intro k first h
    cases h
  sound := by
    intro t ht
    cases ht

theorem ne_muxed_of_claim (h : l.claim = .claimed) (k : Nat) :
  l.state ≠ .muxed k
  := by
  intro hstate
  rw [claim] at h
  rw [hstate] at h
  cases h

theorem ne_legacy_of_claim (h : l.claim = .claimed) :
  l.state ≠ .legacy
  := by
  intro hstate
  rw [claim] at h
  rw [hstate] at h
  cases h

/-- A tunnel changes, and is as pending as before. -/
theorem pending_set {tunnels : List TunnelLoop} {j k : Nat} {t t' : TunnelLoop}
    (ht : tunnels[k]? = some t) (hsame : t'.stage.pending = t.stage.pending) :
  (∃ u, (tunnels.set k t')[j]? = some u ∧ u.stage.pending = true)
    ↔ ∃ u, tunnels[j]? = some u ∧ u.stage.pending = true
  := by
  rw [List.getElem?_set]
  split_ifs with hjk hlt
  · subst hjk
    simp [ht, hsame]
  · subst hjk
    rw [List.getElem?_eq_none (by omega)] at ht
    cases ht
  · rfl

/-- The tunnels stay as pending as they are, with the state. -/
theorem Invariant.set {k : Nat} {t t' : TunnelLoop} (h : l.Invariant) (ht : l.tunnels[k]? = some t)
    (hsame : t'.stage.pending = t.stage.pending)
    (hkept : ∀ first, l.phase = .spawning k first → t.stage = .published → t'.stage = .published)
    (hsound : t'.Sound) :
  Invariant { l with tunnels := l.tunnels.set k t' }
  := by
  constructor
  · intro j
    rw [h.published]
    exact (pending_set ht hsame).symm
  · exact h.establishing
  · intro j first hphase
    obtain ⟨u, hu, hstage⟩ := h.spawning j first hphase
    by_cases hjk : k = j
    · subst hjk
      rw [ht, Option.some.injEq] at hu
      subst hu
      use t'
      rw [List.getElem?_set_self (List.getElem?_eq_some_iff.mp ht).1]
      exact ⟨rfl, hkept first hphase hstage⟩
    · use u
      rw [List.getElem?_set_ne hjk]
      exact ⟨hu, hstage⟩
  · intro u hu
    obtain hu | rfl := List.mem_or_eq_of_mem_set hu
    · apply h.sound u hu
    · apply hsound

/-- The accept loop goes on without a look at the state. -/
theorem Invariant.withPhase {phase : Phase} (h : l.Invariant) (hestablishing : phase ≠ .establishing)
    (hspawning : ∀ k first, phase ≠ .spawning k first) :
  Invariant { l with phase := phase }
  := by
  constructor
  · exact h.published
  · intro hphase
    exact absurd hphase hestablishing
  · intro k first hphase
    exact absurd hphase (hspawning k first)
  · exact h.sound

/-- After a claim, a state of no tunnel is as good as the state before. -/
theorem Invariant.withState {state : TunnelState} {phase : Phase} (h : l.Invariant)
    (hclaim : l.claim = .claimed) (hstate : ∀ k, state ≠ .muxed k)
    (hestablishing : phase ≠ .establishing) (hspawning : ∀ k first, phase ≠ .spawning k first) :
  Invariant { l with state := state, phase := phase }
  := by
  constructor
  · intro k
    constructor
    · intro hmuxed
      exact absurd hmuxed (hstate k)
    · intro hpending
      exact absurd ((h.published k).mpr hpending) (ne_muxed_of_claim hclaim k)
  · intro hphase
    exact absurd hphase hestablishing
  · intro k first hphase
    exact absurd hphase (hspawning k first)
  · exact h.sound

theorem Invariant.setMuxed {first : Option Bytes} (h : l.Invariant) (hclaim : l.claim = .claimed) :
  Invariant { l.setMuxed with phase := .spawning l.tunnels.length first }
  := by
  have hnew : (l.tunnels ++ [({} : TunnelLoop)])[l.tunnels.length]? = some {} := by simp
  constructor
  · intro k
    constructor
    · rintro ⟨⟩
      exact ⟨_, hnew, rfl⟩
    · rintro ⟨t, ht, hpending⟩
      by_cases hk : k < l.tunnels.length
      · have hold : l.Pending k := by
          use t
          rw [← List.getElem?_append_left hk]
          exact ⟨ht, hpending⟩
        exact absurd ((h.published k).mpr hold) (ne_muxed_of_claim hclaim k)
      · have hlast := (List.getElem?_eq_some_iff.mp ht).1
        change k < (l.tunnels ++ [({} : TunnelLoop)]).length at hlast
        rw [List.length_append, List.length_singleton] at hlast
        obtain rfl : k = l.tunnels.length := by omega
        rfl
  · intro hphase
    cases hphase
  · rintro k first ⟨⟩
    exact ⟨_, hnew, rfl⟩
  · intro t ht
    obtain ht | ht := List.mem_append.mp ht
    · apply h.sound t ht
    · obtain rfl := List.mem_singleton.mp ht
      apply TunnelLoop.sound_new

theorem Invariant.accept (h : l.Invariant) (portForwardMux : Bool) :
  (l.accept portForwardMux).Invariant
  := by
  rw [Listener.accept]
  cases portForwardMux with
  | false => exact h
  | true =>
      rw [if_pos rfl]
      cases hclaim : l.claim with
      | claimed =>
          constructor
          · exact h.published
          · intro _
            exact hclaim
          · intro k first hphase
            cases hphase
          · exact h.sound
      | muxed k => exact h.withPhase nofun nofun
      | legacy => exact h

theorem Invariant.establishTunnel (h : l.Invariant) (hclaim : l.claim = .claimed)
    (outcome : Outcome) :
  (l.establishTunnel outcome).Invariant
  := by
  cases outcome with
  | mux localEof prebuf => exact h.setMuxed hclaim
  | legacy => exact h.withState hclaim nofun nofun nofun
  | failed => exact h.withState hclaim nofun nofun nofun
  | closePortForward => exact h.withState hclaim nofun nofun nofun

theorem Invariant.spawn {k : Nat} {first : Option Bytes} (h : l.Invariant)
    (hphase : l.phase = .spawning k first) :
  (l.spawn k first).Invariant
  := by
  obtain ⟨t, ht, hstage⟩ := h.spawning k first hphase
  have hmodify : (l.tunnels.modify k fun t => { t with stage := .running })
      = l.tunnels.set k { t with stage := .running } := by
    obtain ⟨hk, rfl⟩ := List.getElem?_eq_some_iff.mp ht
    apply List.modify_eq_set_get _ hk
  unfold Listener.spawn
  rw [hmodify]
  have hover : Invariant { l with phase := .over } := h.withPhase nofun nofun
  have hpending : LoopStage.running.pending = t.stage.pending := by
    rw [hstage]
    rfl
  have hsound := (h.sound t (List.mem_of_getElem? ht)).spawn hstage
  have hset := hover.set ht hpending nofun hsound
  cases first with
  | none => exact hset.withPhase nofun nofun
  | some prebuf => exact hset.withPhase nofun nofun

/-- What holds of a listener is kept by every step. -/
theorem Invariant.step (h : l.Invariant) (hstep : Step host port l act l') :
  l'.Invariant
  := by
  cases hstep with
  | accept portForwardMux hphase => exact h.accept portForwardMux
  | stop hphase => exact h.withPhase nofun nofun
  | establish outcome hphase => exact h.establishTunnel (h.establishing hphase) outcome
  | spawn hphase => exact h.spawn hphase
  | check hphase ht =>
      apply h.withPhase
      · split_ifs <;> nofun
      · intro k first
        split_ifs <;> nofun
  | @insert k prebuf t hphase ht =>
      have hover : Invariant { l with phase := .accepting } := h.withPhase nofun nofun
      have hsound := (h.sound t (List.mem_of_getElem? ht)).insert host port prebuf
      exact hover.set ht rfl nofun hsound
  | @tunnel k act t t' ht hstep =>
      apply h.set ht hstep.pending _ ((h.sound t (List.mem_of_getElem? ht)).step hstep)
      intro _ _
      apply hstep.published
  | @reset k t ht hstage =>
      have hpending : t.stage.pending = true := by
        rw [hstage]
        rfl
      have hstate := (h.published k).mpr ⟨t, ht, hpending⟩
      constructor
      · intro j
        constructor
        · intro hunset
          cases hunset
        · rintro ⟨u, hu, hpending⟩
          by_cases hjk : k = j
          · subst hjk
            change (l.tunnels.set k _)[k]? = some u at hu
            rw [List.getElem?_set_self (List.getElem?_eq_some_iff.mp ht).1] at hu
            cases hu
            cases hpending
          · change (l.tunnels.set k _)[j]? = some u at hu
            rw [List.getElem?_set_ne hjk] at hu
            have hother := (h.published j).mpr ⟨u, hu, hpending⟩
            rw [hstate, TunnelState.muxed.injEq] at hother
            exact absurd hother hjk
      · intro _
        rfl
      · intro j first hphase
        obtain ⟨u, hu, hpublished⟩ := h.spawning j first hphase
        have hjk : k ≠ j := by
          rintro rfl
          rw [ht, Option.some.injEq] at hu
          subst hu
          rw [hstage] at hpublished
          cases hpublished
        use u
        change (l.tunnels.set k _)[j]? = some u ∧ _
        rw [List.getElem?_set_ne hjk]
        exact ⟨hu, hpublished⟩
      · intro u hu
        obtain hu | rfl := List.mem_or_eq_of_mem_set hu
        · apply h.sound u hu
        · apply (h.sound t (List.mem_of_getElem? ht)).reset hstage

/-- The legacy state is final. -/
theorem Invariant.legacy (h : l.Invariant) (hstep : Step host port l act l')
    (hlegacy : l.state = .legacy) :
  l'.state = .legacy
  := by
  cases hstep with
  | accept portForwardMux hphase =>
      rw [Listener.accept]
      split <;> exact hlegacy
  | establish outcome hphase =>
      exact absurd hlegacy (ne_legacy_of_claim (h.establishing hphase))
  | reset ht hstage =>
      have hmuxed := (h.published _).mpr ⟨_, ht, by rw [hstage]; rfl⟩
      rw [hlegacy] at hmuxed
      cases hmuxed
  | _ => exact hlegacy

/-- A tunnel loop resets the state that publishes its own handle. -/
theorem Invariant.resets {k : Nat} (h : l.Invariant) (hstep : Step host port l (.reset k) l') :
  l.state = .muxed k
  := by
  cases hstep with
  | reset ht hstage =>
      apply (h.published k).mpr
      refine ⟨_, ht, ?_⟩
      rw [hstage]
      rfl

theorem invariant_of_run {hist : List (Listener × Act)} (hrun : Run (Step host port) {} hist l) :
  l.Invariant
  := by
  apply hrun.invariant Invariant invariant_start
  intro l act l' h hstep
  apply h.step hstep

/-- Whatever is interleaved: at most one tunnel loop is still to run its final reset, and its tunnel
is the one that is published; a reset is one of the own tunnel; the legacy state is final; and the
tasks of a tunnel whose loop has returned come to their end, after which its table is empty. -/
theorem tunnel_of_run {hist : List (Listener × Act)} (hrun : Run (Step host port) {} hist l) :
  (∀ j k, l.Pending j → l.Pending k → j = k)
    ∧ (∀ k, l.state = .muxed k ↔ l.Pending k)
    ∧ (∀ x ∈ hist, ∀ k, x.2 = .reset k → x.1.state = .muxed k)
    ∧ (∀ earlier x later, hist = earlier ++ x :: later → x.1.state = .legacy →
      (∀ y ∈ later, y.1.state = .legacy) ∧ l.state = .legacy)
    ∧ (∀ t ∈ l.tunnels, t.stage = .returned → t.handle.teardown.down = true
      ∧ t.handle.teardown.gone = true ∧ ∀ c ∈ t.handle.channels, c.Finishes)
    ∧ ∀ t ∈ l.tunnels, (∀ c ∈ t.handle.channels, c.left = true) → t.handle.channels.len = 0
  := by
  have hinv := invariant_of_run hrun
  refine ⟨?_, hinv.published, ?_, ?_, ?_, ?_⟩
  · intro j k hj hk
    rw [← hinv.published] at hj hk
    rw [hj, TunnelState.muxed.injEq] at hk
    exact hk
  · intro x hx k hact
    obtain ⟨before, after, rfl⟩ := List.append_of_mem hx
    obtain ⟨hbefore, l₁, hstep⟩ := hrun.before
    rw [hact] at hstep
    apply (invariant_of_run hbefore).resets hstep
  · rintro earlier ⟨l₀, act⟩ later rfl hlegacy
    have hbefore := invariant_of_run hrun.before.1
    obtain ⟨hlater, hend⟩ := hrun.after (fun l => l.Invariant ∧ l.state = .legacy)
      (fun l' hstep => ⟨hbefore.step hstep, hbefore.legacy hstep hlegacy⟩)
      (fun y _ l' hy hstep => ⟨hy.1.step hstep, hy.1.legacy hstep hy.2⟩)
    exact ⟨fun y hy => (hlater y hy).2, hend.2⟩
  · intro t ht hreturned
    have hsound := hinv.sound t ht
    refine ⟨?_, ?_, ?_⟩
    · rw [hsound.down, hreturned]
      rfl
    · rw [hsound.gone, hreturned]
      rfl
    · intro c hc
      apply (hsound.opened c hc).finishes
  · intro t ht
    apply (hinv.sound t ht).len_eq_zero

/-- The loop of a tunnel breaks off, and clears the table, between the two halves of an `open`. -/
theorem tunnel_raced :
  ∃ hist l t, Run (Step Str.empty 22) {} hist l ∧ l.tunnels = [t]
    ∧ t.handle.channels.map Chan.left = [true] ∧ t.handle.channels.len = 0
  := by
  have hstart : Run (Step Str.empty 22) {} [] {} := .nil
  have haccept := hstart.snoc (.accept true rfl)
  have hestablish := haccept.snoc (.establish (.mux false []) rfl)
  have hspawn := hestablish.snoc (.spawn rfl)
  have hcheck := hspawn.snoc (.check rfl rfl)
  have hbreak := hcheck.snoc (.tunnel (k := 0) rfl (.breakOff rfl))
  have hclear := hbreak.snoc (.tunnel (k := 0) rfl (.clear rfl .clear))
  have hinsert := hclear.snoc (.insert rfl rfl)
  have hraise := hinsert.snoc (.tunnel (k := 0) rfl (.raise rfl (.raise rfl)))
  have hreset := hraise.snoc (.reset (k := 0) rfl rfl)
  have hdrop := hreset.snoc (.tunnel (k := 0) rfl (.drop rfl (.drop rfl)))
  have hgreet := hdrop.snoc (.tunnel (k := 0) rfl (.task (.task (i := 0) rfl (.greetGone rfl rfl) rfl)))
  have hleave := hgreet.snoc (.tunnel (k := 0) rfl (.leave (.leave (i := 0) rfl rfl rfl)))
  refine ⟨_, _, _, hleave, rfl, rfl, ?_⟩
  apply (tunnel_of_run hleave).2.2.2.2.2 _ (List.mem_singleton_self _)
  intro c hc
  have hmem := List.mem_map_of_mem (f := Chan.left) hc
  exact List.mem_singleton.mp hmem

end Listener

end VynxDesk.Mux
