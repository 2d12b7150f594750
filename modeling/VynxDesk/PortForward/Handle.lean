import VynxDesk.Lib.Run
import VynxDesk.PortForward.Channels

/-!
# The controller's side of a tunnel

`TunnelHandle` of `port_forward_mux.rs`, with the two queues of its sink.  An act is a channel that
is opened, a frame of the controlled side, a step of a channel's task, a frame that the tunnel loop
takes from one of the queues, or a part of the teardown; the peer is arbitrary, and so is the order
of the acts.
-/

namespace VynxDesk.Mux

/-- `TunnelHandle`.  `data` and `control` are the queues of its sink. -/
structure TunnelHandle where
  nextId : ChannelId := 1
  channels : Channels := []
  data : List PortForwardChannel := []
  control : List PortForwardChannel := []
  teardown : Teardown := {}
  deriving DecidableEq

namespace TunnelHandle

/-- The number of identifiers `open` skips: those of channels still up. -/
def skipped (h : TunnelHandle) : Option Nat :=
  (List.range maxChannels).find? fun k => !h.channels.containsKey (h.nextId + BitVec.ofNat 32 k)

/-- `TunnelHandle::open`, once it has seen the sink open: it inserts an entry, and spawns the
channel's task. -/
def insert (host : Str) (port : BitVec 32) (prebuf : Bytes) (h : TunnelHandle) : TunnelHandle :=
  if maxChannels ≤ h.channels.len then h
  else
    match h.skipped with
    | none => h
    | some k =>
        let id := h.nextId + BitVec.ofNat 32 k
        { h with
          nextId := id + 1
          channels := h.channels ++ [Chan.controller id host port prebuf] }

/-- `TunnelHandle::on_frame`. -/
def onFrame (ch : PortForwardChannel) (h : TunnelHandle) : TunnelHandle :=
  match ch with
  | .opened id true _ window => { h with channels := h.channels.update id (Chan.onOpened window) }
  | .opened id false _ _ => { h with channels := h.channels.update id Chan.onClose }
  | .data id data => { h with channels := h.channels.update id (Chan.onData data) }
  | .close id => { h with channels := h.channels.update id Chan.onClose }
  | .windowUpdate id add => { h with channels := h.channels.update id (Chan.onWindowUpdate add) }
  | .openCh _ _ _ _ | .other => h

/-- What a task puts on its sink. -/
def emit (out : Output) (h : TunnelHandle) : TunnelHandle :=
  match out with
  | .quiet => h
  | .ordered ch => { h with data := h.data ++ [ch] }
  | .control ch => { h with control := h.control ++ [ch] }

/-- The sink takes what a task puts on it: its ordered queue is bounded. -/
def hasRoom (out : Output) (h : TunnelHandle) : Bool :=
  match out with
  | .ordered _ => h.data.length < dataQueueFrames
  | _ => true

/-- What may happen on the controller: a channel is opened; a frame is handled; a task takes a step,
or it leaves the table at its end; the tunnel loop takes a frame from a queue; `close_all` clears
the table, and raises the teardown; the queues are dropped. -/
inductive Act where
  | insert (host : Str) (port : BitVec 32) (prebuf : Bytes)
  | frame (ch : PortForwardChannel)
  | task (i : Nat)
  | leave (i : Nat)
  | takeData
  | takeControl
  | clear
  | raise
  | drop
  deriving DecidableEq

/-- The steps of the controller. -/
inductive Step : TunnelHandle → Act → TunnelHandle → Prop where
  | insert {h : TunnelHandle} (host : Str) (port : BitVec 32) (prebuf : Bytes) :
      Step h (.insert host port prebuf) (h.insert host port prebuf)
  | frame {h : TunnelHandle} (ch : PortForwardChannel) :
      Step h (.frame ch) (h.onFrame ch)
  | task {h : TunnelHandle} {i : Nat} {c c' : Chan} {out : Output}
      (hc : h.channels[i]? = some c) (hstep : Chan.Step h.teardown.gone h.teardown.down c out c')
      (hroom : h.hasRoom out = true) :
      Step h (.task i) ({ h with channels := h.channels.set i c' }.emit out)
  | leave {h : TunnelHandle} {i : Nat} {c : Chan} (hc : h.channels[i]? = some c)
      (hended : c.stage = .ended) (hleft : c.left = false) :
      Step h (.leave i) { h with channels := h.channels.leave i c.id }
  | takeData {h : TunnelHandle} {ch : PortForwardChannel} {rest : List PortForwardChannel}
      (hdata : h.data = ch :: rest) :
      Step h .takeData { h with data := rest }
  | takeControl {h : TunnelHandle} {ch : PortForwardChannel} {rest : List PortForwardChannel}
      (hcontrol : h.control = ch :: rest) :
      Step h .takeControl { h with control := rest }
  | clear {h : TunnelHandle} :
      Step h .clear
        { h with channels := h.channels.clear, teardown := { h.teardown with cleared := true } }
  | raise {h : TunnelHandle} (hcleared : h.teardown.cleared = true) :
      Step h .raise { h with teardown := { h.teardown with down := true } }
  | drop {h : TunnelHandle} (hdown : h.teardown.down = true) :
      Step h .drop { h with data := [], control := [], teardown := { h.teardown with gone := true } }

/-- The handle `Tunnel::set_muxed` makes. -/
def new : TunnelHandle := {}

variable {h h' : TunnelHandle}

@[simp]
theorem emit_channels (out : Output) :
  (h.emit out).channels = h.channels
  := by
  cases out <;> rfl

@[simp]
theorem emit_teardown (out : Output) :
  (h.emit out).teardown = h.teardown
  := by
  cases out <;> rfl

/-- What an `open` may do: nothing, or it starts a channel under an identifier of its own. -/
theorem insert_cases (host : Str) (port : BitVec 32) (prebuf : Bytes) (h : TunnelHandle) :
  h.insert host port prebuf = h
    ∨ ∃ id, h.insert host port prebuf
        = { h with nextId := id + 1, channels := h.channels ++ [Chan.controller id host port prebuf] }
      ∧ h.channels.len < maxChannels ∧ h.channels.containsKey id = false
  := by
  rw [insert]
  split_ifs with hlen
  · left
    rfl
  · cases hk : h.skipped with
    | none =>
        left
        rfl
    | some k =>
        right
        refine ⟨_, rfl, by omega, ?_⟩
        have hfree := List.find?_some hk
        simpa using hfree

/-- Every step of the controller moves each channel, and it may start one. -/
theorem Step.advance {act : Act} (hstep : Step h act h') :
  Advance .controller h'.teardown h.channels h'.channels
  := by
  cases hstep with
  | insert host port prebuf =>
      obtain heq | ⟨id, heq, -, -⟩ := insert_cases host port prebuf h
      · rw [heq]
        apply Advance.refl
      · rw [heq]
        apply Advance.append Advance.refl rfl
        apply Chan.Start.controller
  | frame ch =>
      cases ch with
      | openCh id host port window => exact Advance.refl
      | opened id success message window =>
          cases success with
          | true => exact Advance.update fun c hlisted => .opened window hlisted rfl
          | false => exact Advance.update fun c hlisted => .close hlisted
      | data id data => exact Advance.update fun c hlisted => .data data hlisted
      | close id => exact Advance.update fun c hlisted => .close hlisted
      | windowUpdate id add => exact Advance.update fun c hlisted => .windowUpdate add hlisted
      | other => exact Advance.refl
  | task hc hstep hroom =>
      rw [emit_channels, emit_teardown]
      apply Advance.set hc
      apply Chan.Move.step hstep
  | leave hc hended hleft => exact Advance.leave rfl hc hended
  | takeData hdata => exact Advance.refl
  | takeControl hcontrol => exact Advance.refl
  | clear => exact Advance.clear rfl
  | raise hcleared => exact Advance.refl
  | drop hdown => exact Advance.refl

/-- A teardown only goes on. -/
theorem Step.teardown_mono {act : Act} (hstep : Step h act h') :
  (h.teardown.cleared = true → h'.teardown.cleared = true)
    ∧ (h.teardown.gone = true → h'.teardown.gone = true)
  := by
  cases hstep with
  | insert host port prebuf =>
      obtain heq | ⟨id, heq, -, -⟩ := insert_cases host port prebuf h
      · rw [heq]
        exact ⟨fun hc => hc, fun hg => hg⟩
      · rw [heq]
        exact ⟨fun hc => hc, fun hg => hg⟩
  | frame ch =>
      cases ch with
      | opened id success message window => cases success <;> exact ⟨fun hc => hc, fun hg => hg⟩
      | _ => exact ⟨id, id⟩
  | task hc hstep hroom =>
      rw [emit_teardown]
      exact ⟨id, id⟩
  | leave hc hended hleft => exact ⟨id, id⟩
  | takeData hdata => exact ⟨id, id⟩
  | takeControl hcontrol => exact ⟨id, id⟩
  | clear => exact ⟨fun _ => rfl, id⟩
  | raise hcleared => exact ⟨id, id⟩
  | drop hdown => exact ⟨id, fun _ => rfl⟩

end TunnelHandle

end VynxDesk.Mux
