import VynxDesk.Lib.Run
import VynxDesk.Connection.Login
import VynxDesk.PortForward.Channels

/-!
# The controlled side of a tunnel

`PortForwardMux` of `server/port_forward_mux.rs`, with the queue of the connection's writer.  An
act is a frame of the controller, a step of a channel's task, a write of the connection's writer,
or a part of the teardown; the controller is arbitrary, and so is the order of the acts.
-/

namespace VynxDesk.Mux

/-- `PortForwardMux`.  `out` is the queue of the connection's writer, as far as it holds frames of
the tunnel: each with the number of the task that sent it, if a task did. -/
structure PortForwardMux where
  loginTarget : String
  channels : Channels := []
  out : List (Option Nat × PortForwardChannel) := []
  teardown : Teardown := {}
  deriving DecidableEq

namespace PortForwardMux

/-- A frame is put on the queue of the writer, when there is a writer. -/
def push (i : Option Nat) (ch : PortForwardChannel) (m : PortForwardMux) : PortForwardMux :=
  if m.teardown.gone then m else { m with out := m.out ++ [(i, ch)] }

/-- `PortForwardMux::reply`. -/
def reply (ch : PortForwardChannel) (m : PortForwardMux) : PortForwardMux := m.push none ch

/-- `PortForwardMux::on_open`. -/
def onOpen (id : ChannelId) (host : Str) (port : BitVec 32) (window : Nat) (permitted : Bool)
    (m : PortForwardMux) : PortForwardMux :=
  let m := { m with channels := m.channels.retain }
  if !permitted then m.reply (.opened id false "No permission of IP tunneling" 0)
  else if maxChannels ≤ m.channels.len then
    m.reply (.opened id false "Too many port forward channels" 0)
  else if m.channels.containsKey id then m
  else
    let target := normalizePortForwardTarget { host := host, port := port, multiplex := false }
    if target.1 ≠ m.loginTarget then
      m.reply (.opened id false "Port forward target not authorized" 0)
    else { m with channels := m.channels ++ [Chan.controlled id target.1 target.2 window] }

/-- `PortForwardMux::handle`. -/
def handle (ch : PortForwardChannel) (permitted : Bool) (m : PortForwardMux) : PortForwardMux :=
  match ch with
  | .openCh id host port window => m.onOpen id host port window permitted
  | .data id data => { m with channels := m.channels.update id (Chan.onData data) }
  | .close id => { m with channels := m.channels.update id Chan.onClose }
  | .windowUpdate id add => { m with channels := m.channels.update id (Chan.onWindowUpdate add) }
  | .opened _ _ _ _ | .other => m

/-- What a task puts on its sink. -/
def emit (i : Nat) (out : Output) (m : PortForwardMux) : PortForwardMux :=
  match out with
  | .quiet => m
  | .ordered ch | .control ch => m.push (some i) ch

/-- What may happen on the controlled side: a frame is handled, `permitted` telling whether the
tunnel is; a task takes a step; the writer writes a frame; `close_all` clears the table, and raises
the teardown; the queue of the writer is dropped. -/
inductive Act where
  | frame (ch : PortForwardChannel) (permitted : Bool)
  | task (i : Nat)
  | write
  | clear
  | raise
  | drop
  deriving DecidableEq

/-- The steps of the controlled side. -/
inductive Step : PortForwardMux → Act → PortForwardMux → Prop where
  | frame {m : PortForwardMux} (ch : PortForwardChannel) (permitted : Bool) :
      Step m (.frame ch permitted) (m.handle ch permitted)
  | task {m : PortForwardMux} {i : Nat} {c c' : Chan} {out : Output}
      (hc : m.channels[i]? = some c) (hstep : Chan.Step m.teardown.gone m.teardown.down c out c') :
      Step m (.task i) ({ m with channels := m.channels.set i c' }.emit i out)
  | write {m : PortForwardMux} {x : Option Nat × PortForwardChannel}
      {rest : List (Option Nat × PortForwardChannel)} (hout : m.out = x :: rest) :
      Step m .write { m with out := rest }
  | clear {m : PortForwardMux} :
      Step m .clear
        { m with channels := m.channels.clear, teardown := { m.teardown with cleared := true } }
  | raise {m : PortForwardMux} (hcleared : m.teardown.cleared = true) :
      Step m .raise { m with teardown := { m.teardown with down := true } }
  | drop {m : PortForwardMux} :
      Step m .drop { m with out := [], teardown := { m.teardown with gone := true } }

/-- `PortForwardMux::new`. -/
def new (loginTarget : String) : PortForwardMux := { loginTarget := loginTarget }

variable {m m' : PortForwardMux}

@[simp]
theorem push_channels (i : Option Nat) (ch : PortForwardChannel) :
  (m.push i ch).channels = m.channels
  := by
  rw [push]
  split_ifs <;> rfl

@[simp]
theorem push_teardown (i : Option Nat) (ch : PortForwardChannel) :
  (m.push i ch).teardown = m.teardown
  := by
  rw [push]
  split_ifs <;> rfl

@[simp]
theorem emit_channels (i : Nat) (out : Output) :
  (m.emit i out).channels = m.channels
  := by
  cases out <;> simp [emit]

@[simp]
theorem emit_teardown (i : Nat) (out : Output) :
  (m.emit i out).teardown = m.teardown
  := by
  cases out <;> simp [emit]

/-- The checks an `open` passes, but for the room in the table. -/
def accepts (id : ChannelId) (host : Str) (port : BitVec 32) (permitted : Bool)
    (m : PortForwardMux) : Bool :=
  permitted && !m.channels.retain.containsKey id
    && (normalizePortForwardTarget { host := host, port := port, multiplex := false }).1
        = m.loginTarget

/-- What an `open` may do: it frees the entries no task receives for, and it may start a channel,
replying nothing, when the table has room. -/
theorem onOpen_cases (id : ChannelId) (host : Str) (port : BitVec 32) (window : Nat)
    (permitted : Bool) (m : PortForwardMux) :
  (∃ out, m.onOpen id host port window permitted
      = { m with channels := m.channels.retain, out := m.out ++ out }
      ∧ ∀ x ∈ out, x.1 = none ∧ ∃ reason, x.2 = .opened id false reason 0)
    ∨ (∃ addr isRdp, m.onOpen id host port window permitted
          = { m with channels := m.channels.retain ++ [Chan.controlled id addr isRdp window] }
        ∧ m.channels.retain.len < maxChannels
        ∧ m.accepts id host port permitted = true)
  := by
  have hreply : ∀ reason, ∃ out,
      ({ m with channels := m.channels.retain } : PortForwardMux).reply (.opened id false reason 0)
        = { m with channels := m.channels.retain, out := m.out ++ out }
      ∧ ∀ x ∈ out, x.1 = none ∧ ∃ reason, x.2 = .opened id false reason 0 := by
    intro reason
    rw [reply, push]
    split_ifs with hgone
    · use []
      simp
    · use [(none, .opened id false reason 0)]
      simp
  rw [onOpen]
  dsimp only
  split_ifs with hpermitted hlen hkey htarget
  · left
    apply hreply
  · left
    apply hreply
  · left
    use []
    simp
  · left
    apply hreply
  · right
    refine ⟨_, _, rfl, ?_, ?_⟩
    · omega
    · rw [accepts]
      simp_all

/-- Every step of the controlled side moves each channel, and it may start one. -/
theorem Step.advance {act : Act} (hstep : Step m act m') :
  Advance .controlled m'.teardown m.channels m'.channels
  := by
  cases hstep with
  | frame ch permitted =>
      cases ch with
      | openCh id host port window =>
          obtain ⟨out, heq, -⟩ | ⟨addr, isRdp, heq, -, -⟩ :=
            onOpen_cases id host port window permitted m
          · unfold handle
            dsimp only
            rw [heq]
            apply Advance.retain
          · unfold handle
            dsimp only
            rw [heq]
            apply Advance.append Advance.retain
            · apply List.length_map
            · apply Chan.Start.controlled
      | data id data => exact Advance.update fun c hlisted => .data data hlisted
      | close id => exact Advance.update fun c hlisted => .close hlisted
      | windowUpdate id add => exact Advance.update fun c hlisted => .windowUpdate add hlisted
      | opened id success message window => exact Advance.refl
      | other => exact Advance.refl
  | task hc hstep =>
      rw [emit_channels, emit_teardown]
      apply Advance.set hc
      apply Chan.Move.step hstep
  | write hout => exact Advance.refl
  | clear => exact Advance.clear rfl
  | raise hcleared => exact Advance.refl
  | drop => exact Advance.refl

/-- A teardown only goes on. -/
theorem Step.teardown_mono {act : Act} (hstep : Step m act m') :
  (m.teardown.cleared = true → m'.teardown.cleared = true)
    ∧ (m.teardown.gone = true → m'.teardown.gone = true)
  := by
  cases hstep with
  | frame ch permitted =>
      cases ch with
      | openCh id host port window =>
          obtain ⟨out, heq, -⟩ | ⟨addr, isRdp, heq, -, -⟩ :=
            onOpen_cases id host port window permitted m
          · unfold handle
            dsimp only
            rw [heq]
            exact ⟨fun hc => hc, fun hg => hg⟩
          · unfold handle
            dsimp only
            rw [heq]
            exact ⟨fun hc => hc, fun hg => hg⟩
      | _ => exact ⟨id, id⟩
  | task hc hstep =>
      rw [emit_teardown]
      exact ⟨id, id⟩
  | write hout => exact ⟨id, id⟩
  | clear => exact ⟨fun _ => rfl, id⟩
  | raise hcleared => exact ⟨id, id⟩
  | drop => exact ⟨id, fun _ => rfl⟩

/-! ### A channel that is opened -/

/-- The target of a login. -/
def sampleTarget : String :=
  (normalizePortForwardTarget { host := Str.empty, port := 80, multiplex := false }).1

/-- The channel that an `open` of the sample target starts. -/
def sampleChan : Chan :=
  let target := normalizePortForwardTarget { host := Str.empty, port := 80, multiplex := false }
  Chan.controlled 1 target.1 target.2 channelWindow

theorem step_sampleChan :
  Step (new sampleTarget) (.frame (.openCh 1 Str.empty 80 channelWindow) true)
    { new sampleTarget with channels := [sampleChan] }
  := by
  have hopen : (new sampleTarget).handle (.openCh 1 Str.empty 80 channelWindow) true
      = { new sampleTarget with channels := [sampleChan] } := by
    rw [handle, onOpen]
    rfl
  rw [← hopen]
  exact .frame _ _

end PortForwardMux

end VynxDesk.Mux
