import Mathlib.Data.List.Nodup
import VynxDesk.PortForward.Link

/-!
# Both ends of a tunnel

`Ends` is a controller, a controlled side and the two wires between them.  The controller's loop
puts the frames of its two queues on the wire, in an order of its own; the writer of the controlled
side puts the frames of its queue on the other one; and each end handles what arrives, in order.
`Channels.withId` is the channel with an identifier, and `Channels.hand` is what an end does with a
frame of one of its channels.
-/

namespace VynxDesk.Mux

/-- The channel of a frame. -/
def idOf : PortForwardChannel → Option ChannelId
  | .openCh id _ _ _ => some id
  | .opened id _ _ _ => some id
  | .data id _ => some id
  | .close id => some id
  | .windowUpdate id _ => some id
  | .other => none

/-- The frame is one of the channel. -/
def isFor (id : ChannelId) (m : PortForwardChannel) : Bool := idOf m = some id

/-- The frames of a channel are its own. -/
theorem filter_isFor {id : ChannelId} {l : List PortForwardChannel}
    (hl : ∀ m ∈ l, idOf m = some id) :
  l.filter (isFor id) = l
  := by
  apply List.filter_eq_self.mpr
  intro m hm
  rw [isFor, hl m hm]
  simp

/-- The frames of a channel are no other's. -/
theorem filter_isFor_of_ne {id id' : ChannelId} {l : List PortForwardChannel}
    (hl : ∀ m ∈ l, idOf m = some id) (hne : id' ≠ id) :
  l.filter (isFor id') = []
  := by
  apply List.filter_eq_nil_iff.mpr
  intro m hm
  rw [isFor, hl m hm]
  simp [Ne.symm hne]

variable {ch : PortForwardChannel} {side : Side}

/-- A task puts frames of its own channel on its sink. -/
theorem Chan.Step.idOf_frames {gone down : Bool} {c c' : Chan} {out : Output}
    (hcourse : c.Course side) (hstep : Step gone down c out c') :
  ∀ m ∈ out.frames, idOf m = some c.id
  := by
  cases hstep with
  | send hs ht hsink =>
      intro m hm
      rw [List.mem_singleton.mp hm]
      rfl
  | update hs ht hsink =>
      intro m hm
      rw [List.mem_singleton.mp hm]
      rfl
  | part hs hsink =>
      intro m hm
      rw [List.mem_singleton.mp hm]
      rw [Course] at hcourse
      rw [hs] at hcourse
      obtain ⟨rfl, -⟩ | ⟨-, -, rfl, -⟩ | ⟨-, -, -, reason, rfl⟩ := hcourse <;> rfl
  | greet hs hsink =>
      intro m hm
      rw [List.mem_singleton.mp hm]
      rw [Course] at hcourse
      rw [hs] at hcourse
      cases side with
      | controller =>
          obtain ⟨host, port, rfl⟩ := hcourse.1
          rfl
      | controlled =>
          cases hcourse.1
          rfl
  | _ =>
      intro m hm
      cases hm

/-- What a task of the controller puts on the queues of its sink. -/
theorem TunnelHandle.emit_eq (out : Output) (h : TunnelHandle) :
  h.emit out = { h with data := h.data ++ out.toData, control := h.control ++ out.toControl }
  := by
  cases out <;> simp [emit, Output.toData, Output.toControl]

/-- What a task of the controlled side puts on the queue of the writer, as long as there is one. -/
theorem PortForwardMux.emit_eq (i : Nat) (out : Output) (m : PortForwardMux)
    (hout : m.teardown.gone = true → out = .quiet) :
  m.emit i out = { m with out := m.out ++ out.frames.map fun ch => (some i, ch) }
  := by
  have hpush : ∀ ch, out ≠ .quiet → m.push (some i) ch = { m with out := m.out ++ [(some i, ch)] } := by
    intro ch hne
    rw [push, if_neg fun hgone => hne (hout hgone)]
  cases out with
  | quiet => simp [emit, Output.frames]
  | ordered ch => exact hpush ch (by rintro ⟨⟩)
  | control ch => exact hpush ch (by rintro ⟨⟩)

/-- What the controller does on its own: it is not a frame that arrives, or leaves for the wire. -/
def TunnelHandle.Act.isOwn : TunnelHandle.Act → Bool
  | .frame _ | .takeData | .takeControl => false
  | _ => true

/-- What the controlled side does on its own. -/
def PortForwardMux.Act.isOwn : PortForwardMux.Act → Bool
  | .frame _ _ | .write => false
  | _ => true

/-- The two ends of a tunnel, and the frames on the wires: `up` to the controlled side, and `down`
to the controller. -/
structure Ends where
  controller : TunnelHandle := .new
  controlled : PortForwardMux
  up : List PortForwardChannel := []
  down : List PortForwardChannel := []

namespace Ends

/-- What may happen in a tunnel: an end does something on its own; a frame leaves a queue for the
wire; or it arrives, `permitted` telling whether the tunnel is. -/
inductive Act where
  | controller (act : TunnelHandle.Act)
  | controlled (act : PortForwardMux.Act)
  | takeData
  | takeControl
  | write
  | arriveUp (permitted : Bool)
  | arriveDown
  deriving DecidableEq

/-- The steps of a tunnel. -/
inductive Step : Ends → Act → Ends → Prop where
  | controller {e : Ends} {act : TunnelHandle.Act} {h : TunnelHandle} (hown : act.isOwn = true)
      (hstep : TunnelHandle.Step e.controller act h) :
      Step e (.controller act) { e with controller := h }
  | controlled {e : Ends} {act : PortForwardMux.Act} {m : PortForwardMux} (hown : act.isOwn = true)
      (hstep : PortForwardMux.Step e.controlled act m) :
      Step e (.controlled act) { e with controlled := m }
  | takeData {e : Ends} {ch : PortForwardChannel} {rest : List PortForwardChannel}
      (hdata : e.controller.data = ch :: rest) :
      Step e .takeData
        { e with controller := { e.controller with data := rest }, up := e.up ++ [ch] }
  | takeControl {e : Ends} {ch : PortForwardChannel} {rest : List PortForwardChannel}
      (hcontrol : e.controller.control = ch :: rest) :
      Step e .takeControl
        { e with controller := { e.controller with control := rest }, up := e.up ++ [ch] }
  | write {e : Ends} {x : Option Nat × PortForwardChannel}
      {rest : List (Option Nat × PortForwardChannel)} (hout : e.controlled.out = x :: rest) :
      Step e .write
        { e with controlled := { e.controlled with out := rest }, down := e.down ++ [x.2] }
  | arriveUp {e : Ends} {ch : PortForwardChannel} {rest : List PortForwardChannel}
      (hup : e.up = ch :: rest) (permitted : Bool) :
      Step e (.arriveUp permitted)
        { e with controlled := e.controlled.handle ch permitted, up := rest }
  | arriveDown {e : Ends} {ch : PortForwardChannel} {rest : List PortForwardChannel}
      (hdown : e.down = ch :: rest) :
      Step e .arriveDown { e with controller := e.controller.onFrame ch, down := rest }

/-- The tunnel of a login, with multiplexing agreed. -/
def start (loginTarget : String) : Ends where
  controlled := .new loginTarget

variable {e e' : Ends} {act : Act}

/-- Both ends take a step of theirs, or stay as they are. -/
theorem Step.ends (hstep : Step e act e') :
  ((∃ act, TunnelHandle.Step e.controller act e'.controller) ∨ e'.controller = e.controller)
    ∧ ((∃ act, PortForwardMux.Step e.controlled act e'.controlled)
      ∨ e'.controlled = e.controlled)
  := by
  cases hstep with
  | controller hown hstep => exact ⟨Or.inl ⟨_, hstep⟩, Or.inr rfl⟩
  | controlled hown hstep => exact ⟨Or.inr rfl, Or.inl ⟨_, hstep⟩⟩
  | takeData hdata => exact ⟨Or.inl ⟨_, .takeData hdata⟩, Or.inr rfl⟩
  | takeControl hcontrol => exact ⟨Or.inl ⟨_, .takeControl hcontrol⟩, Or.inr rfl⟩
  | write hout => exact ⟨Or.inr rfl, Or.inl ⟨_, .write hout⟩⟩
  | arriveUp hup permitted => exact ⟨Or.inr rfl, Or.inl ⟨_, .frame _ permitted⟩⟩
  | arriveDown hdown => exact ⟨Or.inl ⟨_, .frame _⟩, Or.inr rfl⟩

end Ends

/-! ### The channel with an identifier -/

namespace Channels

/-- The first channel with the identifier. -/
def withId (id : ChannelId) (cs : Channels) : Option Chan := cs.find? fun c => c.id == id

variable {id : ChannelId} {cs : Channels} {c : Chan}

theorem withId_eq_some (h : cs.withId id = some c) :
  c ∈ cs ∧ c.id = id
  := ⟨List.mem_of_find?_eq_some h, by simpa using List.find?_some h⟩

/-- The channel with its identifier is the only one. -/
theorem withId_of_mem (hids : (cs.map Chan.id).Nodup) (hc : c ∈ cs) :
  cs.withId c.id = some c
  := by
  cases h : cs.withId c.id with
  | none =>
      have hnone := List.find?_eq_none.mp h c hc
      simp at hnone
  | some d =>
      obtain ⟨hd, hid⟩ := withId_eq_some h
      rw [List.inj_on_of_nodup_map hids hd hc hid]

theorem withId_eq_none :
  cs.withId id = none ↔ id ∉ cs.map Chan.id
  := by
  simp [withId, List.find?_eq_none]

/-- What is done to every channel is done to the one with the identifier. -/
theorem withId_map {f : Chan → Chan} (hf : ∀ c, (f c).id = c.id) :
  withId id (cs.map f) = (cs.withId id).map f
  := by
  rw [withId, List.find?_map]
  congr 2
  funext c
  simp [hf]

theorem withId_append (d : Chan) :
  withId id (cs ++ [d]) = (cs.withId id).or (if d.id = id then some d else none)
  := by
  rw [withId, List.find?_append]
  congr 1
  by_cases hd : d.id = id
  · simp [hd]
  · simp [hd]

/-- Two places with one identifier are the same. -/
theorem index_inj {i j : Nat} {d : Chan} (hids : (cs.map Chan.id).Nodup) (hc : cs[i]? = some c)
    (hd : cs[j]? = some d) (hid : d.id = c.id) :
  i = j
  := by
  have hlt : i < (cs.map Chan.id).length := by
    rw [List.length_map]
    exact (List.getElem?_eq_some_iff.mp hc).1
  apply (List.getElem?_inj hlt hids).mp
  rw [List.getElem?_map, List.getElem?_map, hc, hd, Option.map_some, Option.map_some, hid]

/-- What is done to the channel at a place is done to the one with its identifier. -/
theorem set_eq_map {i : Nat} {c' : Chan} (hids : (cs.map Chan.id).Nodup) (hc : cs[i]? = some c) :
  cs.set i c' = cs.map fun d => if d.id = c.id then c' else d
  := by
  apply List.ext_getElem?
  intro j
  rw [List.getElem?_set, List.getElem?_map]
  have hlt := (List.getElem?_eq_some_iff.mp hc).1
  cases hd : cs[j]? with
  | none =>
      have hij : i ≠ j := by
        rintro rfl
        cases hc.symm.trans hd
      rw [if_neg hij]
      rfl
  | some d =>
      rw [Option.map_some]
      by_cases hid : d.id = c.id
      · obtain rfl := index_inj hids hc hd hid
        rw [if_pos rfl, if_pos hlt, if_pos hid]
      · have hij : i ≠ j := by
          rintro rfl
          cases hc.symm.trans hd
          exact hid rfl
        rw [if_neg hij, if_neg hid]

/-- A task that leaves the table removes its own entry. -/
theorem leave_eq_map {i : Nat} (hids : (cs.map Chan.id).Nodup) (hc : cs[i]? = some c) :
  Channels.leave i c.id cs = cs.map fun d => if d.id = c.id then d.leave else d
  := by
  apply List.ext_getElem?
  intro j
  rw [Channels.leave, List.getElem?_mapIdx, List.getElem?_map]
  cases hd : cs[j]? with
  | none => rfl
  | some d =>
      rw [Option.map_some, Option.map_some]
      by_cases hid : d.id = c.id
      · obtain rfl := index_inj hids hc hd hid
        rw [if_pos rfl, if_pos hid]
      · have hij : j ≠ i := by
          rintro rfl
          cases hc.symm.trans hd
          exact hid rfl
        have hentry : ¬ d.isEntry c.id = true := by
          rw [Chan.isEntry]
          simp [hid]
        rw [if_neg hij, if_neg hid, if_neg hentry]

end Channels

/-! ### What an end does with a frame -/

/-- A frame is handed to its channel. -/
def Channels.hand (side : Side) (ch : PortForwardChannel) (cs : Channels) : Channels :=
  cs.map fun c => if isFor c.id ch then c.onFrame side ch else c

/-- What is done to the entry under an identifier, a frame with this identifier does. -/
theorem Channels.update_eq_hand {id : ChannelId} {f : Chan → Chan} {cs : Channels}
    (hid : idOf ch = some id) (hf : ∀ c, c.onFrame side ch = if c.listed then f c else c) :
  Channels.update id f cs = Channels.hand side ch cs
  := by
  apply List.map_congr_left
  intro c _
  rw [Chan.isEntry, isFor, hid, hf]
  by_cases hc : c.id = id
  · simp [hc]
  · simp [hc, Ne.symm hc]

theorem Channels.hand_id (c : Chan) :
  (if isFor c.id ch then c.onFrame side ch else c).id = c.id
  := by
  split_ifs
  · exact (Chan.sameTask_onFrame side ch c).id
  · rfl

/-- The channel of the frame takes it. -/
theorem Channels.withId_hand {id : ChannelId} {cs : Channels} (hfor : isFor id ch = true) :
  withId id (hand side ch cs) = (withId id cs).map (Chan.onFrame side ch)
  := by
  rw [hand, withId_map Channels.hand_id]
  cases h : withId id cs with
  | none => rfl
  | some b =>
      rw [Option.map_some, Option.map_some, (withId_eq_some h).2, if_pos hfor]

/-- The other channels stay as they are. -/
theorem Channels.withId_hand_of_not {id : ChannelId} {cs : Channels} (hfor : isFor id ch = false) :
  withId id (hand side ch cs) = withId id cs
  := by
  rw [hand, withId_map Channels.hand_id]
  cases h : withId id cs with
  | none => rfl
  | some b =>
      rw [Option.map_some, (withId_eq_some h).2, hfor]
      rfl

theorem Channels.map_id_hand {cs : Channels} :
  (hand side ch cs).map Chan.id = cs.map Chan.id
  := by
  rw [hand, List.map_map]
  apply List.map_congr_left
  intro c _
  exact Channels.hand_id c

/-- What is kept by whatever an end does to a channel is kept when a frame is handed to it. -/
theorem Channels.forall_mem_hand {cs : Channels} (h : ∀ c ∈ cs, Chan.Kept side c) :
  ∀ c ∈ hand side ch cs, Chan.Kept side c
  := by
  rw [hand, List.forall_mem_map]
  intro c hc
  split_ifs
  · exact (h c hc).move (Chan.move_onFrame {} side ch c)
  · exact h c hc

/-- A frame that an end ignores is handed to a channel that ignores it. -/
theorem Channels.hand_of_ignored {cs : Channels} (hf : ∀ c, Chan.onFrame side ch c = c) :
  Channels.hand side ch cs = cs
  := by
  rw [Channels.hand]
  simp [hf]

/-- The controller hands a frame to its channel. -/
theorem TunnelHandle.onFrame_eq (ch : PortForwardChannel) (h : TunnelHandle) :
  h.onFrame ch = { h with channels := h.channels.hand .controller ch }
  := by
  have hignored : (∀ c, Chan.onFrame .controller ch c = c) →
      h = { h with channels := h.channels.hand .controller ch } := by
    intro hf
    rw [Channels.hand_of_ignored hf]
  have hhanded : ∀ {id : ChannelId} {f : Chan → Chan}, idOf ch = some id →
      (∀ c, Chan.onFrame .controller ch c = if c.listed then f c else c) →
      ({ h with channels := h.channels.update id f } : TunnelHandle)
        = { h with channels := h.channels.hand .controller ch } := by
    intro id f hid hf
    rw [Channels.update_eq_hand hid hf]
  cases ch with
  | opened id success message window =>
      cases success with
      | true => exact hhanded rfl fun _ => rfl
      | false => exact hhanded rfl fun _ => rfl
  | data id data => exact hhanded rfl fun _ => rfl
  | close id => exact hhanded rfl fun _ => rfl
  | windowUpdate id add => exact hhanded rfl fun _ => rfl
  | openCh id host port window =>
      apply hignored
      intro c
      rw [Chan.onFrame]
      exact ite_self c
  | other =>
      apply hignored
      intro c
      rw [Chan.onFrame]
      exact ite_self c

/-- The controlled side hands a frame to its channel, unless it is an `open`. -/
theorem PortForwardMux.handle_eq (ch : PortForwardChannel) (permitted : Bool) (m : PortForwardMux)
    (hch : ∀ id host port window, ch ≠ .openCh id host port window) :
  m.handle ch permitted = { m with channels := m.channels.hand .controlled ch }
  := by
  have hignored : (∀ c, Chan.onFrame .controlled ch c = c) →
      m = { m with channels := m.channels.hand .controlled ch } := by
    intro hf
    rw [Channels.hand_of_ignored hf]
  have hhanded : ∀ {id : ChannelId} {f : Chan → Chan}, idOf ch = some id →
      (∀ c, Chan.onFrame .controlled ch c = if c.listed then f c else c) →
      ({ m with channels := m.channels.update id f } : PortForwardMux)
        = { m with channels := m.channels.hand .controlled ch } := by
    intro id f hid hf
    rw [Channels.update_eq_hand hid hf]
  cases ch with
  | openCh id host port window => exact absurd rfl (hch id host port window)
  | data id data => exact hhanded rfl fun _ => rfl
  | close id => exact hhanded rfl fun _ => rfl
  | windowUpdate id add => exact hhanded rfl fun _ => rfl
  | opened id success message window =>
      apply hignored
      intro c
      rw [Chan.onFrame]
      exact ite_self c
  | other =>
      apply hignored
      intro c
      rw [Chan.onFrame]
      exact ite_self c

end VynxDesk.Mux
