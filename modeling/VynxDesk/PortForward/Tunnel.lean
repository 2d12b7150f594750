import VynxDesk.PortForward.Ends

/-!
# What holds in a tunnel

`Ends.link` is what the two ends and the wires have of one channel of the controller.  Whatever is
done in a tunnel is a step of the links of its channels, or leaves them as they are (`Follows`); so
each link is sound at any time (`Ends.Inv`, `Ends.inv_of_run`), as long as no identifier is used
twice.
-/

namespace VynxDesk.Mux

/-! ### The link of a channel -/

namespace Ends

/-- The frames of a channel on their way that the controller has put on its data queue. -/
def ordered (id : ChannelId) (e : Ends) : List PortForwardChannel :=
  e.up.filter (fun m => isFor id m && isOrdered m) ++ e.controller.data.filter (isFor id)

/-- The frames of a channel on their way that the controller has put on its control queue. -/
def control (id : ChannelId) (e : Ends) : List PortForwardChannel :=
  e.up.filter (fun m => isFor id m && !isOrdered m) ++ e.controller.control.filter (isFor id)

/-- The frames of a channel on their way to the controller. -/
def back (id : ChannelId) (e : Ends) : List PortForwardChannel :=
  e.down.filter (isFor id) ++ (e.controlled.out.map Prod.snd).filter (isFor id)

/-- What the two ends have of a channel of the controller. -/
def link (a : Chan) (e : Ends) : Link where
  controller := a
  controlled := e.controlled.channels.withId a.id
  ordered := e.ordered a.id
  control := e.control a.id
  back := e.back a.id
  gone := e.controller.teardown.gone
  goneBack := e.controlled.teardown.gone

theorem link_of_id {a a' : Chan} (e : Ends) (hid : a'.id = a.id) :
  e.link a' = { e.link a with controller := a' }
  := by
  unfold link
  rw [hid]

/-- The identifiers of the controller's channels. -/
def ids (e : Ends) : List ChannelId := e.controller.channels.map Chan.id

/-- The frame is one of a channel of the controller. -/
def Knows (e : Ends) (m : PortForwardChannel) : Prop := ∃ id ∈ e.ids, idOf m = some id

/-- What holds in a tunnel at any time, when the identifiers of the channels are distinct. -/
structure Inv (e : Ends) : Prop where
  kept : ∀ a ∈ e.controller.channels, a.Kept .controller
  keptBack : ∀ b ∈ e.controlled.channels, b.Kept .controlled
  once : (e.controlled.channels.map Chan.id).Nodup
  known : ∀ b ∈ e.controlled.channels, b.id ∈ e.ids
  data : ∀ m ∈ e.controller.data, isOrdered m = true ∧ e.Knows m
  control : ∀ m ∈ e.controller.control, isOrdered m = false ∧ e.Knows m
  out : ∀ m ∈ e.controlled.out.map Prod.snd, e.Knows m
  up : ∀ m ∈ e.up, e.Knows m
  down : ∀ m ∈ e.down, e.Knows m
  sound : ∀ a ∈ e.controller.channels, (e.link a).Sound

/-- One channel takes a step, or none. -/
def Follows (l l' : Link) : Prop := l' = l ∨ Link.Step l l'

namespace Inv

variable {e e' : Ends} {rest : List PortForwardChannel} {id : ChannelId} {port : BitVec 32}
  {t : Teardown} {ch : PortForwardChannel} {window : Nat} {host : Str} {f : Chan → Chan}

/-- What is done to the channels of the controller is a step of their links. -/
theorem sound_of (h : e.Inv) (hchannels : e'.controller.channels = e.controller.channels.map f)
    (hfollows : ∀ a ∈ e.controller.channels, Follows (e.link a) (e'.link (f a))) :
  ∀ a ∈ e'.controller.channels, (e'.link a).Sound
  := by
  rw [hchannels, List.forall_mem_map]
  intro a ha
  obtain heq | hstep := hfollows a ha
  · rw [heq]
    exact h.sound a ha
  · apply (h.sound a ha).step (h.kept a ha) _ hstep
    intro b hb
    exact h.keptBack b (Channels.withId_eq_some hb).1

/-- The controller stays as it is. -/
theorem sound_of_same (h : e.Inv) (hchannels : e'.controller.channels = e.controller.channels)
    (hfollows : ∀ a ∈ e.controller.channels, Follows (e.link a) (e'.link a)) :
  ∀ a ∈ e'.controller.channels, (e'.link a).Sound
  := by
  apply h.sound_of (f := fun a => a) _ hfollows
  rw [hchannels, List.map_id']

/-! ### A frame leaves for the wire -/

/-- The controller's loop takes a frame of the data queue. -/
theorem takeData (h : e.Inv) (hdata : e.controller.data = ch :: rest) :
  Inv { e with controller := { e.controller with data := rest }, up := e.up ++ [ch] }
  := by
  have hqueue := h.data
  rw [hdata, List.forall_mem_cons] at hqueue
  obtain ⟨⟨hordered, hch⟩, hrest⟩ := hqueue
  refine ⟨h.kept, h.keptBack, h.once, h.known, hrest, h.control, h.out, ?_, h.down, ?_⟩
  · rw [List.forall_mem_append, List.forall_mem_singleton]
    exact ⟨h.up, hch⟩
  · refine h.sound_of_same rfl fun a _ => Or.inl ?_
    rw [link, link, ordered, ordered, Ends.control, Ends.control, hdata]
    by_cases hfor : isFor a.id ch = true
    · simp [hordered, hfor, back]
    · simp [hordered, hfor, back]

/-- The controller's loop takes a frame of the control queue. -/
theorem takeControl (h : e.Inv) (hcontrol : e.controller.control = ch :: rest) :
  Inv { e with controller := { e.controller with control := rest }, up := e.up ++ [ch] }
  := by
  have hqueue := h.control
  rw [hcontrol, List.forall_mem_cons] at hqueue
  obtain ⟨⟨hordered, hch⟩, hrest⟩ := hqueue
  refine ⟨h.kept, h.keptBack, h.once, h.known, h.data, hrest, h.out, ?_, h.down, ?_⟩
  · rw [List.forall_mem_append, List.forall_mem_singleton]
    exact ⟨h.up, hch⟩
  · refine h.sound_of_same rfl fun a _ => Or.inl ?_
    rw [link, link, ordered, ordered, Ends.control, Ends.control, hcontrol]
    by_cases hfor : isFor a.id ch = true
    · simp [hordered, hfor, back]
    · simp [hordered, hfor, back]

/-- The writer of the controlled side takes a frame of its queue. -/
theorem write {x : Option Nat × PortForwardChannel}
    {rest : List (Option Nat × PortForwardChannel)} (h : e.Inv)
    (hout : e.controlled.out = x :: rest) :
  Inv { e with controlled := { e.controlled with out := rest }, down := e.down ++ [x.2] }
  := by
  have hqueue := h.out
  rw [hout, List.map_cons, List.forall_mem_cons] at hqueue
  refine ⟨h.kept, h.keptBack, h.once, h.known, h.data, h.control, hqueue.2, h.up, ?_, ?_⟩
  · rw [List.forall_mem_append, List.forall_mem_singleton]
    exact ⟨h.down, hqueue.1⟩
  · refine h.sound_of_same rfl fun a _ => Or.inl ?_
    rw [link, link, back, back, hout]
    by_cases hfor : isFor a.id x.2 = true
    · simp [hfor, ordered, Ends.control]
    · simp [hfor, ordered, Ends.control]

/-! ### A frame arrives -/

/-- The controller handles a frame. -/
theorem arriveDown (h : e.Inv) (hdown : e.down = ch :: rest) :
  Inv { e with controller := e.controller.onFrame ch, down := rest }
  := by
  have hids : (e.controller.channels.hand .controller ch).map Chan.id = e.ids :=
    Channels.map_id_hand
  have hqueue := h.down
  rw [hdown, List.forall_mem_cons] at hqueue
  rw [TunnelHandle.onFrame_eq]
  have hknows : ∀ m, e.Knows m → Knows { e with
      controller := { e.controller with channels := e.controller.channels.hand .controller ch }
      down := rest } m := by
    intro m hm
    rw [Knows, ids]
    dsimp only
    rw [hids]
    exact hm
  refine ⟨Channels.forall_mem_hand h.kept, h.keptBack, h.once, ?_, ?_, ?_, ?_, ?_, ?_, ?_⟩
  · rw [ids]
    dsimp only
    rw [hids]
    exact h.known
  · exact fun m hm => ⟨(h.data m hm).1, hknows m (h.data m hm).2⟩
  · exact fun m hm => ⟨(h.control m hm).1, hknows m (h.control m hm).2⟩
  · exact fun m hm => hknows m (h.out m hm)
  · exact fun m hm => hknows m (h.up m hm)
  · exact fun m hm => hknows m (hqueue.2 m hm)
  · refine h.sound_of rfl ?_
    intro a ha
    by_cases hfor : isFor a.id ch = true
    · right
      rw [if_pos hfor]
      have hback : (e.link a).back = ch :: back a.id { e with down := rest } := by
        rw [link, back, back, hdown]
        simp [hfor]
      have hstep := Link.Step.deliverBack hback
      rw [link_of_id _ (Chan.sameTask_onFrame .controller ch a).id]
      exact hstep
    · left
      rw [if_neg hfor, link, link, back, back, hdown]
      simp [hfor, ordered, Ends.control]

/-- The controlled side handles a frame that is no `open`. -/
theorem arriveUp (h : e.Inv) (hup : e.up = ch :: rest) (permitted : Bool)
    (hch : ∀ id host port window, ch ≠ .openCh id host port window) :
  Inv { e with controlled := e.controlled.handle ch permitted, up := rest }
  := by
  have hids : (e.controlled.channels.hand .controlled ch).map Chan.id
      = e.controlled.channels.map Chan.id := Channels.map_id_hand
  have hqueue := h.up
  rw [hup, List.forall_mem_cons] at hqueue
  rw [PortForwardMux.handle_eq ch permitted e.controlled hch]
  refine ⟨h.kept, Channels.forall_mem_hand h.keptBack, ?_, ?_, h.data, h.control, h.out, hqueue.2,
    h.down, ?_⟩
  · dsimp only
    rw [hids]
    exact h.once
  · intro b hb
    obtain ⟨c, hc, hid⟩ := List.mem_map.mp (hids ▸ List.mem_map_of_mem hb)
    rw [← hid]
    exact h.known c hc
  · refine h.sound_of_same rfl ?_
    intro a ha
    by_cases hfor : isFor a.id ch = true
    · right
      have hcontrolled : Channels.withId a.id (e.controlled.channels.hand .controlled ch)
          = (e.controlled.channels.withId a.id).map (Chan.onFrame .controlled ch) :=
        Channels.withId_hand hfor
      have hlink : link a { e with
            controlled := { e.controlled with
              channels := e.controlled.channels.hand .controlled ch }
            up := rest }
          = { e.link a with
            controlled := (e.controlled.channels.withId a.id).map (Chan.onFrame .controlled ch)
            ordered := ordered a.id { e with up := rest }
            control := Ends.control a.id { e with up := rest } } := by
        unfold link
        rw [hcontrolled]
        rfl
      cases hordered : isOrdered ch with
      | true =>
          have hhead : (e.link a).ordered = ch :: ordered a.id { e with up := rest } := by
            rw [link, ordered, ordered, hup]
            simp [hfor, hordered]
          have hcontrol : Ends.control a.id { e with up := rest } = (e.link a).control := by
            rw [link, Ends.control, Ends.control, hup]
            simp [hordered]
          have hmem : ch ∈ (e.link a).ordered := by
            rw [hhead]
            apply List.mem_cons_self
          have hopens : opens ch = false := by
            obtain ⟨host, port, rfl⟩ | ⟨data, rfl⟩ | rfl :=
              (h.kept a ha).course.mem_emitted ((h.sound a ha).mem_emitted hmem)
            · exact absurd rfl (hch _ _ _ _)
            · rfl
            · rfl
          rw [hlink, hcontrol]
          cases hb : e.controlled.channels.withId a.id with
          | none =>
              have hnone : (e.link a).controlled = none := hb
              have hstep := Link.Step.lose hnone hhead hopens
              rw [hnone] at hstep
              exact hstep
          | some b => exact Link.Step.deliver hb hhead
      | false =>
          have hhead : (e.link a).control = ch :: Ends.control a.id { e with up := rest } := by
            rw [link, Ends.control, Ends.control, hup]
            simp [hfor, hordered]
          have hkept : ordered a.id { e with up := rest } = (e.link a).ordered := by
            rw [link, ordered, ordered, hup]
            simp [hordered]
          rw [hlink, hkept]
          cases hb : e.controlled.channels.withId a.id with
          | none =>
              have hnone : (e.link a).controlled = none := hb
              have hstep := Link.Step.loseControl hnone hhead
              rw [hnone] at hstep
              exact hstep
          | some b => exact Link.Step.deliverControl hb hhead
    · left
      have hnot : isFor a.id ch = false := by simpa using hfor
      rw [link, link, ordered, ordered, Ends.control, Ends.control, hup]
      simp [hnot, Channels.withId_hand_of_not hnot, back]

/-- An entry no task receives for leaves the table of the controlled side. -/
theorem withId_retain (id : ChannelId) (cs : Channels) :
  cs.retain.withId id
    = (cs.withId id).map fun c => if c.receiving then c else c.unlist
  := by
  apply Channels.withId_map
  intro c
  split_ifs <;> rfl

theorem forall_mem_retain {cs : Channels} (h : ∀ c ∈ cs, Chan.Kept .controlled c) :
  ∀ c ∈ cs.retain, Chan.Kept .controlled c
  := by
  rw [Channels.retain, List.forall_mem_map]
  intro c hc
  split_ifs with hreceiving
  · exact h c hc
  · exact (h c hc).move (.retain (t := {}) (by simpa using hreceiving))

theorem map_id_retain (cs : Channels) :
  cs.retain.map Chan.id = cs.map Chan.id
  := by
  rw [Channels.retain, List.map_map]
  apply List.map_congr_left
  intro c _
  dsimp only [Function.comp]
  split_ifs <;> rfl

/-- The controlled side frees the entries no task receives for. -/
theorem follows_retain (l : Link) :
  Follows l { l with controlled := l.controlled.map fun b => if b.receiving then b else b.unlist }
  := by
  cases hb : l.controlled with
  | none =>
      left
      rw [Option.map_none, ← hb]
  | some b =>
      rw [Option.map_some]
      split_ifs with hreceiving
      · left
        rw [← hb]
      · exact Or.inr (Link.Step.unlistBack hb)

/-- The frames of the channel of an `open` that is on the wire. -/
theorem ordered_of_open (hup : e.up = .openCh id host port window :: rest) :
  e.ordered id = .openCh id host port window :: ordered id { e with up := rest }
  := by
  have hfor : isFor id (.openCh id host port window) = true := by simp [isFor, idOf]
  rw [ordered, ordered, hup]
  simp [hfor, isOrdered]

/-- The `open` on the wire is no frame of another channel. -/
theorem ordered_of_other {id' : ChannelId} (hup : e.up = .openCh id host port window :: rest)
    (hid : id' ≠ id) :
  e.ordered id' = ordered id' { e with up := rest }
  := by
  have hfor : isFor id' (.openCh id host port window) = false := by
    simp [isFor, idOf, Ne.symm hid]
  rw [ordered, ordered, hup]
  simp [hfor]

theorem control_of_open {id' : ChannelId} (hup : e.up = .openCh id host port window :: rest) :
  e.control id' = Ends.control id' { e with up := rest }
  := by
  rw [Ends.control, Ends.control, hup]
  simp [isOrdered]

/-- The channel of an `open` on the wire has not been spawned on the controlled side. -/
theorem withId_of_open {a : Chan} (h : e.Inv) (ha : a ∈ e.controller.channels)
    (hup : e.up = .openCh a.id host port window :: rest) :
  e.controlled.channels.withId a.id = none
  := (h.sound a ha).controlled_eq_none (h.kept a ha).course (ordered_of_open hup) rfl

/-- The controlled side refuses an `open`. -/
theorem refuse {out : List (Option Nat × PortForwardChannel)} (h : e.Inv)
    (hup : e.up = .openCh id host port window :: rest)
    (hout : ∀ x ∈ out, ∃ reason, x.2 = .opened id false reason 0) :
  Inv { e with
    controlled := { e.controlled with
      channels := e.controlled.channels.retain
      out := e.controlled.out ++ out }
    up := rest }
  := by
  have hqueue := h.up
  rw [hup, List.forall_mem_cons] at hqueue
  obtain ⟨⟨x, hx, hid⟩, hrest⟩ := hqueue
  cases hid
  have hreply : ∀ m ∈ out.map Prod.snd, ∃ reason, m = .opened id false reason 0 :=
    List.forall_mem_map.mpr hout
  have hidOf : ∀ m ∈ out.map Prod.snd, idOf m = some id := by
    intro m hm
    obtain ⟨reason, rfl⟩ := hreply m hm
    rfl
  refine ⟨h.kept, forall_mem_retain h.keptBack, ?_, ?_, h.data, h.control, ?_, hrest, h.down, ?_⟩
  · dsimp only
    rw [map_id_retain]
    exact h.once
  · intro b hb
    obtain ⟨c, hc, hid⟩ := List.mem_map.mp (map_id_retain _ ▸ List.mem_map_of_mem hb)
    rw [← hid]
    exact h.known c hc
  · dsimp only
    rw [List.map_append, List.forall_mem_append]
    apply And.intro h.out
    exact fun m hm => ⟨id, hx, hidOf m hm⟩
  · refine h.sound_of_same rfl ?_
    intro a ha
    by_cases hid : a.id = id
    · right
      subst hid
      have hnone : (e.link a).controlled = none := h.withId_of_open ha hup
      have hstep := Link.Step.refuse hnone (ordered_of_open hup) hreply
      have hcontrolled : e.controlled.channels.retain.withId a.id = (e.link a).controlled := by
        rw [withId_retain, hnone, h.withId_of_open ha hup]
        rfl
      have hback : e.down.filter (isFor a.id)
            ++ ((e.controlled.out ++ out).map Prod.snd).filter (isFor a.id)
          = (e.link a).back ++ out.map Prod.snd := by
        rw [List.map_append, List.filter_append, filter_isFor hidOf, ← List.append_assoc]
        rfl
      have hlink : link a { e with
            controlled := { e.controlled with
              channels := e.controlled.channels.retain
              out := e.controlled.out ++ out }
            up := rest }
          = { e.link a with
            ordered := ordered a.id { e with up := rest }
            back := (e.link a).back ++ out.map Prod.snd } :=
        Link.ext rfl hcontrolled rfl (control_of_open hup).symm hback rfl rfl
      rw [hlink]
      exact hstep
    · have hback : e.down.filter (isFor a.id)
            ++ ((e.controlled.out ++ out).map Prod.snd).filter (isFor a.id) = (e.link a).back := by
        rw [List.map_append, List.filter_append, filter_isFor_of_ne hidOf hid, List.append_nil]
        rfl
      have hlink : link a { e with
            controlled := { e.controlled with
              channels := e.controlled.channels.retain
              out := e.controlled.out ++ out }
            up := rest }
          = { e.link a with
            controlled := (e.link a).controlled.map fun b =>
              if b.receiving then b else b.unlist } :=
        Link.ext rfl (withId_retain _ _) (ordered_of_other hup hid).symm (control_of_open hup).symm
          hback rfl rfl
      rw [hlink]
      apply follows_retain

/-- The controlled side spawns the channel of an `open`. -/
theorem spawn (h : e.Inv) (hup : e.up = .openCh id host port window :: rest) (addr : String)
    (isRdp : Bool) :
  Inv { e with
    controlled := { e.controlled with
      channels := e.controlled.channels.retain ++ [Chan.controlled id addr isRdp window] }
    up := rest }
  := by
  have hqueue := h.up
  rw [hup, List.forall_mem_cons] at hqueue
  obtain ⟨⟨x, hx, hid⟩, hrest⟩ := hqueue
  cases hid
  have hnew : (Chan.controlled id addr isRdp window).id = id := rfl
  refine ⟨h.kept, ?_, ?_, ?_, h.data, h.control, h.out, hrest, h.down, ?_⟩
  · rw [List.forall_mem_append, List.forall_mem_singleton]
    exact ⟨forall_mem_retain h.keptBack, .start (.controlled id addr isRdp window)⟩
  · obtain ⟨a, ha, rfl⟩ := List.mem_map.mp hx
    have hnone := h.withId_of_open ha hup
    rw [Channels.withId_eq_none] at hnone
    rw [List.map_append, map_id_retain]
    apply List.Nodup.append h.once (List.nodup_singleton _)
    rw [List.disjoint_singleton]
    exact hnone
  · rw [List.forall_mem_append, List.forall_mem_singleton]
    constructor
    · intro b hb
      obtain ⟨c, hc, hid⟩ := List.mem_map.mp (map_id_retain _ ▸ List.mem_map_of_mem hb)
      rw [← hid]
      exact h.known c hc
    · exact hx
  · refine h.sound_of_same rfl ?_
    intro a ha
    by_cases hid : a.id = id
    · right
      subst hid
      have hnone : (e.link a).controlled = none := h.withId_of_open ha hup
      have hstep := Link.Step.spawn hnone (ordered_of_open hup) addr isRdp
      have hcontrolled : Channels.withId a.id
            (e.controlled.channels.retain ++ [Chan.controlled a.id addr isRdp window])
          = some (Chan.controlled a.id addr isRdp window) := by
        rw [Channels.withId_append, withId_retain, h.withId_of_open ha hup, if_pos hnew]
        rfl
      have hlink : link a { e with
            controlled := { e.controlled with
              channels := e.controlled.channels.retain
                ++ [Chan.controlled a.id addr isRdp window] }
            up := rest }
          = { e.link a with
            controlled := some (Chan.controlled a.id addr isRdp window)
            ordered := ordered a.id { e with up := rest } } :=
        Link.ext rfl hcontrolled rfl (control_of_open hup).symm rfl rfl rfl
      rw [hlink]
      exact hstep
    · have hcontrolled : Channels.withId a.id
            (e.controlled.channels.retain ++ [Chan.controlled id addr isRdp window])
          = (e.link a).controlled.map fun b => if b.receiving then b else b.unlist := by
        rw [Channels.withId_append, withId_retain, hnew, if_neg (Ne.symm hid), Option.or_none]
        rfl
      have hlink : link a { e with
            controlled := { e.controlled with
              channels := e.controlled.channels.retain
                ++ [Chan.controlled id addr isRdp window] }
            up := rest }
          = { e.link a with
            controlled := (e.link a).controlled.map fun b =>
              if b.receiving then b else b.unlist } :=
        Link.ext rfl hcontrolled (ordered_of_other hup hid).symm (control_of_open hup).symm rfl rfl
          rfl
      rw [hlink]
      apply follows_retain

/-! ### The controller on its own -/

/-- More channels are known. -/
theorem knows_mono {m : PortForwardChannel} (hids : e.ids ⊆ e'.ids) (hm : e.Knows m) :
  e'.Knows m
  := by
  obtain ⟨id, hid, heq⟩ := hm
  exact ⟨id, hids hid, heq⟩

/-- No frame on its way is one of a channel that is not known. -/
theorem filter_eq_nil {l : List PortForwardChannel} (hid : id ∉ e.ids) (hl : ∀ m ∈ l, e.Knows m) :
  l.filter (isFor id) = []
  := by
  apply List.filter_eq_nil_iff.mpr
  intro m hm hfor
  obtain ⟨id', hid', heq⟩ := hl m hm
  rw [isFor, heq] at hfor
  apply hid
  have hsame : id' = id := by simpa using hfor
  rw [← hsame]
  exact hid'

/-- The controller opens a channel, under an identifier no channel has had. -/
theorem insert {nextId : ChannelId} (h : e.Inv) (host : Str) (port : BitVec 32) (prebuf : Bytes)
    (hid : id ∉ e.ids) :
  Inv { e with controller := { e.controller with
    nextId := nextId
    channels := e.controller.channels ++ [Chan.controller id host port prebuf] } }
  := by
  have hids : e.ids ⊆ (e.controller.channels ++ [Chan.controller id host port prebuf]).map Chan.id := by
    rw [List.map_append]
    apply List.subset_append_left
  have hknows : ∀ m, e.Knows m → Knows { e with controller := { e.controller with
      nextId := nextId
      channels := e.controller.channels ++ [Chan.controller id host port prebuf] } } m :=
    fun m hm => knows_mono hids hm
  refine ⟨?_, h.keptBack, h.once, fun b hb => hids (h.known b hb), ?_, ?_, ?_, ?_, ?_, ?_⟩
  · rw [List.forall_mem_append, List.forall_mem_singleton]
    exact ⟨h.kept, .start (.controller id host port prebuf)⟩
  · exact fun m hm => ⟨(h.data m hm).1, hknows m (h.data m hm).2⟩
  · exact fun m hm => ⟨(h.control m hm).1, hknows m (h.control m hm).2⟩
  · exact fun m hm => hknows m (h.out m hm)
  · exact fun m hm => hknows m (h.up m hm)
  · exact fun m hm => hknows m (h.down m hm)
  · rw [List.forall_mem_append, List.forall_mem_singleton]
    refine ⟨h.sound, ?_⟩
    have hnone : e.controlled.channels.withId id = none := by
      rw [Channels.withId_eq_none]
      intro hmem
      obtain ⟨b, hb, hbid⟩ := List.mem_map.mp hmem
      exact hid (hbid ▸ h.known b hb)
    have hup : ∀ p : PortForwardChannel → Bool, e.up.filter (fun m => isFor id m && p m) = [] := by
      intro p
      rw [← List.filter_filter, List.filter_comm, filter_eq_nil hid h.up, List.filter_nil]
    have hordered : e.ordered id = [] := by
      rw [ordered, hup, filter_eq_nil hid fun m hm => (h.data m hm).2, List.nil_append]
    have hcontrol : e.control id = [] := by
      rw [Ends.control, hup, filter_eq_nil hid fun m hm => (h.control m hm).2, List.nil_append]
    have hback : e.back id = [] := by
      rw [back, filter_eq_nil hid h.down, filter_eq_nil hid h.out, List.nil_append]
    have hlink : link (Chan.controller id host port prebuf) { e with controller := { e.controller with
          nextId := nextId
          channels := e.controller.channels ++ [Chan.controller id host port prebuf] } }
        = ⟨Chan.controller id host port prebuf, none, [], [], [], e.controller.teardown.gone,
          e.controlled.teardown.gone⟩ :=
      Link.ext rfl hnone hordered hcontrol hback rfl rfl
    rw [hlink]
    apply Link.sound_start

/-- What is done to the channel with an identifier. -/
def onId (id : ChannelId) (f : Chan → Chan) (c : Chan) : Chan := if c.id = id then f c else c

theorem onId_id (hf : ∀ c, c.id = id → (f c).id = id) (c : Chan) :
  (onId id f c).id = c.id
  := by
  rw [onId]
  split_ifs with hid
  · rw [hf c hid, hid]
  · rfl

theorem map_id_onId (hf : ∀ c, c.id = id → (f c).id = id) (cs : Channels) :
  (cs.map (onId id f)).map Chan.id = cs.map Chan.id
  := by
  rw [List.map_map]
  apply List.map_congr_left
  intro c _
  exact onId_id hf c

/-- A task of the controller takes a step. -/
theorem task {i : Nat} {c c' : Chan} {out : Output} (h : e.Inv) (hids : e.ids.Nodup)
    (hc : e.controller.channels[i]? = some c)
    (hstep : Chan.Step e.controller.teardown.gone e.controller.teardown.down c out c') :
  Inv { e with controller := { e.controller with
    channels := e.controller.channels.map (onId c.id fun _ => c')
    data := e.controller.data ++ out.toData
    control := e.controller.control ++ out.toControl } }
  := by
  have hmem := List.mem_of_getElem? hc
  have hcourse := (h.kept c hmem).course
  obtain ⟨hdata, hcontrol⟩ := hstep.queues hcourse
  have hidOf := hstep.idOf_frames hcourse
  rw [out.frames_eq, List.forall_mem_append] at hidOf
  have hid : c'.id = c.id := hstep.id_left.1
  have hmap : (e.controller.channels.map (onId c.id fun _ => c')).map Chan.id
      = e.controller.channels.map Chan.id := map_id_onId (fun _ _ => hid) e.controller.channels
  have hin : c.id ∈ e.ids := List.mem_map_of_mem hmem
  have hknows : ∀ m, e.Knows m → Knows { e with controller := { e.controller with
      channels := e.controller.channels.map (onId c.id fun _ => c')
      data := e.controller.data ++ out.toData
      control := e.controller.control ++ out.toControl } } m :=
    fun m hm => knows_mono (by rw [ids, ids, hmap]; exact fun x hx => hx) hm
  refine ⟨?_, h.keptBack, h.once, ?_, ?_, ?_, ?_, ?_, ?_, ?_⟩
  · rw [List.forall_mem_map]
    intro a ha
    rw [onId]
    split_ifs
    · exact (h.kept c hmem).move (.step (t := e.controller.teardown) hstep)
    · exact h.kept a ha
  · rw [ids, hmap]
    exact h.known
  · rw [List.forall_mem_append]
    constructor
    · exact fun m hm => ⟨(h.data m hm).1, hknows m (h.data m hm).2⟩
    · intro m hm
      refine ⟨?_, hknows m ⟨c.id, hin, hidOf.1 m hm⟩⟩
      rw [← hdata] at hm
      exact (List.mem_filter.mp hm).2
  · rw [List.forall_mem_append]
    constructor
    · exact fun m hm => ⟨(h.control m hm).1, hknows m (h.control m hm).2⟩
    · intro m hm
      refine ⟨?_, hknows m ⟨c.id, hin, hidOf.2 m hm⟩⟩
      obtain ⟨add, rfl⟩ := hcontrol m hm
      rfl
  · exact fun m hm => hknows m (h.out m hm)
  · exact fun m hm => hknows m (h.up m hm)
  · exact fun m hm => hknows m (h.down m hm)
  · refine h.sound_of rfl ?_
    intro a ha
    by_cases hsame : a.id = c.id
    · right
      obtain rfl := List.inj_on_of_nodup_map hids ha hmem hsame
      have hordered : e.up.filter (fun m => isFor a.id m && isOrdered m)
            ++ (e.controller.data ++ out.toData).filter (isFor a.id)
          = (e.link a).ordered ++ out.toData := by
        rw [List.filter_append, filter_isFor hidOf.1, ← List.append_assoc]
        rfl
      have hqueue : e.up.filter (fun m => isFor a.id m && !isOrdered m)
            ++ (e.controller.control ++ out.toControl).filter (isFor a.id)
          = (e.link a).control ++ out.toControl := by
        rw [List.filter_append, filter_isFor hidOf.2, ← List.append_assoc]
        rfl
      have hlink : link a { e with controller := { e.controller with
            channels := e.controller.channels.map (onId a.id fun _ => c')
            data := e.controller.data ++ out.toData
            control := e.controller.control ++ out.toControl } }
          = { e.link a with
            ordered := (e.link a).ordered ++ out.toData
            control := (e.link a).control ++ out.toControl } :=
        Link.ext rfl rfl hordered hqueue rfl rfl rfl
      rw [onId, if_pos rfl, link_of_id _ hid, hlink]
      exact Link.Step.controller hstep
    · left
      rw [onId, if_neg hsame]
      have hordered : e.up.filter (fun m => isFor a.id m && isOrdered m)
            ++ (e.controller.data ++ out.toData).filter (isFor a.id) = (e.link a).ordered := by
        rw [List.filter_append, filter_isFor_of_ne hidOf.1 hsame, List.append_nil]
        rfl
      have hqueue : e.up.filter (fun m => isFor a.id m && !isOrdered m)
            ++ (e.controller.control ++ out.toControl).filter (isFor a.id) = (e.link a).control := by
        rw [List.filter_append, filter_isFor_of_ne hidOf.2 hsame, List.append_nil]
        rfl
      exact Link.ext rfl rfl hordered hqueue rfl rfl rfl

/-- Something is done to the channels of the controller, and nothing to its queues. -/
theorem mapController (h : e.Inv) (hid : ∀ c, (f c).id = c.id)
    (hkept : ∀ a ∈ e.controller.channels, (f a).Kept .controller)
    (hfollows : ∀ a ∈ e.controller.channels, Follows (e.link a) (link (f a)
      { e with controller := { e.controller with
        channels := e.controller.channels.map f, teardown := t } })) :
  Inv { e with controller := { e.controller with
    channels := e.controller.channels.map f, teardown := t } }
  := by
  have hmap : (e.controller.channels.map f).map Chan.id = e.ids := by
    rw [List.map_map]
    apply List.map_congr_left
    intro c _
    exact hid c
  have hknows : ∀ m, e.Knows m → Knows { e with controller := { e.controller with
      channels := e.controller.channels.map f, teardown := t } } m :=
    fun m hm => knows_mono (by rw [ids, ids, hmap]; exact fun x hx => hx) hm
  refine ⟨List.forall_mem_map.mpr hkept, h.keptBack, h.once, ?_, ?_, ?_, ?_, ?_, ?_,
    h.sound_of rfl hfollows⟩
  · rw [ids, hmap]
    exact h.known
  · exact fun m hm => ⟨(h.data m hm).1, hknows m (h.data m hm).2⟩
  · exact fun m hm => ⟨(h.control m hm).1, hknows m (h.control m hm).2⟩
  · exact fun m hm => hknows m (h.out m hm)
  · exact fun m hm => hknows m (h.up m hm)
  · exact fun m hm => hknows m (h.down m hm)

/-- A task of the controller leaves the table. -/
theorem leave {i : Nat} {c : Chan} (h : e.Inv) (hids : e.ids.Nodup)
    (hc : e.controller.channels[i]? = some c) (hended : c.stage = .ended) :
  Inv { e with controller := { e.controller with
    channels := e.controller.channels.map (onId c.id Chan.leave) } }
  := by
  have hmem := List.mem_of_getElem? hc
  refine h.mapController (onId_id fun _ hid => hid) ?_ ?_
  · intro a ha
    rw [onId]
    split_ifs with hsame
    · obtain rfl := List.inj_on_of_nodup_map hids ha hmem hsame
      exact (h.kept a ha).move (.leave (t := {}) hended rfl)
    · exact h.kept a ha
  · intro a ha
    rw [onId]
    split_ifs with hsame
    · obtain rfl := List.inj_on_of_nodup_map hids ha hmem hsame
      exact Or.inr (Link.Step.leave hended)
    · exact Or.inl rfl

/-- `close_all` clears the table of the controller. -/
theorem clear (h : e.Inv) (ht : t.gone = e.controller.teardown.gone) :
  Inv { e with controller := { e.controller with
    channels := e.controller.channels.clear, teardown := t } }
  := by
  refine h.mapController (fun _ => rfl) ?_ ?_
  · intro a ha
    exact (h.kept a ha).move (.clear (t := { cleared := true }) rfl)
  · intro a _
    right
    have hlink : link a.unlist { e with controller := { e.controller with
          channels := e.controller.channels.clear, teardown := t } }
        = { e.link a with controller := a.unlist } :=
      Link.ext rfl rfl rfl rfl rfl ht rfl
    rw [← Channels.clear, hlink]
    exact Link.Step.unlist

/-- `close_all` raises the teardown of the controller. -/
theorem raise (h : e.Inv) (ht : t.gone = e.controller.teardown.gone) :
  Inv { e with controller := { e.controller with teardown := t } }
  := by
  have hmap := h.mapController (f := fun a => a) (t := t) (fun _ => rfl) h.kept fun a _ =>
    Or.inl (Link.ext rfl rfl rfl rfl rfl ht rfl)
  rw [List.map_id'] at hmap
  exact hmap

/-- The queues of the controller are dropped. -/
theorem drop (h : e.Inv) (ht : t.gone = true) :
  Inv { e with controller := { e.controller with data := [], control := [], teardown := t } }
  := by
  refine ⟨h.kept, h.keptBack, h.once, h.known, nofun, nofun, h.out, h.up, h.down, ?_⟩
  refine h.sound_of_same rfl ?_
  intro a _
  right
  have hordered : e.up.filter (fun m => isFor a.id m && isOrdered m) ++ [] <+: (e.link a).ordered :=
    (List.prefix_append_right_inj _).mpr List.nil_prefix
  have hcontrol : e.up.filter (fun m => isFor a.id m && !isOrdered m) ++ [] <+: (e.link a).control :=
    (List.prefix_append_right_inj _).mpr List.nil_prefix
  have hlink : link a { e with controller := { e.controller with
        data := [], control := [], teardown := t } }
      = { e.link a with
        ordered := e.up.filter (fun m => isFor a.id m && isOrdered m) ++ []
        control := e.up.filter (fun m => isFor a.id m && !isOrdered m) ++ []
        gone := true } :=
    Link.ext rfl rfl rfl rfl rfl ht rfl
  rw [hlink]
  exact Link.Step.drop hordered hcontrol

/-! ### The controlled side on its own -/

/-- A task of the controlled side takes a step. -/
theorem taskBack {i : Nat} {c c' : Chan} {out : Output} (h : e.Inv)
    (hc : e.controlled.channels[i]? = some c)
    (hstep : Chan.Step e.controlled.teardown.gone e.controlled.teardown.down c out c') :
  Inv { e with controlled := { e.controlled with
    channels := e.controlled.channels.map (onId c.id fun _ => c')
    out := e.controlled.out ++ out.frames.map fun ch => (some i, ch) } }
  := by
  have hmem := List.mem_of_getElem? hc
  have hidOf := hstep.idOf_frames (h.keptBack c hmem).course
  have hid : c'.id = c.id := hstep.id_left.1
  have hmap : (e.controlled.channels.map (onId c.id fun _ => c')).map Chan.id
      = e.controlled.channels.map Chan.id := map_id_onId (fun _ _ => hid) e.controlled.channels
  have hframes : (out.frames.map fun ch => (some i, ch)).map Prod.snd = out.frames := by
    rw [List.map_map]
    exact List.map_id' out.frames
  refine ⟨h.kept, ?_, ?_, ?_, h.data, h.control, ?_, h.up, h.down, ?_⟩
  · rw [List.forall_mem_map]
    intro b hb
    rw [onId]
    split_ifs
    · exact (h.keptBack c hmem).move (.step (t := e.controlled.teardown) hstep)
    · exact h.keptBack b hb
  · dsimp only
    rw [hmap]
    exact h.once
  · intro b hb
    obtain ⟨d, hd, hsame⟩ := List.mem_map.mp (hmap ▸ List.mem_map_of_mem hb)
    rw [← hsame]
    exact h.known d hd
  · dsimp only
    rw [List.map_append, hframes, List.forall_mem_append]
    exact ⟨h.out, fun m hm => ⟨c.id, h.known c hmem, hidOf m hm⟩⟩
  · refine h.sound_of_same rfl ?_
    intro a _
    have hcontrolled : Channels.withId a.id (e.controlled.channels.map (onId c.id fun _ => c'))
        = (e.link a).controlled.map (onId c.id fun _ => c') :=
      Channels.withId_map (onId_id fun _ _ => hid)
    by_cases hsame : a.id = c.id
    · right
      have hb : (e.link a).controlled = some c := by
        change e.controlled.channels.withId a.id = _
        rw [hsame]
        exact Channels.withId_of_mem h.once hmem
      rw [hb, Option.map_some, onId, if_pos rfl] at hcontrolled
      have hback : e.down.filter (isFor a.id)
            ++ ((e.controlled.out ++ out.frames.map fun ch => (some i, ch)).map Prod.snd).filter
              (isFor a.id)
          = (e.link a).back ++ out.frames := by
        rw [List.map_append, hframes, List.filter_append, hsame, filter_isFor hidOf,
          ← List.append_assoc, ← hsame]
        rfl
      have hlink : link a { e with controlled := { e.controlled with
            channels := e.controlled.channels.map (onId c.id fun _ => c')
            out := e.controlled.out ++ out.frames.map fun ch => (some i, ch) } }
          = { e.link a with controlled := some c', back := (e.link a).back ++ out.frames } :=
        Link.ext rfl hcontrolled rfl rfl hback rfl rfl
      rw [hlink]
      exact Link.Step.controlled hb hstep
    · left
      have hkept : (e.link a).controlled.map (onId c.id fun _ => c') = (e.link a).controlled := by
        cases hb : (e.link a).controlled with
        | none => rfl
        | some b =>
            rw [Option.map_some, onId, (Channels.withId_eq_some hb).2, if_neg hsame]
      have hback : e.down.filter (isFor a.id)
            ++ ((e.controlled.out ++ out.frames.map fun ch => (some i, ch)).map Prod.snd).filter
              (isFor a.id)
          = (e.link a).back := by
        rw [List.map_append, hframes, List.filter_append, filter_isFor_of_ne hidOf hsame,
          List.append_nil]
        rfl
      exact Link.ext rfl (hcontrolled.trans hkept) rfl rfl hback rfl rfl

/-- `close_all` clears the table of the controlled side. -/
theorem clearBack (h : e.Inv) (ht : t.gone = e.controlled.teardown.gone) :
  Inv { e with controlled := { e.controlled with
    channels := e.controlled.channels.clear, teardown := t } }
  := by
  have hmap : e.controlled.channels.clear.map Chan.id = e.controlled.channels.map Chan.id := by
    rw [Channels.clear, List.map_map]
    rfl
  have hkept : ∀ b ∈ e.controlled.channels.clear, b.Kept .controlled :=
    List.forall_mem_map.mpr fun b hb =>
      (h.keptBack b hb).move (.clear (t := { cleared := true }) rfl)
  refine ⟨h.kept, hkept, ?_, ?_, h.data, h.control, h.out, h.up, h.down, ?_⟩
  · dsimp only
    rw [hmap]
    exact h.once
  · intro b hb
    obtain ⟨d, hd, hsame⟩ := List.mem_map.mp (hmap ▸ List.mem_map_of_mem hb)
    rw [← hsame]
    exact h.known d hd
  · refine h.sound_of_same rfl ?_
    intro a _
    have hcontrolled : e.controlled.channels.clear.withId a.id
        = (e.link a).controlled.map Chan.unlist := Channels.withId_map fun _ => rfl
    have hlink : link a { e with controlled := { e.controlled with
          channels := e.controlled.channels.clear, teardown := t } }
        = { e.link a with controlled := (e.link a).controlled.map Chan.unlist } :=
      Link.ext rfl hcontrolled rfl rfl rfl rfl ht
    rw [hlink]
    cases hb : (e.link a).controlled with
    | none =>
        left
        rw [Option.map_none, ← hb]
    | some b => exact Or.inr (Link.Step.unlistBack hb)

/-- `close_all` raises the teardown of the controlled side. -/
theorem raiseBack (h : e.Inv) (ht : t.gone = e.controlled.teardown.gone) :
  Inv { e with controlled := { e.controlled with teardown := t } }
  := by
  refine ⟨h.kept, h.keptBack, h.once, h.known, h.data, h.control, h.out, h.up, h.down, ?_⟩
  refine h.sound_of_same rfl ?_
  intro a _
  exact Or.inl (Link.ext rfl rfl rfl rfl rfl rfl ht)

/-- The queue of the writer is dropped. -/
theorem dropBack (h : e.Inv) (ht : t.gone = true) :
  Inv { e with controlled := { e.controlled with out := [], teardown := t } }
  := by
  refine ⟨h.kept, h.keptBack, h.once, h.known, h.data, h.control, nofun, h.up, h.down, ?_⟩
  refine h.sound_of_same rfl ?_
  intro a _
  right
  have hback : e.down.filter (isFor a.id) ++ [] <+: (e.link a).back :=
    (List.prefix_append_right_inj _).mpr List.nil_prefix
  have hlink : link a { e with controlled := { e.controlled with out := [], teardown := t } }
      = { e.link a with back := e.down.filter (isFor a.id) ++ [], goneBack := true } :=
    Link.ext rfl rfl rfl rfl rfl rfl ht
  rw [hlink]
  exact Link.Step.dropBack hback

theorem start (loginTarget : String) :
  (Ends.start loginTarget).Inv
  := by
  have hnone : ∀ {α : Type} {p : α → Prop}, ∀ x ∈ ([] : List α), p x :=
    fun x hx => absurd hx List.not_mem_nil
  exact ⟨hnone, hnone, List.nodup_nil, hnone, hnone, hnone, hnone, hnone, hnone, hnone⟩

/-- What the controller does on its own keeps what holds in a tunnel. -/
theorem controller {act : TunnelHandle.Act} {c : TunnelHandle} (h : e.Inv) (hids : e.ids.Nodup)
    (hids' : (c.channels.map Chan.id).Nodup) (hown : act.isOwn = true)
    (hstep : TunnelHandle.Step e.controller act c) :
  Inv { e with controller := c }
  := by
  cases hstep with
  | insert host port prebuf =>
      obtain heq | ⟨id, heq, -, -⟩ := TunnelHandle.insert_cases host port prebuf e.controller
      · rw [heq]
        exact h
      · rw [heq] at hids' ⊢
        apply h.insert host port prebuf
        intro hmem
        rw [List.map_append, List.nodup_append'] at hids'
        exact hids'.2.2 hmem List.mem_cons_self
  | frame ch => cases hown
  | task hc hstep hroom =>
      rw [TunnelHandle.emit_eq, Channels.set_eq_map hids hc]
      exact h.task hids hc hstep
  | leave hc hended hleft =>
      rw [Channels.leave_eq_map hids hc]
      exact h.leave hids hc hended
  | takeData hdata => cases hown
  | takeControl hcontrol => cases hown
  | clear => exact h.clear rfl
  | raise hcleared => exact h.raise rfl
  | drop hdown => exact h.drop rfl

/-- What the controlled side does on its own keeps what holds in a tunnel. -/
theorem controlled {act : PortForwardMux.Act} {m : PortForwardMux} (h : e.Inv)
    (hown : act.isOwn = true) (hstep : PortForwardMux.Step e.controlled act m) :
  Inv { e with controlled := m }
  := by
  cases hstep with
  | frame ch permitted => cases hown
  | @task i c c' out hc hstep =>
      have hset : e.controlled.channels.set i c'
          = e.controlled.channels.map fun d => if d.id = c.id then c' else d :=
        Channels.set_eq_map h.once hc
      have hemit := PortForwardMux.emit_eq i out
        { e.controlled with channels := e.controlled.channels.set i c' } hstep.says.2
      rw [hemit, hset]
      exact h.taskBack hc hstep
  | write hout => cases hown
  | clear => exact h.clearBack rfl
  | raise hcleared => exact h.raiseBack rfl
  | drop => exact h.dropBack rfl

/-- What holds in a tunnel is kept by every step. -/
theorem step {act : Act} (h : e.Inv) (hids : e.ids.Nodup) (hids' : e'.ids.Nodup)
    (hstep : Step e act e') :
  e'.Inv
  := by
  cases hstep with
  | controller hown hstep => exact h.controller hids hids' hown hstep
  | controlled hown hstep => exact h.controlled hown hstep
  | takeData hdata => exact h.takeData hdata
  | takeControl hcontrol => exact h.takeControl hcontrol
  | write hout => exact h.write hout
  | @arriveUp ch rest hup permitted =>
      cases ch with
      | openCh id host port window =>
          obtain ⟨out, heq, hout⟩ | ⟨addr, isRdp, heq, -, -⟩ :=
            PortForwardMux.onOpen_cases id host port window permitted e.controlled
          · rw [PortForwardMux.handle, heq]
            exact h.refuse hup fun x hx => (hout x hx).2
          · rw [PortForwardMux.handle, heq]
            exact h.spawn hup addr isRdp
      | _ => exact h.arriveUp hup permitted (by rintro _ _ _ _ ⟨⟩)
  | arriveDown hdown => exact h.arriveDown hdown

end Inv

/-- The controller's channels stay, and keep their identifiers. -/
theorem Step.ids {e e' : Ends} {act : Act} (hstep : Step e act e') :
  e.ids <+: e'.ids
  := by
  obtain ⟨⟨act, hstep⟩ | heq, -⟩ := hstep.ends
  · apply List.prefix_iff_getElem?.mpr
    intro i hi
    have hlt : i < e.controller.channels.length := by
      rw [Ends.ids, List.length_map] at hi
      exact hi
    have hc := List.getElem?_eq_getElem hlt
    obtain ⟨c', hc', hmove⟩ := hstep.advance.move i _ hc
    rw [Ends.ids, List.getElem?_map, hc', Option.map_some, hmove.id]
    simp [Ends.ids]
  · rw [Ends.ids, Ends.ids, heq]

theorem inv_of_run {loginTarget : String} {hist : List (Ends × Act)} {e : Ends}
    (hrun : Run Step (start loginTarget) hist e) (hids : e.ids.Nodup) :
  e.Inv
  := by
  apply hrun.invariant (fun e => e.ids.Nodup → e.Inv)
  · exact fun _ => Inv.start loginTarget
  · intro e act e' ih hstep hids'
    have hids := hids'.sublist hstep.ids.sublist
    exact (ih hids).step hids hids' hstep
  · exact hids

end Ends

end VynxDesk.Mux
