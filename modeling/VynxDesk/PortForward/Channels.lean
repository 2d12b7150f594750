import VynxDesk.PortForward.Channel

/-!
# The channels of one end

Both ends keep a table from ids to entries, and start a task with each entry.  Here an entry and its
task are one `Chan`, which stays in the list when its entry leaves the table; the table is what is
listed.  `Advance` says what one step of an end may do to its channels, so that a property of a
channel is shown once for both ends.
-/

namespace VynxDesk.Mux

/-- The two ends of a tunnel. -/
inductive Side where
  | controller | controlled
  deriving DecidableEq

/-- How far a tunnel is torn down: `close_all` has cleared the table, it has raised the teardown, and
the queues of the sink are dropped. -/
structure Teardown where
  cleared : Bool := false
  down : Bool := false
  gone : Bool := false
  deriving DecidableEq

namespace Chan

/-- `run_controlled_channel` starts. -/
def controlled (id : ChannelId) (addr : String) (isRdp : Bool) (window : Nat) : Chan where
  id := id
  credit := SendCredit.new (effectiveWindow window)
  window := RecvWindow.new initialWindow
  stage := .connecting addr isRdp 0

/-- The task that `TunnelHandle::open` spawns. -/
def controller (id : ChannelId) (host : Str) (port : BitVec 32) (prebuf : Bytes) : Chan where
  id := id
  credit := SendCredit.new initialWindow
  window := RecvWindow.new channelWindow
  stage := .greeting (.openCh id host port channelWindow)
  prebuf := prebuf

/-- How a channel starts. -/
inductive Start : Side → Chan → Prop where
  | controlled (id : ChannelId) (addr : String) (isRdp : Bool) (window : Nat) :
      Start .controlled (Chan.controlled id addr isRdp window)
  | controller (id : ChannelId) (host : Str) (port : BitVec 32) (prebuf : Bytes) :
      Start .controller (Chan.controller id host port prebuf)

/-- The task has left the table, and so has its entry. -/
def leave (c : Chan) : Chan := { c.unlist with left := true }

/-- A task that had the same id has removed the entry. -/
def evict (c : Chan) : Chan := { c.unlist with evicted := true }

/-- What one step of an end may do to one of its channels. -/
inductive Move (side : Side) (t : Teardown) : Chan → Chan → Prop where
  | stay {c : Chan} : Move side t c c
  | step {c c' : Chan} {out : Output} (hstep : Step t.gone t.down c out c') : Move side t c c'
  | data {c : Chan} (data : Bytes) (hlisted : c.listed = true) : Move side t c (c.onData data)
  | close {c : Chan} (hlisted : c.listed = true) : Move side t c c.onClose
  | windowUpdate {c : Chan} (add : Nat) (hlisted : c.listed = true) :
      Move side t c (c.onWindowUpdate add)
  | opened {c : Chan} (window : Nat) (hlisted : c.listed = true) (hside : side = .controller) :
      Move side t c (c.onOpened window)
  | retain {c : Chan} (hreceiving : c.receiving = false) : Move side t c c.unlist
  | clear {c : Chan} (hcleared : t.cleared = true) : Move side t c c.unlist
  | leave {c : Chan} (hended : c.stage = .ended) (hside : side = .controller) :
      Move side t c c.leave
  | evict {c : Chan} (hlisted : c.listed = true) (hside : side = .controller) :
      Move side t c c.evict

/-- The task is where it was: only what it shares with the table may differ. -/
structure SameTask (c c' : Chan) : Prop where
  id : c'.id = c.id
  stage : c'.stage = c.stage
  prebuf : c'.prebuf = c.prebuf
  pending : c'.pending = c.pending
  toTunnel : c'.toTunnel = c.toTunnel
  toSocket : c'.toSocket = c.toSocket
  produced : c'.produced = c.produced
  drained : c'.drained = c.drained
  written : c'.written = c.written
  sent : c'.sent = c.sent
  paid : c'.paid = c.paid
  refused : c'.refused = c.refused
  broke : c'.broke = c.broke

theorem SameTask.refl (c : Chan) : SameTask c c := by constructor <;> rfl

theorem SameTask.push {c c' : Chan} (h : SameTask c c') (cmd : Inbound) :
  SameTask c (c'.push cmd)
  := by
  rw [Chan.push]
  split_ifs
  · obtain ⟨⟩ := h
    constructor <;> assumption
  · exact h

theorem SameTask.unlist {c c' : Chan} (h : SameTask c c') :
  SameTask c c'.unlist
  := by
  obtain ⟨⟩ := h
  constructor <;> assumption

theorem sameTask_onData (data : Bytes) (c : Chan) :
  SameTask c (c.onData data)
  := by
  rw [onData]
  cases c.window.accept data.length with
  | none => exact (SameTask.refl c).unlist.push .violation
  | some w =>
      have h : SameTask c { c with window := w, accepted := c.accepted ++ [data] } := by
        constructor <;> rfl
      dsimp only
      split_ifs with hreceiving
      · exact h.push (.data data)
      · exact h.unlist

theorem sameTask_onOpened (window : Nat) (c : Chan) :
  SameTask c (c.onOpened window)
  := by
  rw [onOpened]
  split_ifs <;> constructor <;> rfl

/-- What an end does to a channel is a step of its task, or it leaves the task where it was. -/
theorem Move.task {side : Side} {t : Teardown} {c c' : Chan} (hmove : Move side t c c') :
  (∃ out, Step t.gone t.down c out c') ∨ SameTask c c'
  := by
  cases hmove with
  | step hstep => exact Or.inl ⟨_, hstep⟩
  | data data hlisted => exact Or.inr (sameTask_onData data c)
  | close hlisted => exact Or.inr ((SameTask.refl c).unlist.push .close)
  | opened window hlisted hside => exact Or.inr (sameTask_onOpened window c)
  | _ =>
      right
      constructor <;> rfl

/-- The task keeps its identifier, and it does not leave the table by a step. -/
theorem Step.id_left {gone down : Bool} {c c' : Chan} {out : Output}
    (hstep : Step gone down c out c') :
  c'.id = c.id ∧ c'.left = c.left
  := by
  cases hstep with
  | @nextInbound cmd cmds hs ht hpending hinbound => cases cmd <;> exact ⟨rfl, rfl⟩
  | @connecting addr isRdp charged cmd cmds hs hinbound =>
      unfold onConnecting
      cases cmd with
      | data b =>
          dsimp only
          split_ifs <;> exact ⟨rfl, rfl⟩
      | close => exact ⟨rfl, rfl⟩
      | violation => exact ⟨rfl, rfl⟩
  | grant hs =>
      unfold Chan.grant
      exact ⟨rfl, rfl⟩
  | _ => exact ⟨rfl, rfl⟩

/-- A channel keeps its identifier, whatever an end does to it. -/
theorem Move.id {side : Side} {t : Teardown} {c c' : Chan} (hmove : Move side t c c') :
  c'.id = c.id
  := by
  obtain ⟨out, hstep⟩ | hsame := hmove.task
  · exact hstep.id_left.1
  · exact hsame.id

/-- A task that has left the table stays out of it. -/
theorem Move.left {side : Side} {t : Teardown} {c c' : Chan} (hmove : Move side t c c')
    (hleft : c.left = true) :
  c'.left = true
  := by
  cases hmove with
  | step hstep => rw [hstep.id_left.2, hleft]
  | data data hlisted =>
      rw [onData]
      cases c.window.accept data.length with
      | none =>
          dsimp only
          rw [push]
          split_ifs <;> exact hleft
      | some w =>
          dsimp only
          rw [push]
          split_ifs <;> exact hleft
  | close hlisted =>
      rw [onClose, push]
      split_ifs <;> exact hleft
  | opened window hlisted hside =>
      rw [onOpened]
      split_ifs <;> exact hleft
  | leave hended hside => rfl
  | _ => exact hleft

/-- The channel is the entry of the table under `id`. -/
def isEntry (id : ChannelId) (c : Chan) : Bool := c.listed && c.id == id

theorem listed_of_isEntry {id : ChannelId} {c : Chan} (h : c.isEntry id = true) :
  c.listed = true
  := by
  rw [isEntry] at h
  rw [Bool.and_eq_true] at h
  apply h.1

end Chan

/-! ### The table -/

/-- The channels of an end, in the order they were opened. -/
abbrev Channels := List Chan

namespace Channels

/-- `channels.contains_key`. -/
def containsKey (id : ChannelId) (cs : Channels) : Bool := cs.any (Chan.isEntry id)

/-- `channels.len`. -/
def len (cs : Channels) : Nat := cs.countP Chan.listed

/-- What is done to the entry under `id`, when there is one. -/
def update (id : ChannelId) (f : Chan → Chan) (cs : Channels) : Channels :=
  cs.map fun c => if c.isEntry id then f c else c

/-- `channels.retain(|_, e| !e.inbound.is_closed())`. -/
def retain (cs : Channels) : Channels := cs.map fun c => if c.receiving then c else c.unlist

/-- `channels.clear`. -/
def clear (cs : Channels) : Channels := cs.map Chan.unlist

/-- A task removes the entry under its own id, at its end. -/
def leave (i : Nat) (id : ChannelId) (cs : Channels) : Channels :=
  cs.mapIdx fun j c => if j = i then c.leave else if c.isEntry id then c.evict else c

end Channels

/-! ### What a step does to the channels -/

/-- What one step of an end may do to its channels: it moves each of them, and it may start one. -/
structure Advance (side : Side) (t : Teardown) (cs cs' : Channels) : Prop where
  move : ∀ (i : Nat) (c : Chan), cs[i]? = some c → ∃ c', cs'[i]? = some c' ∧ Chan.Move side t c c'
  start : ∀ (i : Nat) (c' : Chan), cs[i]? = none → cs'[i]? = some c' → Chan.Start side c'

namespace Advance

variable {side : Side} {t : Teardown} {cs cs' : Channels}

theorem refl : Advance side t cs cs where
  move := by
    intro i c hc
    use c, hc
    apply Chan.Move.stay
  start := by
    intro i c' hnone hsome
    rw [hnone] at hsome
    cases hsome

/-- The same thing is done to every channel. -/
theorem map {f : Chan → Chan} (hf : ∀ c ∈ cs, Chan.Move side t c (f c)) :
  Advance side t cs (cs.map f)
  := by
  constructor
  · intro i c hc
    use f c
    rw [List.getElem?_map, hc]
    apply And.intro rfl
    apply hf
    apply List.mem_of_getElem? hc
  · intro i c' hnone hsome
    rw [List.getElem?_map, hnone] at hsome
    cases hsome

/-- Something is done to the entry under `id`. -/
theorem update {id : ChannelId} {f : Chan → Chan}
    (hf : ∀ c, c.listed = true → Chan.Move side t c (f c)) :
  Advance side t cs (Channels.update id f cs)
  := by
  apply map
  intro c _
  split_ifs with h
  · apply hf
    apply Chan.listed_of_isEntry h
  · apply Chan.Move.stay

theorem retain : Advance side t cs (Channels.retain cs)
  := by
  apply map
  intro c _
  split_ifs with h
  · apply Chan.Move.stay
  · apply Chan.Move.retain
    simpa using h

theorem clear (hcleared : t.cleared = true) :
  Advance side t cs (Channels.clear cs)
  := by
  apply map
  intro c _
  apply Chan.Move.clear hcleared

/-- One of the tasks takes a step. -/
theorem set {i : Nat} {c c' : Chan} (hc : cs[i]? = some c) (hmove : Chan.Move side t c c') :
  Advance side t cs (cs.set i c')
  := by
  constructor
  · intro j d hd
    rw [List.getElem?_set]
    split_ifs with hij hlt
    · subst hij
      rw [hc, Option.some.injEq] at hd
      subst hd
      use c', rfl
    · subst hij
      rw [List.getElem?_eq_none (by omega)] at hc
      cases hc
    · use d, hd
      apply Chan.Move.stay
  · intro j d hnone hsome
    rw [List.getElem?_eq_none_iff, ← List.length_set (i := i) (a := c'),
      ← List.getElem?_eq_none_iff] at hnone
    rw [hnone] at hsome
    cases hsome

/-- A channel is opened. -/
theorem append {c : Chan} (h : Advance side t cs cs') (hlen : cs'.length = cs.length)
    (hc : Chan.Start side c) :
  Advance side t cs (cs' ++ [c])
  := by
  constructor
  · intro i d hd
    obtain ⟨d', hd', hmove⟩ := h.move i d hd
    use d'
    constructor
    · rw [List.getElem?_append_left (List.getElem?_eq_some_iff.mp hd').1]
      apply hd'
    · apply hmove
  · intro i d' hnone hsome
    rw [List.getElem?_eq_none_iff] at hnone
    rw [List.getElem?_append_right (by omega)] at hsome
    have hd' := List.mem_of_getElem? hsome
    rw [List.mem_singleton] at hd'
    rw [hd']
    apply hc

/-- A task leaves the table. -/
theorem leave {i : Nat} {c : Chan} (hside : side = .controller) (hc : cs[i]? = some c)
    (hended : c.stage = .ended) :
  Advance side t cs (Channels.leave i c.id cs)
  := by
  constructor
  · intro j d hd
    rw [Channels.leave]
    rw [List.getElem?_mapIdx, hd]
    refine ⟨_, rfl, ?_⟩
    dsimp only
    split_ifs with hij hentry
    · subst hij
      rw [hc, Option.some.injEq] at hd
      subst hd
      apply Chan.Move.leave hended hside
    · apply Chan.Move.evict (Chan.listed_of_isEntry hentry) hside
    · apply Chan.Move.stay
  · intro j d' hnone hsome
    rw [Channels.leave] at hsome
    rw [List.getElem?_mapIdx, hnone] at hsome
    cases hsome

/-- What holds of a channel at its start, and is kept by what an end does to it, holds of every
channel. -/
theorem forall_mem (h : Advance side t cs cs') {P Q : Chan → Prop}
    (hstart : ∀ c, Chan.Start side c → Q c)
    (hmove : ∀ c c', P c → Chan.Move side t c c' → Q c') (hP : ∀ c ∈ cs, P c) :
  ∀ c ∈ cs', Q c
  := by
  intro c' hc'
  obtain ⟨i, hi⟩ := List.getElem?_of_mem hc'
  cases hc : cs[i]? with
  | none => exact hstart c' (h.start i c' hc hi)
  | some c =>
      obtain ⟨d, hd, hmoved⟩ := h.move i c hc
      rw [hi, Option.some.injEq] at hd
      subst hd
      apply hmove c c' _ hmoved
      apply hP
      apply List.mem_of_getElem? hc

/-- What is kept by whatever an end does to a channel is kept by the channel at its place. -/
theorem follow (h : Advance side t cs cs') {P : Chan → Prop}
    (hmove : ∀ c c', P c → Chan.Move side t c c' → P c') {i : Nat}
    (hc : ∃ c, cs[i]? = some c ∧ P c) :
  ∃ c', cs'[i]? = some c' ∧ P c'
  := by
  obtain ⟨c, hc, hP⟩ := hc
  obtain ⟨c', hc', hmoved⟩ := h.move i c hc
  use c', hc'
  apply hmove c c' hP hmoved

end Advance

end VynxDesk.Mux
