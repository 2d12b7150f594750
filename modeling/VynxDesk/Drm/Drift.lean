import VynxDesk.Drm.Remap

/-!
# The flag of the remap

`WAYLAND_LAYOUT_DRIFTED` turns the remap of `Drm/Remap` on.  The poll of `server/display_service.rs`
publishes it last, from what it has observed before; `update_uinput_resolution` of
`server/wayland.rs` applies ranges, and makes the layout of a session the baseline, at the same
time, and the flag stays set while a poll observes another layout.  Where polls and inits keep
apart, a flag that is set is backed by the layout and by the range of the device (`backed_of_run`).

`update_mouse_resolution` fails, too, when the device adopts the range but the acknowledgement is
late: a range whose application failed, or is under way, may take effect at any time or never.
-/

namespace VynxDesk.Drm.Drift

open Remap

/-- Where a call of `update_uinput_resolution` stands: before it reads the layout, before it
compares the ranges, before it applies one, before it records it, before it clears the flag, before
it resets the layout. -/
inductive Init where
  | reading
  | comparing (rect : Bounds) (layout : List DisplayRect)
  | applying (rect : Bounds) (layout : List DisplayRect)
  | recording (rect : Bounds) (layout : List DisplayRect)
  | clearing (layout : List DisplayRect)
  | resetting (layout : List DisplayRect)
  | returned
  deriving DecidableEq, Repr

/-- Whether a range is applied and not recorded. -/
def Init.records : Init → Bool
  | .recording _ _ => true
  | _ => false

/-- Whether the range is being applied. -/
def Init.applies (rect : Bounds) : Init → Bool
  | .applying rect' _ => rect' = rect
  | _ => false

/-- Whether the flag is cleared and the layout not reset. -/
def Init.resets : Init → Bool
  | .resetting _ => true
  | _ => false

/-- Where the polling thread stands. -/
inductive Place where
  | idle
  | observing
  | taking
  | owing
  | promoting
  | clearing
  | resetting
  | setting
  | comparing
  | applying
  | recording
  | publishing
  deriving DecidableEq, Repr

/-- The variables of a poll. -/
structure Poll where
  place : Place
  rect : Bounds
  liveRects : List DisplayRect
  liveChanged : Bool
  drifted : Bool
  rangeOk : Bool
  deriving DecidableEq, Repr

/-- The poll has found or applied its range. -/
def Poll.placed (p : Poll) : Bool :=
  match p.place with
  | .recording => true
  | .publishing => p.rangeOk
  | _ => false

/-- `WAYLAND_UINPUT_RECT`, `WAYLAND_LAYOUT`, `WAYLAND_LAYOUT_DRIFTED`, `PROMOTION_OWED`, the range
of the device, the ranges whose application failed, and the threads.  Of the history: whether the
layout was reset since the poll observed it, whether another range took effect since the poll found
or applied its own, and whether one took effect without success since the last application that
succeeded. -/
structure System where
  uinputRect : Option Bounds
  layout : WaylandLayout
  drifted : Bool
  promotionOwed : Bool
  device : Option Bounds
  failed : List Bounds
  inits : List Init
  poll : Poll
  wasReset : Bool
  wasMoved : Bool
  strayed : Bool
  deriving DecidableEq, Repr

/-- The process as it starts. -/
def System.start : System where
  uinputRect := none
  layout := .empty
  drifted := false
  promotionOwed := false
  device := none
  failed := []
  inits := []
  poll := ⟨.idle, .start, [], false, false, false⟩
  wasReset := false
  wasMoved := false
  strayed := false

namespace System

/-- A call moves on. -/
def setInit (s : System) (i : ℕ) (init : Init) : System := { s with inits := s.inits.set i init }

/-- What a call finds: the rectangle of the compositor, and the layout that is cached when the call
asks for it; or the range `drm` of the DRM displays. -/
def initRead (wl cached : List WaylandDisplayInfo) (drm : Option Bounds) : Init :=
  match desktopRectOf wl with
  | some rect => .comparing rect (logicalRectsOf cached)
  | none =>
      match drm with
      | some rect => .comparing rect []
      | none => .returned

/-- Whether the range may take effect on the device without success: its application failed, or it is
under way. -/
def mayLand (s : System) (rect : Bounds) : Bool :=
  s.failed.contains rect || s.inits.any (Init.applies rect)
    || (s.poll.place = .applying && s.poll.rect = rect)

/-- The device adopts a range that nobody is told of. -/
def land (s : System) (rect : Bounds) : System :=
  { s with device := some rect, wasMoved := true, strayed := true }

/-- The next step of a call; `ok` says whether the application of a range succeeds. -/
def initNext (s : System) (i : ℕ) (ok : Bool) : Init → Option System
  | .reading | .returned => none
  | .comparing rect layout =>
      some (s.setInit i
        (if s.uinputRect = some rect then .clearing layout else .applying rect layout))
  | .applying rect layout =>
      if ok then
        some { s.setInit i (.recording rect layout) with
          device := some rect, wasMoved := true, strayed := false }
      else some { s.setInit i .returned with failed := rect :: s.failed }
  | .recording rect layout =>
      some { s.setInit i (.clearing layout) with uinputRect := some rect }
  | .clearing layout => some { s.setInit i (.resetting layout) with drifted := false }
  | .resetting layout =>
      some { s.setInit i .returned with layout := s.layout.resetBaseline layout, wasReset := true }

/-- The polling thread moves on. -/
def setPlace (s : System) (place : Place) : System :=
  { s with poll := { s.poll with place := place } }

/-- A poll begins: it reads the live layout. -/
def pollRead (s : System) (wl : List WaylandDisplayInfo) : System :=
  match desktopRectOf wl with
  | some rect => { s with poll := ⟨.observing, rect, logicalRectsOf wl, false, false, false⟩ }
  | none => s

/-- A poll observes the layout. -/
def pollObserve (s : System) (snapshotMissing : Bool) (generation : ℕ) : System :=
  let live := s.poll.liveRects
  { s with
    layout := s.layout.observe live
    poll := { s.poll with
      place := .taking
      liveChanged := s.layout.edge live snapshotMissing generation
      drifted := s.layout.baseline ≠ [] ∧ live ≠ [] ∧ s.layout.baseline ≠ live }
    wasReset := false }

/-- The next step of a poll.  What `yes` says depends on the place: whether the latch
`UNROTATED_SNAPSHOT_PENDING` was set, whether DRM is available, whether there is a login screen,
whether the application of the range succeeds. -/
def pollNext (s : System) (yes : Bool) : Option System :=
  match s.poll.place with
  | .idle | .observing => none
  | .taking =>
      some { s with
        poll := { s.poll with place := .owing, liveChanged := s.poll.liveChanged || yes } }
  | .owing =>
      some { s with
        promotionOwed := s.promotionOwed || s.poll.liveChanged
        poll := { s.poll with place := .promoting } }
  | .promoting =>
      if s.promotionOwed ∧ yes then some { s.setPlace .clearing with promotionOwed := false }
      else some (s.setPlace .comparing)
  | .clearing => some { s.setPlace .resetting with drifted := false }
  | .resetting =>
      some { s.setPlace .setting with layout := s.layout.resetBaseline s.poll.liveRects }
  | .setting =>
      some { s with
        layout := { s.layout with live := s.poll.liveRects }
        poll := { s.poll with place := .comparing, drifted := false } }
  | .comparing =>
      if yes then some (s.setPlace .idle)
      else if s.uinputRect = some s.poll.rect then
        some { s with
          poll := { s.poll with place := .publishing, rangeOk := true }
          wasMoved := false }
      else some (s.setPlace .applying)
  | .applying =>
      if yes then
        some { s.setPlace .recording with
          device := some s.poll.rect, wasMoved := false, strayed := false }
      else
        some { s with
          failed := s.poll.rect :: s.failed
          poll := { s.poll with place := .publishing, rangeOk := false } }
  | .recording =>
      some { s with
        uinputRect := some s.poll.rect
        poll := { s.poll with place := .publishing, rangeOk := true } }
  | .publishing => some { s.setPlace .idle with drifted := s.poll.drifted && s.poll.rangeOk }

end System

/-- The steps: a capturer is noted; a call of `update_uinput_resolution` begins, reads the layout,
and goes on; a poll begins, observes the layout, and goes on; a range takes effect without
success. -/
inductive Label where
  | noteCapturer (builtOn : List DisplayRect) (builtGen : ℕ)
  | call
  | initRead (i : ℕ) (wl cached : List WaylandDisplayInfo) (drm : Option Bounds)
  | initNext (i : ℕ) (ok : Bool)
  | pollRead (wl : List WaylandDisplayInfo)
  | pollObserve (snapshotMissing : Bool) (generation : ℕ)
  | pollNext (yes : Bool)
  | land (rect : Bounds)
  deriving DecidableEq, Repr

/-- One step. -/
def step (s : System) : Label → Option System
  | .noteCapturer builtOn builtGen =>
      some { s with layout := s.layout.noteCapturer builtOn builtGen }
  | .call => some { s with inits := s.inits ++ [.reading] }
  | .initRead i wl cached drm =>
      match s.inits[i]? with
      | some .reading => some (s.setInit i (System.initRead wl cached drm))
      | _ => none
  | .initNext i ok => s.inits[i]?.bind (s.initNext i ok)
  | .pollRead wl => if s.poll.place = .idle then some (s.pollRead wl) else none
  | .pollObserve snapshotMissing generation =>
      if s.poll.place = .observing then some (s.pollObserve snapshotMissing generation) else none
  | .pollNext yes => s.pollNext yes
  | .land rect => if s.mayLand rect then some (s.land rect) else none

/-- The steps as a relation. -/
def Step (s : System) (i : Label) (s' : System) : Prop := step s i = some s'

/-- A flag that is set is backed: the live layout is not empty, it is not the baseline, and the
range of the device is its desktop rectangle. -/
def Backed (s : System) : Prop :=
  s.drifted = true → s.layout.live ≠ [] ∧ s.layout.live ≠ s.layout.baseline
    ∧ ∃ box, s.device = some box ∧ BoundingBox s.layout.live box

/-- Some call has applied a range and not recorded it. -/
def System.records (s : System) : Bool := s.inits.any Init.records

/-- Some call has cleared the flag and not reset the layout. -/
def System.resets (s : System) : Bool := s.inits.any Init.resets

/-- The bounds of a layout. -/
def boundsOf (rects : List DisplayRect) : Bounds :=
  rects.foldl (fun bounds r => bounds.add r.x r.y r.w r.h) .start

/-- Polls and calls keep apart, and the flag is not set when something changes.  While it is set, a
poll observes only a layout that is not the baseline and has the bounds of the live one, and no
other range takes effect.  A call or a poll applies a range, and a poll finds its own recorded, only
when no other one is applied and not recorded; and a poll finds its range recorded only when since
the last application that succeeded no range took effect without success.  A poll that sets the flag
does so when since its observation no layout was reset, when no range took effect since it found or
applied its own, and when no call is about to reset the layout. -/
def System.apart (s : System) : Label → Bool
  | .pollObserve _ _ =>
      !s.drifted || (s.poll.liveRects != s.layout.baseline
        && boundsOf s.poll.liveRects == boundsOf s.layout.live)
  | .initNext i ok =>
      match s.inits[i]? with
      | some (.applying _ _) =>
          !ok || (!s.drifted && !s.records && s.poll.place != .recording)
      | _ => true
  | .pollNext yes =>
      match s.poll.place with
      | .comparing => yes || s.uinputRect != some s.poll.rect || (!s.records && !s.strayed)
      | .applying => !yes || !s.records
      | .publishing =>
          !s.poll.drifted || !s.poll.rangeOk || (!s.wasReset && !s.wasMoved && !s.resets)
      | _ => true
  | .land rect => !s.drifted || s.device == some rect
  | _ => true

/-- The layout that the poll observed is still the one to be compared with the baseline. -/
def Place.watches : Place → Bool
  | .idle | .observing | .setting => false
  | _ => true

/-- The poll has observed a layout. -/
def Place.observed : Place → Bool
  | .idle | .observing => false
  | _ => true

theorem Place.observed_of_watches {place : Place} (h : place.watches = true) :
  place.observed = true ∧ place ≠ .idle
  := by
  revert h
  cases place
  all_goals decide

/-- One range at a time is applied and not recorded; where there is none, the recorded one is that
of the device, unless another one took effect without success. -/
structure Ranges (s : System) : Prop where
  init : ∀ {i : ℕ} {rect : Bounds} {layout : List DisplayRect},
    s.inits[i]? = some (Init.recording rect layout) →
    (s.strayed = false → s.device = some rect) ∧ s.poll.place ≠ .recording
      ∧ ∀ (j : ℕ) (init : Init), s.inits[j]? = some init → init.records = true → j = i
  poll : s.poll.place = .recording → s.strayed = false → s.device = some s.poll.rect
  recorded : s.records = false → s.poll.place ≠ .recording → s.strayed = false →
    s.uinputRect = s.device

/-- What holds where polls and calls keep apart. -/
structure Inv (s : System) : Prop extends Ranges s where
  backed : Backed s
  cleared : s.drifted = true →
    s.resets = false ∧ s.poll.place ≠ .resetting ∧ s.poll.place ≠ .setting
  box : s.poll.place ≠ .idle →
    s.poll.liveRects ≠ [] ∧ BoundingBox s.poll.liveRects s.poll.rect
  watch : s.poll.place.watches = true → s.poll.drifted = true → s.wasReset = false →
    s.layout.live = s.poll.liveRects ∧ s.poll.liveRects ≠ s.layout.baseline
  ranged : s.poll.place.observed = true → s.drifted = true → s.device = some s.poll.rect
  found : s.poll.placed = true → s.wasMoved = false → s.device = some s.poll.rect

section

variable {s s' : System} {i : ℕ} {init : Init} {rect : Bounds} {layout : List DisplayRect}

theorem records_eq_false_iff :
  s.records = false ↔
    ∀ (j : ℕ) (init : Init), s.inits[j]? = some init → init.records = false
  := by
  rw [System.records, List.any_eq_false]
  constructor
  · intro h j init hj
    exact Bool.eq_false_of_not_eq_true (h init (List.mem_of_getElem? hj))
  · intro h init hinit
    obtain ⟨j, hj⟩ := List.mem_iff_getElem?.mp hinit
    rw [h j init hj]
    exact Bool.false_ne_true

theorem getElem?_setInit (hget : s.inits[i]? = some init) (new : Init) (j : ℕ) :
  (s.setInit i new).inits[j]? = if i = j then some new else s.inits[j]?
  := by
  obtain ⟨hi, -⟩ := List.getElem?_eq_some_iff.mp hget
  change (s.inits.set i new)[j]? = _
  rw [List.getElem?_set]
  simp only [hi, if_true]

theorem resets_setInit (hresets : s.resets = false) {new : Init} (hnew : new.resets = false) :
  (s.setInit i new).resets = false
  := by
  rw [System.resets, List.any_eq_false] at *
  intro init hinit
  rcases List.mem_or_eq_of_mem_set hinit with hmem | rfl
  · exact hresets init hmem
  · rw [hnew]
    exact Bool.false_ne_true

theorem initRead_early (wl cached : List WaylandDisplayInfo) (drm : Option Bounds) :
  (System.initRead wl cached drm).records = false ∧ (System.initRead wl cached drm).resets = false
  := by
  rw [System.initRead.eq_def]
  split
  next => exact ⟨rfl, rfl⟩
  next =>
      split
      next => exact ⟨rfl, rfl⟩
      next => exact ⟨rfl, rfl⟩

/-! ## The ranges -/

namespace Ranges

/-- A step that neither applies nor records a range. -/
theorem keep (h : Ranges s)
    (hinits : ∀ {j : ℕ} {init : Init}, init.records = true →
      (s'.inits[j]? = some init ↔ s.inits[j]? = some init))
    (hdevice : s'.device = s.device) (hrect : s'.uinputRect = s.uinputRect)
    (hstrayed : s'.strayed = s.strayed)
    (hpoll : s'.poll = s.poll ∨ s.poll.place ≠ .recording ∧ s'.poll.place ≠ .recording) :
  Ranges s'
  := by
  have hplace : s'.poll.place = .recording ↔ s.poll.place = .recording := by
    rcases hpoll with heq | ⟨hold, hnew⟩
    · rw [heq]
    · exact ⟨fun h => absurd h hnew, fun h => absurd h hold⟩
  constructor
  · intro i rect layout hi
    obtain ⟨happlied, hother, hsingle⟩ := h.init ((hinits rfl).mp hi)
    rw [hdevice, hstrayed]
    refine ⟨happlied, fun hrec => hother (hplace.mp hrec), ?_⟩
    intro j init hj hrecords
    exact hsingle j init ((hinits hrecords).mp hj) hrecords
  · intro hrec
    rcases hpoll with heq | ⟨-, hnew⟩
    · rw [hdevice, hstrayed, heq]
      exact h.poll (hplace.mp hrec)
    · cases hnew hrec
  · intro hnone hnot
    rw [hrect, hdevice, hstrayed]
    apply h.recorded
    · rw [records_eq_false_iff] at hnone ⊢
      intro j init hj
      by_contra hrecords
      rw [Bool.not_eq_false] at hrecords
      rw [hnone j init ((hinits hrecords).mpr hj)] at hrecords
      cases hrecords
    · exact fun hrec => hnot (hplace.mpr hrec)

/-- A call moves on, without a range. -/
theorem setInit (h : Ranges s) (hget : s.inits[i]? = some init) (hold : init.records = false)
    {new : Init} (hnew : new.records = false) :
  Ranges (s.setInit i new)
  := by
  refine h.keep ?_ rfl rfl rfl (Or.inl rfl)
  intro j other hrecords
  rw [getElem?_setInit hget]
  split
  next heq =>
      subst heq
      rw [hget, Option.some_inj, Option.some_inj]
      constructor
      · rintro rfl
        rw [hrecords] at hnew
        cases hnew
      · rintro rfl
        rw [hrecords] at hold
        cases hold
  next => rfl

/-- A call applies a range. -/
theorem apply (hget : s.inits[i]? = some init) (hnone : s.records = false)
    (hplace : s.poll.place ≠ .recording) :
  Ranges { s.setInit i (.recording rect layout) with
    device := some rect, wasMoved := true, strayed := false }
  := by
  rw [records_eq_false_iff] at hnone
  have hsingle : ∀ (j : ℕ) (init : Init),
      (s.setInit i (.recording rect layout)).inits[j]? = some init → init.records = true →
      j = i ∧ init = .recording rect layout := by
    intro j init hj hrecords
    rw [getElem?_setInit hget] at hj
    split at hj
    next heq => exact ⟨heq.symm, (Option.some.inj hj).symm⟩
    next =>
        rw [hnone j init hj] at hrecords
        cases hrecords
  constructor
  · intro j rect' layout' hj
    obtain ⟨rfl, heq⟩ := hsingle j _ hj rfl
    cases heq
    exact ⟨fun _ => rfl, hplace, fun j init hj hrecords => (hsingle j init hj hrecords).1⟩
  · intro hrec
    cases hplace hrec
  · intro hnone
    rw [records_eq_false_iff] at hnone
    have hrecorded := hnone i (.recording rect layout)
    change (s.setInit i (.recording rect layout)).inits[i]? = _ → _ at hrecorded
    rw [getElem?_setInit hget, if_pos rfl] at hrecorded
    cases hrecorded rfl

/-- A call records its range. -/
theorem record (h : Ranges s) (hget : s.inits[i]? = some (.recording rect layout)) :
  Ranges { s.setInit i (.clearing layout) with uinputRect := some rect }
  := by
  obtain ⟨happlied, hplace, hsingle⟩ := h.init hget
  constructor
  · intro j rect' layout' hj
    change (s.setInit i (.clearing layout)).inits[j]? = _ at hj
    rw [getElem?_setInit hget] at hj
    split at hj
    next => cases hj
    next hother => cases hother (hsingle j _ hj rfl).symm
  · intro hrec
    cases hplace hrec
  · intro _ _ hkept
    exact (happlied hkept).symm

/-- A poll records its range. -/
theorem pollRecord (h : Ranges s) (hplace : s.poll.place = .recording) :
  Ranges { s with
    uinputRect := some s.poll.rect
    poll := { s.poll with place := .publishing, rangeOk := true } }
  := by
  refine ⟨?_, ?_, fun _ _ hkept => (h.poll hplace hkept).symm⟩
  · intro i rect layout hi
    cases (h.init hi).2.1 hplace
  · rintro ⟨⟩

/-- A range takes effect without success. -/
theorem land (h : Ranges s) (rect : Bounds) :
  Ranges (s.land rect)
  := by
  refine ⟨?_, nofun, nofun⟩
  intro i rect' layout hi
  exact ⟨nofun, (h.init hi).2⟩

end Ranges

/-! ## The flag -/

theorem resets_of_getElem? (hget : s.inits[i]? = some (.resetting layout)) : s.resets = true
  := List.any_eq_true.mpr ⟨_, List.mem_of_getElem? hget, rfl⟩

namespace Inv

theorem start : Inv System.start
  := by
  refine ⟨⟨?_, ?_, fun _ _ _ => rfl⟩, ?_, ?_, ?_, ?_, ?_, ?_⟩
  · rintro i rect layout ⟨⟩
  · rintro ⟨⟩
  · rintro ⟨⟩
  · rintro ⟨⟩
  · intro hplace
    cases hplace rfl
  · rintro ⟨⟩
  · rintro ⟨⟩
  · rintro ⟨⟩

theorem noteCapturer (h : Inv s) (builtOn : List DisplayRect) (builtGen : ℕ) :
  Inv { s with layout := s.layout.noteCapturer builtOn builtGen }
  := by
  have hlive := s.layout.live_noteCapturer builtOn builtGen
  have hbaseline := s.layout.baseline_noteCapturer builtOn builtGen
  refine ⟨⟨h.init, h.poll, h.recorded⟩, ?_, h.cleared, h.box, ?_, h.ranged, h.found⟩
  · change s.drifted = true → (s.layout.noteCapturer builtOn builtGen).live ≠ [] ∧ _
    rw [hlive, hbaseline]
    exact h.backed
  · change s.poll.place.watches = true → s.poll.drifted = true → s.wasReset = false →
      (s.layout.noteCapturer builtOn builtGen).live = s.poll.liveRects ∧ _
    rw [hlive, hbaseline]
    exact h.watch

/-- A call begins or moves on, without a range. -/
theorem calls (h : Inv s) {inits : List Init} {uinputRect : Option Bounds}
    (hranges : Ranges { s with inits := inits, uinputRect := uinputRect })
    (hresets : s.resets = false → inits.any Init.resets = false) :
  Inv { s with inits := inits, uinputRect := uinputRect }
  := by
  refine ⟨hranges, h.backed, ?_, h.box, h.watch, h.ranged, h.found⟩
  intro hdrifted
  obtain ⟨hnone, hplace⟩ := h.cleared hdrifted
  exact ⟨hresets hnone, hplace⟩

theorem setInit (h : Inv s) (hget : s.inits[i]? = some init) (hold : init.records = false)
    {new : Init} (hrecords : new.records = false) (hresets : new.resets = false) :
  Inv (s.setInit i new)
  := h.calls (h.toRanges.setInit hget hold hrecords) fun hnone => resets_setInit hnone hresets

theorem call (h : Inv s) : Inv { s with inits := s.inits ++ [.reading] }
  := by
  refine h.calls (h.toRanges.keep ?_ rfl rfl rfl (Or.inl rfl)) ?_
  · intro j init hrecords
    change (s.inits ++ [Init.reading])[j]? = some init ↔ _
    rw [List.getElem?_append]
    split
    next => rfl
    next hlast =>
        rw [List.getElem?_eq_none (Nat.le_of_not_lt hlast)]
        constructor
        · intro hget
          obtain rfl := List.mem_singleton.mp (List.mem_of_getElem? hget)
          cases hrecords
        · rintro ⟨⟩
  · intro hnone
    rw [List.any_append]
    exact Bool.or_eq_false_iff.mpr ⟨hnone, rfl⟩

/-- A call applies a range while the flag is not set. -/
theorem apply (h : Inv s) (hget : s.inits[i]? = some (.applying rect layout))
    (hdrifted : s.drifted = false) (hnone : s.records = false)
    (hplace : s.poll.place ≠ .recording) :
  Inv { s.setInit i (.recording rect layout) with
    device := some rect, wasMoved := true, strayed := false }
  := by
  have hnot : ¬ s.drifted = true := by
    rw [hdrifted]
    exact Bool.false_ne_true
  refine ⟨Ranges.apply hget hnone hplace, ?_, ?_, h.box, h.watch, ?_, ?_⟩
  · intro hset
    cases hnot hset
  · intro hset
    cases hnot hset
  · intro _ hset
    cases hnot hset
  · rintro _ ⟨⟩

/-- A call clears the flag. -/
theorem clear (h : Inv s) (hget : s.inits[i]? = some (.clearing layout)) :
  Inv { s.setInit i (.resetting layout) with drifted := false }
  := by
  have hranges : Ranges (s.setInit i (.resetting layout)) := h.toRanges.setInit hget rfl rfl
  refine ⟨⟨hranges.init, hranges.poll, hranges.recorded⟩, ?_, ?_, h.box, h.watch, ?_, h.found⟩
  · rintro ⟨⟩
  · rintro ⟨⟩
  · rintro _ ⟨⟩

/-- A call resets the layout. -/
theorem reset (h : Inv s) (hget : s.inits[i]? = some (.resetting layout)) :
  Inv { s.setInit i .returned with layout := s.layout.resetBaseline layout, wasReset := true }
  := by
  have hnot : ¬ s.drifted = true := by
    intro hset
    have hnone := (h.cleared hset).1
    rw [resets_of_getElem? hget] at hnone
    cases hnone
  have hranges : Ranges (s.setInit i .returned) := h.toRanges.setInit hget rfl rfl
  refine ⟨⟨hranges.init, hranges.poll, hranges.recorded⟩, ?_, ?_, h.box, ?_, h.ranged, h.found⟩
  · intro hset
    cases hnot hset
  · intro hset
    cases hnot hset
  · rintro _ _ ⟨⟩

/-- A poll reads the layout. -/
theorem pollRead (h : Inv s) (hplace : s.poll.place = .idle) (wl : List WaylandDisplayInfo) :
  Inv (s.pollRead wl)
  := by
  rw [System.pollRead]
  split
  next rect hrect =>
      have hnot : s.poll.place ≠ .recording := by
        rw [hplace]
        rintro ⟨⟩
      refine ⟨h.toRanges.keep (fun _ => Iff.rfl) rfl rfl rfl (Or.inr ⟨hnot, ?_⟩), h.backed, ?_, ?_, ?_,
        ?_, ?_⟩
      · rintro ⟨⟩
      · intro hset
        refine ⟨(h.cleared hset).1, ?_, ?_⟩
        · rintro ⟨⟩
        · rintro ⟨⟩
      · intro _
        refine ⟨?_, boundingBox_of_desktopRectOf hrect⟩
        change logicalRectsOf wl ≠ []
        rw [Ne, logicalRectsOf_eq_nil, ← desktopRectOf_eq_none, hrect]
        rintro ⟨⟩
      · rintro ⟨⟩
      · rintro ⟨⟩
      · rintro ⟨⟩
  next => exact h

/-- A poll observes the layout it has read. -/
theorem pollObserve (h : Inv s) (hplace : s.poll.place = .observing) (snapshotMissing : Bool)
    (generation : ℕ)
    (hapart : s.drifted = true → s.poll.liveRects ≠ s.layout.baseline
      ∧ boundsOf s.poll.liveRects = boundsOf s.layout.live) :
  Inv (s.pollObserve snapshotMissing generation)
  := by
  have hnot : s.poll.place ≠ .recording := by
    rw [hplace]
    rintro ⟨⟩
  have hbox := h.box (by rw [hplace]; rintro ⟨⟩)
  -- the device has the bounds of the live layout, which are those of the observed one
  have hdevice (hset : s.drifted = true) : s.device = some s.poll.rect := by
    obtain ⟨hlive, -, box, hdevice, hbounds⟩ := h.backed hset
    rw [hdevice, hbounds.unique (boundingBox_foldl hlive), hbox.2.unique (boundingBox_foldl hbox.1)]
    exact congrArg some (hapart hset).2.symm
  refine ⟨h.toRanges.keep (fun _ => Iff.rfl) rfl rfl rfl (Or.inr ⟨hnot, ?_⟩), ?_, ?_,
    fun _ => hbox, ?_, ?_, ?_⟩
  · rintro ⟨⟩
  · intro hset
    exact ⟨hbox.1, (hapart hset).1, s.poll.rect, hdevice hset, hbox.2⟩
  · intro hset
    refine ⟨(h.cleared hset).1, ?_, ?_⟩
    · rintro ⟨⟩
    · rintro ⟨⟩
  · intro _ hdrifted _
    exact ⟨rfl, (of_decide_eq_true hdrifted).2.2.symm⟩
  · intro _ hset
    exact hdevice hset
  · rintro ⟨⟩

/-- A poll moves on, and nothing else does. -/
theorem pollMove (h : Inv s) (hwatches : s.poll.place.watches = true)
    (hnot : s.poll.place ≠ .recording) (place : Place) (liveChanged rangeOk promotionOwed : Bool)
    (hplace : place ∉ [Place.recording, .resetting, .setting])
    (hok : place = .publishing → rangeOk = false) :
  Inv { s with
    poll := { s.poll with place := place, liveChanged := liveChanged, rangeOk := rangeOk }
    promotionOwed := promotionOwed }
  := by
  obtain ⟨hobserved, hidle⟩ := Place.observed_of_watches hwatches
  simp only [List.mem_cons, List.not_mem_nil, or_false, not_or] at hplace
  obtain ⟨hrecording, hresetting, hsetting⟩ := hplace
  refine ⟨h.toRanges.keep (fun _ => Iff.rfl) rfl rfl rfl (Or.inr ⟨hnot, hrecording⟩), h.backed, ?_,
    fun _ => h.box hidle, fun _ => h.watch hwatches, fun _ => h.ranged hobserved, ?_⟩
  · intro hset
    exact ⟨(h.cleared hset).1, hresetting, hsetting⟩
  · intro hplaced
    rw [Poll.placed] at hplaced
    split at hplaced
    next heq => cases hrecording heq
    next heq =>
        have hrange : rangeOk = true := hplaced
        rw [hok heq] at hrange
        cases hrange
    next => cases hplaced

/-- A poll that promotes the layout clears the flag. -/
theorem pollClear (h : Inv s) (hplace : s.poll.place = .clearing) :
  Inv { s.setPlace .resetting with drifted := false }
  := by
  have hnot : s.poll.place ≠ .recording := by
    rw [hplace]
    rintro ⟨⟩
  have hranges : Ranges { s.setPlace .resetting with drifted := false } :=
    h.toRanges.keep (fun _ => Iff.rfl) rfl rfl rfl (Or.inr ⟨hnot, by rintro ⟨⟩⟩)
  refine ⟨hranges, ?_, ?_, fun _ => h.box (by rw [hplace]; rintro ⟨⟩), ?_, ?_, ?_⟩
  · rintro ⟨⟩
  · rintro ⟨⟩
  · exact fun _ => h.watch (by rw [hplace]; rfl)
  · rintro _ ⟨⟩
  · rintro ⟨⟩

/-- While the layout is promoted, the flag is not set and the poll will not set it. -/
theorem promote (h : Inv s) (hplace : s.poll.place = .resetting ∨ s.poll.place = .setting)
    {layout : WaylandLayout} {poll : Poll} (hrect : poll.rect = s.poll.rect)
    (hlive : poll.liveRects = s.poll.liveRects) (hrecording : poll.place ≠ .recording)
    (hpublishing : poll.place ≠ .publishing)
    (hdrifted : poll.place.watches = true → poll.drifted = false) :
  Inv { s with layout := layout, poll := poll }
  := by
  have hset : ¬ s.drifted = true := by
    intro hset
    obtain ⟨-, hresetting, hsetting⟩ := h.cleared hset
    exact hplace.elim hresetting hsetting
  have hnot : s.poll.place ≠ .recording := by
    rcases hplace with hplace | hplace
    all_goals
      rw [hplace]
      rintro ⟨⟩
  have hbox : s.poll.place ≠ .idle := by
    rcases hplace with hplace | hplace
    all_goals
      rw [hplace]
      rintro ⟨⟩
  refine ⟨h.toRanges.keep (fun _ => Iff.rfl) rfl rfl rfl (Or.inr ⟨hnot, hrecording⟩),
    ?_, ?_, ?_, ?_, ?_, ?_⟩
  · exact fun hd => absurd hd hset
  · exact fun hd => absurd hd hset
  · intro _
    change poll.liveRects ≠ [] ∧ BoundingBox poll.liveRects poll.rect
    rw [hlive, hrect]
    exact h.box hbox
  · intro hwatches hd
    rw [hdrifted hwatches] at hd
    cases hd
  · exact fun _ hd => absurd hd hset
  · intro hplaced
    change poll.placed = true at hplaced
    rw [Poll.placed] at hplaced
    split at hplaced
    next heq => cases hrecording heq
    next heq => cases hpublishing heq
    next => cases hplaced

/-- A poll has its range in place. -/
theorem pollFound (h : Inv s) (hplace : s.poll.place = .comparing ∨ s.poll.place = .recording)
    {uinputRect : Option Bounds} {wasMoved : Bool}
    (hdevice : wasMoved = false → s.device = some s.poll.rect)
    (hranges : Ranges { s with
      uinputRect := uinputRect
      poll := { s.poll with place := .publishing, rangeOk := true }
      wasMoved := wasMoved }) :
  Inv { s with
    uinputRect := uinputRect
    poll := { s.poll with place := .publishing, rangeOk := true }
    wasMoved := wasMoved }
  := by
  have hwatches : s.poll.place.watches = true := by
    rcases hplace with hplace | hplace
    all_goals
      rw [hplace]
      rfl
  obtain ⟨hobserved, hidle⟩ := Place.observed_of_watches hwatches
  refine ⟨hranges, h.backed, ?_, fun _ => h.box hidle, fun _ => h.watch hwatches,
    fun _ => h.ranged hobserved, fun _ => hdevice⟩
  intro hset
  refine ⟨(h.cleared hset).1, ?_, ?_⟩
  · rintro ⟨⟩
  · rintro ⟨⟩

/-- A poll applies its range. -/
theorem pollApply (h : Inv s) (hplace : s.poll.place = .applying) (hnone : s.records = false) :
  Inv { s.setPlace .recording with
    device := some s.poll.rect, wasMoved := false, strayed := false }
  := by
  have hwatches : s.poll.place.watches = true := by
    rw [hplace]
    rfl
  obtain ⟨hobserved, hidle⟩ := Place.observed_of_watches hwatches
  refine ⟨⟨?_, fun _ _ => rfl, ?_⟩, ?_, ?_, fun _ => h.box hidle, fun _ => h.watch hwatches,
    fun _ _ => rfl, fun _ _ => rfl⟩
  · intro i rect layout hi
    have hrecords := records_eq_false_iff.mp hnone i _ hi
    cases hrecords
  · intro _ hnot
    cases hnot rfl
  · intro hset
    obtain ⟨hlive, hother, box, hdevice, hbox⟩ := h.backed hset
    -- the flag is set, so the device has this range already
    have hsame := (h.ranged hobserved hset).symm.trans hdevice
    exact ⟨hlive, hother, box, hsame, hbox⟩
  · intro hset
    refine ⟨(h.cleared hset).1, ?_, ?_⟩
    · rintro ⟨⟩
    · rintro ⟨⟩

/-- A range takes effect without success: while the flag is set, it is that of the device. -/
theorem land (h : Inv s) {rect : Bounds} (hapart : s.drifted = true → s.device = some rect) :
  Inv (s.land rect)
  := by
  refine ⟨h.toRanges.land rect, ?_, h.cleared, h.box, h.watch, ?_, fun _ hmoved => nomatch hmoved⟩
  · intro hset
    obtain ⟨hlive, hother, box, hdevice, hbox⟩ := h.backed hset
    exact ⟨hlive, hother, box, (hapart hset).symm.trans hdevice, hbox⟩
  · intro hobserved hset
    exact (hapart hset).symm.trans (h.ranged hobserved hset)

/-- The ranges whose application failed do not matter. -/
theorem withFailed (h : Inv s) (failed : List Bounds) : Inv { s with failed := failed }
  := ⟨⟨h.init, h.poll, h.recorded⟩, h.backed, h.cleared, h.box, h.watch, h.ranged, h.found⟩

/-- A poll publishes what it has found. -/
theorem publish (h : Inv s) (hplace : s.poll.place = .publishing)
    (hapart : s.poll.drifted = true → s.poll.rangeOk = true →
      s.wasReset = false ∧ s.wasMoved = false ∧ s.resets = false) :
  Inv { s.setPlace .idle with drifted := s.poll.drifted && s.poll.rangeOk }
  := by
  have hnot : s.poll.place ≠ .recording := by
    rw [hplace]
    rintro ⟨⟩
  have hranges : Ranges { s.setPlace .idle with drifted := s.poll.drifted && s.poll.rangeOk } :=
    h.toRanges.keep (fun _ => Iff.rfl) rfl rfl rfl (Or.inr ⟨hnot, by rintro ⟨⟩⟩)
  obtain ⟨hlive, hbox⟩ := h.box (by rw [hplace]; rintro ⟨⟩)
  refine ⟨hranges, ?_, ?_, fun hidle => absurd rfl hidle, ?_, ?_, ?_⟩
  · intro hset
    obtain ⟨hdrifted, hok⟩ := Bool.and_eq_true_iff.mp hset
    obtain ⟨hkept, hunmoved, -⟩ := hapart hdrifted hok
    obtain ⟨hsame, hother⟩ := h.watch (by rw [hplace]; rfl) hdrifted hkept
    change s.layout.live ≠ [] ∧ s.layout.live ≠ s.layout.baseline
      ∧ ∃ box, s.device = some box ∧ BoundingBox s.layout.live box
    rw [hsame]
    have hplaced : s.poll.placed = true := by
      rw [Poll.placed, hplace]
      exact hok
    exact ⟨hlive, hother, s.poll.rect, h.found hplaced hunmoved, hbox⟩
  · intro hset
    obtain ⟨hdrifted, hok⟩ := Bool.and_eq_true_iff.mp hset
    refine ⟨(hapart hdrifted hok).2.2, ?_, ?_⟩
    · rintro ⟨⟩
    · rintro ⟨⟩
  · rintro ⟨⟩
  · rintro ⟨⟩
  · rintro ⟨⟩

theorem initNext (h : Inv s) {ok : Bool} (hapart : s.apart (.initNext i ok) = true)
    (hget : s.inits[i]? = some init) (hnext : s.initNext i ok init = some s') :
  Inv s'
  := by
  cases init with
  | reading => cases hnext
  | returned => cases hnext
  | comparing rect layout =>
      cases hnext
      split
      next => exact h.setInit hget rfl rfl rfl
      next => exact h.setInit hget rfl rfl rfl
  | applying rect layout =>
      rw [System.apart, hget] at hapart
      rw [System.initNext] at hnext
      split at hnext
      next hok =>
          cases hnext
          simp only [hok, Bool.not_true, Bool.false_or, Bool.and_eq_true, Bool.not_eq_true',
            bne_iff_ne] at hapart
          obtain ⟨⟨hdrifted, hnone⟩, hplace⟩ := hapart
          exact h.apply hget hdrifted hnone hplace
      next =>
          cases hnext
          exact (h.setInit hget rfl rfl rfl).withFailed _
  | recording rect layout =>
      cases hnext
      exact h.calls (h.toRanges.record hget) fun hnone => resets_setInit hnone rfl
  | clearing layout =>
      cases hnext
      exact h.clear hget
  | resetting layout =>
      cases hnext
      exact h.reset hget

theorem pollNext (h : Inv s) {yes : Bool} (hapart : s.apart (.pollNext yes) = true)
    (hnext : s.pollNext yes = some s') :
  Inv s'
  := by
  rw [System.pollNext] at hnext
  rw [System.apart] at hapart
  cases hplace : s.poll.place
  all_goals
    rw [hplace] at hnext hapart
    dsimp only at hnext hapart
  case idle => cases hnext
  case observing => cases hnext
  case taking =>
    cases hnext
    exact h.pollMove (by rw [hplace]; rfl) (by rw [hplace]; rintro ⟨⟩) _ _ _ _ (by decide)
      (by rintro ⟨⟩)
  case owing =>
    cases hnext
    exact h.pollMove (by rw [hplace]; rfl) (by rw [hplace]; rintro ⟨⟩) _ _ _ _ (by decide)
      (by rintro ⟨⟩)
  case promoting =>
    have hmove := h.pollMove (by rw [hplace]; rfl) (by rw [hplace]; rintro ⟨⟩)
    split at hnext
    next =>
        cases hnext
        exact hmove _ _ _ _ (by decide) (by rintro ⟨⟩)
    next =>
        cases hnext
        exact hmove _ _ _ _ (by decide) (by rintro ⟨⟩)
  case clearing =>
    cases hnext
    exact h.pollClear hplace
  case resetting =>
    cases hnext
    exact h.promote (Or.inl hplace) rfl rfl (by rintro ⟨⟩) (by rintro ⟨⟩) (by rintro ⟨⟩)
  case setting =>
    cases hnext
    exact h.promote (Or.inr hplace) rfl rfl (by rintro ⟨⟩) (by rintro ⟨⟩) (fun _ => rfl)
  case comparing =>
    have hnot : s.poll.place ≠ .recording := by
      rw [hplace]
      rintro ⟨⟩
    have hmove := h.pollMove (by rw [hplace]; rfl) hnot
    split at hnext
    next =>
        cases hnext
        exact hmove _ _ _ _ (by decide) (by rintro ⟨⟩)
    next hyes =>
        split at hnext
        next hrect =>
            cases hnext
            rw [Bool.eq_false_of_not_eq_true hyes, hrect, bne_self_eq_false, Bool.false_or,
              Bool.false_or, Bool.and_eq_true, Bool.not_eq_true', Bool.not_eq_true'] at hapart
            have hdevice := (h.recorded hapart.1 hnot hapart.2).symm.trans hrect
            exact h.pollFound (Or.inl hplace) (fun _ => hdevice)
              (h.toRanges.keep (fun _ => Iff.rfl) rfl rfl rfl (Or.inr ⟨hnot, by rintro ⟨⟩⟩))
        next =>
            cases hnext
            exact hmove _ _ _ _ (by decide) (by rintro ⟨⟩)
  case applying =>
    split at hnext
    next hyes =>
        cases hnext
        rw [hyes, Bool.not_true, Bool.false_or, Bool.not_eq_true'] at hapart
        exact h.pollApply hplace hapart
    next =>
        cases hnext
        exact (h.pollMove (by rw [hplace]; rfl) (by rw [hplace]; rintro ⟨⟩) .publishing _ _ _
          (by decide) (fun _ => rfl)).withFailed _
  case recording =>
    cases hnext
    have hplaced : s.poll.placed = true := by
      rw [Poll.placed, hplace]
    exact h.pollFound (Or.inr hplace) (h.found hplaced) (h.toRanges.pollRecord hplace)
  case publishing =>
    cases hnext
    apply h.publish hplace
    intro hdrifted hok
    simpa only [hdrifted, hok, Bool.not_true, Bool.false_or, Bool.and_eq_true, Bool.not_eq_true',
      and_assoc] using hapart

/-- Every step that meets the condition keeps what is known. -/
theorem step (h : Inv s) {l : Label} (hapart : s.apart l = true) (hstep : Step s l s') :
  Inv s'
  := by
  rw [Step] at hstep
  cases l with
  | noteCapturer builtOn builtGen =>
      cases hstep
      exact h.noteCapturer builtOn builtGen
  | call =>
      cases hstep
      exact h.call
  | initRead i wl cached drm =>
      rw [Drift.step] at hstep
      split at hstep
      next hget =>
          cases hstep
          obtain ⟨hrecords, hresets⟩ := initRead_early wl cached drm
          exact h.setInit hget rfl hrecords hresets
      next => cases hstep
  | initNext i ok =>
      obtain ⟨init, hget, hnext⟩ := Option.bind_eq_some_iff.mp hstep
      exact h.initNext hapart hget hnext
  | pollRead wl =>
      rw [Drift.step] at hstep
      split at hstep
      next hplace =>
          cases hstep
          exact h.pollRead hplace wl
      next => cases hstep
  | pollObserve snapshotMissing generation =>
      rw [Drift.step] at hstep
      split at hstep
      next hplace =>
          cases hstep
          apply h.pollObserve hplace
          intro hset
          simpa only [System.apart, hset, Bool.not_true, Bool.false_or, Bool.and_eq_true,
            bne_iff_ne, beq_iff_eq] using hapart
      next => cases hstep
  | pollNext yes => exact h.pollNext hapart hstep
  | land rect =>
      rw [Drift.step] at hstep
      split at hstep
      next =>
          cases hstep
          apply h.land
          intro hset
          simpa only [System.apart, hset, Bool.not_true, Bool.false_or, beq_iff_eq] using hapart
      next => cases hstep

end Inv

end

/-- In every run in which polls and calls keep apart, a flag that is set is backed. -/
theorem backed_of_run {h : List (System × Label)} {s : System} (hrun : Run Step .start h s)
    (hapart : ∀ x ∈ h, x.1.apart x.2 = true) :
  (∀ x ∈ h, Backed x.1) ∧ Backed s
  := by
  exact hrun.forall_of (fun s l => s.apart l = true) Inv Backed Inv.start (fun s hs => hs.backed)
    (fun s l s' hs hl hstep => hs.step hl hstep) hapart

/-- A display of the compositor, at the left edge of the desktop. -/
def display (width : Int32) : WaylandDisplayInfo where
  name := "DP-1"
  x := 0
  y := 0
  width := width
  height := 1080
  logicalSize := none
  transform := 0

/-- A call of `update_uinput_resolution`. -/
def calls (wl : List WaylandDisplayInfo) : List Label :=
  .call :: .initRead 0 wl wl none :: List.replicate 5 (.initNext 0 true)

/-- A poll, while DRM is not available. -/
def polls (wl : List WaylandDisplayInfo) : List Label :=
  .pollRead wl :: .pollObserve false 0 :: List.replicate 4 (.pollNext false)
    ++ List.replicate 3 (.pollNext true)

/-- A poll that fails to apply its range, which the device then adopts all the same. -/
def latePolls (wl : List WaylandDisplayInfo) (rect : Bounds) : List Label :=
  .pollRead wl :: .pollObserve false 0 :: List.replicate 6 (.pollNext false) ++ [.land rect]

/-- A poll applies its range late, and the next one with success. -/
theorem backed_drifted :
  ∃ h s, Run Step .start h s ∧ s.drifted = true ∧ Backed s
  := by
  obtain ⟨h, s, hrun, htest⟩ := Run.exists_of_traceM step .start
    (calls [display 1920] ++ latePolls [display 1280] ⟨0, 1280, 0, 1080⟩ ++ polls [display 1280])
    (fun h s => s.drifted && h.all fun x => x.1.apart x.2) (by decide +kernel)
  rw [Bool.and_eq_true, List.all_eq_true] at htest
  exact ⟨h, s, hrun, htest.1, (backed_of_run hrun htest.2).2⟩

/-- The flag is set, and a poll observes another layout. -/
theorem not_backed :
  ∃ h s, Run Step .start h s ∧ ¬ Backed s
  := by
  obtain ⟨h, s, hrun, htest⟩ := Run.exists_of_traceM step .start
    (calls [display 1920] ++ polls [display 1280]
      ++ [.pollRead [display 640], .pollObserve false 0])
    (fun _ s => s.drifted && s.layout.live == logicalRectsOf [display 640]
      && s.device == some ⟨0, 1280, 0, 1080⟩) (by decide +kernel)
  simp only [Bool.and_eq_true, beq_iff_eq] at htest
  obtain ⟨⟨hset, hlive⟩, hdevice⟩ := htest
  refine ⟨h, s, hrun, ?_⟩
  intro hbacked
  obtain ⟨-, -, box, hbox, hbounds⟩ := hbacked hset
  rw [hdevice] at hbox
  cases hbox
  have hright := hbounds.right.mem
  rw [hlive] at hright
  revert hright
  decide

end VynxDesk.Drm.Drift
