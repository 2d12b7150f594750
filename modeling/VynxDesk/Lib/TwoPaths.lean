import Mathlib.Data.Set.Basic

/-!
# Inputs on two paths

What holds the inputs of one kind, keys or buttons.  An input event goes to a device, as a frame
that carries the state of all inputs of its kind, or else to a second path.  The sender keeps a
mirror of the device's state, from which it makes the next frame, and the set of the inputs whose
press went to the second path, to which it then leaves their release as well.

Nothing released stays held on the second path.  Nothing released stays held on the device exactly
when each act meets a condition: a release that is left to the second path is of an input that the
device does not hold, and a frame that opens a device holds no other input that was released
(`Paths.Step.clear_iff`).
-/

namespace VynxDesk.TwoPaths

variable {ι : Type*}

/-- A set with an input put in or taken out. -/
def mark (A : Set ι) (x : ι) (b : Bool) : Set ι := {y | (y = x ∧ b = true) ∨ (y ≠ x ∧ y ∈ A)}

theorem mem_mark_self {A : Set ι} {x : ι} {b : Bool} :
  x ∈ mark A x b ↔ b = true
  := by
  simp [mark]

theorem mem_mark_of_ne {A : Set ι} {x y : ι} {b : Bool} (h : y ≠ x) :
  y ∈ mark A x b ↔ y ∈ A
  := by
  simp [mark, h]

theorem mark_false_of_notMem {A : Set ι} {x : ι} (h : x ∉ A) :
  mark A x false = A
  := by
  ext y
  by_cases hy : y = x
  · rw [hy, mem_mark_self]
    simp [h]
  · rw [mem_mark_of_ne hy]

/-- What the sender knows: the mirror, what the open device holds, if there is one, and the inputs
whose release it leaves to the second path. -/
structure Held (ι : Type*) where
  kept : Set ι
  carried : Option (Set ι)
  left : Set ι

/-- A frame: of another kind, the state in the mirror, that state after an event, or the release of
everything. -/
inductive Frame (ι : Type*) where
  | other
  | state
  | event (x : ι) (down : Bool)
  | clear

namespace Frame

/-- What a frame made from the mirror `kept` makes of the inputs held. -/
def holds (kept held : Set ι) : Frame ι → Set ι
  | other => held
  | state => kept
  | event x down => mark kept x down
  | clear => ∅

/-- The event of a frame. -/
def input : Frame ι → Option (ι × Bool)
  | event x down => some (x, down)
  | _ => none

/-- The inputs left to the second path, when the frame failed. -/
def leaves (left : Set ι) : Frame ι → Set ι
  | event x true => mark left x true
  | _ => left

/-- The more is held before a frame, the more is held after it. -/
theorem holds_subset {kept held held' : Set ι} (h : held ⊆ held') (frame : Frame ι) :
  frame.holds kept held ⊆ frame.holds kept held'
  := by
  cases frame with
  | other => exact h
  | state => apply subset_rfl
  | event => apply subset_rfl
  | clear => apply subset_rfl

/-- An input that a frame has no event of is held after it when the mirror or the device held it. -/
theorem held_of_holds {kept held : Set ι} {frame : Frame ι} {x : ι}
    (hx : x ∈ frame.holds kept held) (hother : ∀ down, frame.input ≠ some (x, down)) :
  x ∈ kept ∨ x ∈ held
  := by
  cases frame with
  | other =>
      right
      exact hx
  | state =>
      left
      exact hx
  | event y down =>
      have hne : x ≠ y := by
        rintro rfl
        apply hother down
        rfl
      left
      apply (mem_mark_of_ne hne).mp hx
  | clear => cases hx

/-- An input that a frame releases is not held after it. -/
theorem not_holds_of_released {kept held : Set ι} {frame : Frame ι} {x : ι}
    (h : frame.input = some (x, false)) :
  x ∉ frame.holds kept held
  := by
  cases frame with
  | event y down =>
      obtain ⟨rfl, rfl⟩ := by simpa [input] using h
      intro hx
      exact absurd (mem_mark_self.mp hx) Bool.false_ne_true
  | _ => cases h

end Frame

/-- What became of a frame: it was written to the open device, it was written to a device opened
for it, or there is no device, and the mirror is what it is. -/
inductive Fate (ι : Type*) where
  | written
  | reopened
  | failed (kept : Set ι)

/-- An act of the sender. -/
inductive Act (ι : Type*) where
  | idle
  | leave (x : ι)
  | send (frame : Frame ι) (fate : Fate ι)

namespace Act

/-- The event of an act. -/
def input : Act ι → Option (ι × Bool)
  | idle => none
  | leave x => some (x, false)
  | send frame _ => frame.input

/-- The event of the act is passed on to the second path. -/
def Passes : Act ι → Prop
  | idle => False
  | leave _ => True
  | send _ (.failed _) => True
  | send _ _ => False

end Act

/-- What an act makes of what the sender knows. -/
inductive Held.Step (p : Held ι) : Act ι → Held ι → Prop where
  | idle : Step p .idle p
  | leave {x : ι} (hleft : x ∈ p.left) :
      Step p (.leave x) { p with left := mark p.left x false }
  | written {frame : Frame ι} {held : Set ι} (hopen : p.carried = some held)
      (hsent : ∀ x, frame.input = some (x, false) → x ∉ p.left) :
      Step p (.send frame .written)
        ⟨frame.holds p.kept p.kept, some (frame.holds p.kept held), p.left⟩
  | reopened {frame : Frame ι} (hclosed : p.carried = none)
      (hsent : ∀ x, frame.input = some (x, false) → x ∉ p.left) :
      Step p (.send frame .reopened) ⟨∅, some (frame.holds p.kept ∅), p.left⟩
  | failed {frame : Frame ι} {kept : Set ι}
      (hsent : ∀ x, frame.input = some (x, false) → x ∉ p.left) :
      Step p (.send frame (.failed kept)) ⟨kept, none, frame.leaves p.left⟩

namespace Held.Step

variable {p p' : Held ι} {frame : Frame ι}

theorem of_idle (h : p' = p) :
  Held.Step p .idle p'
  := by
  rw [h]
  apply Held.Step.idle

theorem of_leave {x : ι} (hx : x ∈ p.left) (hkept : p'.kept = p.kept)
    (hcarried : p'.carried = p.carried) (hleft : p'.left = mark p.left x false) :
  Held.Step p (.leave x) p'
  := by
  obtain ⟨kept', carried', left'⟩ := p'
  obtain rfl : kept' = _ := hkept
  obtain rfl : carried' = _ := hcarried
  obtain rfl : left' = _ := hleft
  apply Held.Step.leave hx

theorem of_written {held : Set ι} (hopen : p.carried = some held)
    (hsent : ∀ x, frame.input = some (x, false) → x ∉ p.left)
    (hkept : p'.kept = frame.holds p.kept p.kept)
    (hcarried : p'.carried = some (frame.holds p.kept held)) (hleft : p'.left = p.left) :
  Held.Step p (.send frame .written) p'
  := by
  obtain ⟨kept', carried', left'⟩ := p'
  obtain rfl : kept' = _ := hkept
  obtain rfl : carried' = _ := hcarried
  obtain rfl : left' = _ := hleft
  apply Held.Step.written hopen hsent

theorem of_reopened (hclosed : p.carried = none)
    (hsent : ∀ x, frame.input = some (x, false) → x ∉ p.left) (hkept : p'.kept = ∅)
    (hcarried : p'.carried = some (frame.holds p.kept ∅)) (hleft : p'.left = p.left) :
  Held.Step p (.send frame .reopened) p'
  := by
  obtain ⟨kept', carried', left'⟩ := p'
  obtain rfl : kept' = _ := hkept
  obtain rfl : carried' = _ := hcarried
  obtain rfl : left' = _ := hleft
  apply Held.Step.reopened hclosed hsent

theorem of_failed (hsent : ∀ x, frame.input = some (x, false) → x ∉ p.left)
    (hcarried : p'.carried = none) (hleft : p'.left = frame.leaves p.left) :
  Held.Step p (.send frame (.failed p'.kept)) p'
  := by
  obtain ⟨kept', carried', left'⟩ := p'
  obtain rfl : carried' = _ := hcarried
  obtain rfl : left' = _ := hleft
  apply Held.Step.failed hsent

/-- What is left to the second path is not sent as a release. -/
theorem sent {fate : Fate ι} (h : Held.Step p (.send frame fate) p') :
  ∀ x, frame.input = some (x, false) → x ∉ p.left
  := by
  cases h with
  | written _ hsent => exact hsent
  | reopened _ hsent => exact hsent
  | failed hsent => exact hsent

/-- What is left to the second path was. -/
theorem mem_left {x : ι} (h : Held.Step p (.leave x) p') :
  x ∈ p.left
  := by
  cases h with
  | leave hleft => exact hleft

end Held.Step

/-- What the sender knows, with the inputs held on the second path and the inputs whose last event
was a release. -/
structure Paths (ι : Type*) extends Held ι where
  second : Set ι
  lifted : Set ι

namespace Paths

/-- What an act makes of the paths. -/
structure Step (p : Paths ι) (act : Act ι) (p' : Paths ι) : Prop where
  held : Held.Step p.toHeld act p'.toHeld
  quiet : act.input = none → p'.second = p.second ∧ p'.lifted = p.lifted
  event : ∀ x down, act.input = some (x, down) → p'.lifted = mark p.lifted x !down
  passed : ∀ x down, act.input = some (x, down) → act.Passes → p'.second = mark p.second x down
  taken : ∀ x down, act.input = some (x, down) → ¬ act.Passes → p'.second = p.second

/-- What holds of the paths whatever is done. -/
structure Sound (p : Paths ι) : Prop where
  second : p.second = p.left
  pressed : ∀ x ∈ p.left, x ∉ p.lifted
  mirror : ∀ held, p.carried = some held → p.kept ⊆ held

/-- No input whose last event was a release is held on either path. -/
structure Clear (p : Paths ι) : Prop where
  device : ∀ held, p.carried = some held → ∀ x ∈ p.lifted, x ∉ held
  second : ∀ x ∈ p.lifted, x ∉ p.second

end Paths

/-- The condition under which an act leaves nothing released held on the device. -/
def Act.Meets (p : Paths ι) : Act ι → Prop
  | leave x => ∀ held, p.carried = some held → x ∉ held
  | send frame .reopened =>
      ∀ x ∈ frame.holds p.kept ∅, (∀ down, frame.input ≠ some (x, down)) → x ∉ p.lifted
  | _ => True

namespace Paths

variable {p p' : Paths ι} {act : Act ι}

/-- The inputs whose last event was a release, after an act. -/
theorem Step.mem_lifted (hstep : Step p act p') {x : ι} :
  x ∈ p'.lifted ↔
    act.input = some (x, false) ∨ (x ∈ p.lifted ∧ ∀ down, act.input ≠ some (x, down))
  := by
  cases hinput : act.input with
  | none =>
      rw [(hstep.quiet hinput).2]
      simp
  | some event =>
      obtain ⟨y, down⟩ := event
      rw [hstep.event y down hinput]
      by_cases hx : x = y
      · rw [hx, mem_mark_self]
        cases down
        · simp
        · simp
      · rw [mem_mark_of_ne hx]
        simp [Ne.symm hx]

/-- The inputs left to the second path, after an act. -/
theorem Step.left_of_other (hstep : Step p act p') {x : ι}
    (hother : ∀ down, act.input ≠ some (x, down)) :
  x ∈ p'.left ↔ x ∈ p.left
  := by
  obtain ⟨⟨kept, carried, left⟩, second, lifted⟩ := p
  obtain ⟨⟨kept', carried', left'⟩, second', lifted'⟩ := p'
  have hheld := hstep.held
  cases hheld with
  | idle => rfl
  | @leave y =>
      apply mem_mark_of_ne
      rintro rfl
      apply hother false
      rfl
  | written => rfl
  | reopened => rfl
  | @failed frame =>
      cases frame with
      | event y down =>
          cases down with
          | false => rfl
          | true =>
              apply mem_mark_of_ne
              rintro rfl
              apply hother true
              rfl
      | _ => rfl

/-- The release of an input is not left to the second path after it. -/
theorem Step.left_of_released (hstep : Step p act p') {x : ι}
    (hinput : act.input = some (x, false)) :
  x ∉ p'.left
  := by
  obtain ⟨⟨kept, carried, left⟩, second, lifted⟩ := p
  obtain ⟨⟨kept', carried', left'⟩, second', lifted'⟩ := p'
  have hheld := hstep.held
  cases hheld with
  | idle => cases hinput
  | leave =>
      obtain rfl := by simpa [Act.input] using hinput
      intro hx
      exact absurd (mem_mark_self.mp hx) Bool.false_ne_true
  | written _ hsent => apply hsent x hinput
  | reopened _ hsent => apply hsent x hinput
  | @failed frame _ hsent =>
      cases frame with
      | event y down =>
          obtain ⟨rfl, rfl⟩ := by simpa [Act.input, Frame.input] using hinput
          apply hsent y hinput
      | _ => cases hinput

/-- What is held on the second path and what is left to it stay the same. -/
theorem Step.second_eq (hstep : Step p act p') (h : p.second = p.left) :
  p'.second = p'.left
  := by
  obtain ⟨⟨kept, carried, left⟩, second, lifted⟩ := p
  obtain ⟨⟨kept', carried', left'⟩, second', lifted'⟩ := p'
  obtain ⟨hheld, hquiet, _, hpassed, htaken⟩ := hstep
  cases hheld with
  | idle => exact (hquiet rfl).1.trans h
  | leave =>
      have hsecond := hpassed _ _ rfl trivial
      rw [h] at hsecond
      exact hsecond
  | @written frame =>
      cases hinput : frame.input with
      | none => exact (hquiet hinput).1.trans h
      | some event => exact (htaken event.1 event.2 hinput id).trans h
  | @reopened frame =>
      cases hinput : frame.input with
      | none => exact (hquiet hinput).1.trans h
      | some event => exact (htaken event.1 event.2 hinput id).trans h
  | @failed frame _ hsent =>
      cases frame with
      | event x down =>
          have hsecond := hpassed x down rfl trivial
          rw [h] at hsecond
          cases down with
          | true => exact hsecond
          | false =>
              rw [mark_false_of_notMem (hsent x rfl)] at hsecond
              exact hsecond
      | _ => exact (hquiet rfl).1.trans h

/-- The mirror holds no more than the device does. -/
theorem Step.mirror (hstep : Step p act p')
    (h : ∀ held, p.carried = some held → p.kept ⊆ held) :
  ∀ held, p'.carried = some held → p'.kept ⊆ held
  := by
  obtain ⟨⟨kept, carried, left⟩, second, lifted⟩ := p
  obtain ⟨⟨kept', carried', left'⟩, second', lifted'⟩ := p'
  intro held hopen
  have hheld := hstep.held
  cases hheld with
  | idle => apply h _ hopen
  | leave => apply h _ hopen
  | @written frame held' hbefore =>
      obtain rfl := by simpa using hopen
      apply frame.holds_subset (h _ hbefore)
  | reopened => apply Set.empty_subset
  | failed => cases hopen

theorem Step.sound (hstep : Step p act p') (h : Sound p) :
  Sound p'
  := by
  constructor
  · apply hstep.second_eq h.second
  · intro x hleft hlifted
    rcases hstep.mem_lifted.mp hlifted with hinput | ⟨hlifted, hother⟩
    · exact hstep.left_of_released hinput hleft
    · apply h.pressed x _ hlifted
      apply (hstep.left_of_other hother).mp hleft
  · apply hstep.mirror h.mirror

/-- Nothing released is held on the second path. -/
theorem Sound.clear_second (h : Sound p) {x : ι} (hx : x ∈ p.lifted) :
  x ∉ p.second
  := by
  rw [h.second]
  intro hleft
  exact h.pressed x hleft hx

/-- Nothing released is held after an act exactly when the act meets the condition. -/
theorem Step.clear_iff (hstep : Step p act p') (h : Sound p) (hclear : Clear p) :
  Clear p' ↔ act.Meets p
  := by
  have hdevice : Clear p' ↔ ∀ held, p'.carried = some held → ∀ x ∈ p'.lifted, x ∉ held := by
    constructor
    · intro hafter
      exact hafter.device
    · intro hafter
      constructor
      · exact hafter
      · intro x hx
        apply (hstep.sound h).clear_second hx
  rw [hdevice]
  have hlifted := @hstep.mem_lifted
  obtain ⟨⟨kept, carried, left⟩, second, lifted⟩ := p
  obtain ⟨⟨kept', carried', left'⟩, second', lifted'⟩ := p'
  have hheld := hstep.held
  cases hheld with
  | idle =>
      simp only [Act.Meets, iff_true]
      intro held hopen x hx
      rcases hlifted.mp hx with hinput | ⟨hbefore, _⟩
      · cases hinput
      · apply hclear.device held hopen x hbefore
  | @leave y =>
      constructor
      · intro hafter held hopen
        apply hafter held hopen
        apply hlifted.mpr
        left
        rfl
      · intro hmeets held hopen x hx
        rcases hlifted.mp hx with hinput | ⟨hbefore, _⟩
        · obtain rfl := by simpa [Act.input] using hinput
          apply hmeets held hopen
        · apply hclear.device held hopen x hbefore
  | @written frame held hopen =>
      simp only [Act.Meets, iff_true]
      intro held' hopen' x hx
      obtain rfl := by simpa using hopen'
      rcases hlifted.mp hx with hinput | ⟨hbefore, hother⟩
      · apply Frame.not_holds_of_released hinput
      · intro hholds
        have hnot := hclear.device held hopen x hbefore
        rcases Frame.held_of_holds hholds hother with hkept | hheld
        · exact hnot (h.mirror held hopen hkept)
        · exact hnot hheld
  | @reopened frame =>
      constructor
      · intro hafter x hholds hother hbefore
        apply hafter _ rfl x _ hholds
        apply hlifted.mpr
        right
        exact ⟨hbefore, hother⟩
      · intro hmeets held hopen x hx
        obtain rfl := by simpa using hopen
        rcases hlifted.mp hx with hinput | ⟨hbefore, hother⟩
        · apply Frame.not_holds_of_released hinput
        · intro hholds
          exact hmeets x hholds hother hbefore
  | failed =>
      simp only [Act.Meets, iff_true]
      intro held hopen
      cases hopen

end Paths

end VynxDesk.TwoPaths
