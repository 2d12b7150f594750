import Mathlib.Data.List.Basic
import VynxDesk.Lib.Run

/-!
# Refreshing the display cache

`schedule_drm_cache_refresh` of `ipc/drm.rs`, called by any number of threads.  A call announces its
request in `PENDING`, and the call that takes `RUNNING` spawns a worker, which enumerates the
displays until no request is pending.  A step is one operation on an atomic, or one on the cache;
the atomics are sequentially consistent, and a spawn succeeds.  An enumeration that panics finds no
displays.
-/

namespace VynxDesk.Drm.Refresh

/-- Where a thread is: a call of `schedule_drm_cache_refresh` until it has returned, or a worker
until it is done. -/
inductive Pc (Display : Type) where
  /-- Before `PENDING.store(true)`. -/
  | announce
  /-- Before `RUNNING.swap(true)`. -/
  | swap
  /-- Before the spawn. -/
  | spawn
  | returned
  /-- Before `PENDING.store(false)`. -/
  | clear
  /-- Before `drm_enumerate_all_displays`. -/
  | enumerate
  | enumerating
  /-- Before the cache is compared with what was found. -/
  | publish (fresh : List Display)
  /-- Before `DRM_DISPLAY_GENERATION.fetch_add(1)`. -/
  | bump
  /-- Before the first `PENDING.load`. -/
  | check
  /-- Before `slot.release()`. -/
  | release
  /-- Before the second `PENDING.load`. -/
  | recheck
  /-- Before `slot.retake()`. -/
  | retake
  | done
  deriving DecidableEq, Repr

namespace Pc

variable {Display : Type}

/-- The thread holds the slot: it has taken `RUNNING`, and has not released it. -/
def holds : Pc Display → Bool
  | .spawn | .clear | .enumerate | .enumerating | .publish _ | .bump | .check | .release => true
  | _ => false

/-- The call has returned, or the worker is done. -/
def left : Pc Display → Bool
  | .returned | .done => true
  | _ => false

end Pc

/-- `RUNNING`, `PENDING`, `DRM_DISPLAY_CACHE`, `DRM_DISPLAY_GENERATION`, and the threads. -/
structure State (Display : Type) where
  running : Bool := false
  pending : Bool := false
  cache : List Display := []
  generation : ℕ := 0
  threads : List (Pc Display) := []
  deriving DecidableEq, Repr

/-- What happens: a call begins, or a thread takes its next step; `fresh` is what an enumeration
that ends with the step has found. -/
inductive Act (Display : Type) where
  | call
  | thread (i : ℕ) (fresh : List Display)
  deriving DecidableEq, Repr

namespace State

variable {Display : Type}

/-- A thread moves on. -/
def move (s : State Display) (i : ℕ) (pc : Pc Display) : State Display :=
  { s with threads := s.threads.set i pc }

section

variable [DecidableEq Display]

/-- The step of the thread `i`, from where it is. -/
def advance (s : State Display) (i : ℕ) (fresh : List Display) :
    Pc Display → Option (State Display)
  | .announce => some ({ s with pending := true }.move i .swap)
  | .swap =>
      if s.running then some (s.move i .returned)
      else some ({ s with running := true }.move i .spawn)
  | .spawn => some { s with threads := s.threads.set i .returned ++ [.clear] }
  | .clear => some ({ s with pending := false }.move i .enumerate)
  | .enumerate => some (s.move i .enumerating)
  | .enumerating => some (s.move i (.publish fresh))
  | .publish fresh =>
      if s.cache = fresh then some (s.move i .check)
      else some ({ s with cache := fresh }.move i .bump)
  | .bump => some ({ s with generation := s.generation + 1 }.move i .check)
  | .check => if s.pending then some (s.move i .clear) else some (s.move i .release)
  | .release => some ({ s with running := false }.move i .recheck)
  | .recheck => if s.pending then some (s.move i .retake) else some (s.move i .done)
  | .retake =>
      if s.running then some (s.move i .done)
      else some ({ s with running := true }.move i .clear)
  | .returned | .done => none

/-- The state after an act, when it can happen. -/
def next (s : State Display) : Act Display → Option (State Display)
  | .call => some { s with threads := s.threads ++ [.announce] }
  | .thread i fresh => s.threads[i]?.bind (s.advance i fresh)

/-- One step. -/
def Step (s : State Display) (act : Act Display) (s' : State Display) : Prop :=
  s.next act = some s'

end

/-- The act makes a request: it stores `true` in `PENDING`. -/
def Requests (s : State Display) : Act Display → Prop
  | .call => False
  | .thread i _ => s.threads[i]? = some .announce

/-- The act begins an enumeration. -/
def Begins (s : State Display) : Act Display → Prop
  | .call => False
  | .thread i _ => s.threads[i]? = some .enumerate

/-- No worker is running, and no caller is inside the function. -/
def Quiet (s : State Display) : Prop := ∀ pc ∈ s.threads, pc.left = true

/-- The slot is held by one thread while `RUNNING` is set, and by none otherwise; and while
`PENDING` is set, some call or worker has not left yet. -/
structure Inv (s : State Display) : Prop where
  slot : s.threads.countP Pc.holds = if s.running then 1 else 0
  watched : s.pending = true → ∃ pc ∈ s.threads, pc.left = false

variable {s s' : State Display} {i : ℕ} {pc pc' : Pc Display} {fresh : List Display}

/-- Moving a thread counts its new place instead of its old one. -/
theorem countP_set (p : Pc Display → Bool) (hpc : s.threads[i]? = some pc) (pc' : Pc Display) :
  (s.threads.set i pc').countP p + (if p pc then 1 else 0) =
    s.threads.countP p + if p pc' then 1 else 0
  := by
  obtain ⟨hi, hget⟩ := List.getElem?_eq_some_iff.mp hpc
  have hpos : (if p pc then 1 else 0) ≤ s.threads.countP p := by
    split_ifs with hholds
    · apply List.countP_pos_iff.mpr
      use pc, List.mem_of_getElem? hpc
    · apply Nat.zero_le
  rw [List.countP_set hi, hget]
  omega

theorem mem_set (hpc : s.threads[i]? = some pc) (pc' : Pc Display) : pc' ∈ s.threads.set i pc'
  := by
  obtain ⟨hi, _⟩ := List.getElem?_eq_some_iff.mp hpc
  apply List.mem_set hi

/-- A thread that does not hold the slot while it is taken leaves another one behind. -/
theorem Inv.exists_other (h : Inv s) (hrunning : s.running = true)
    (hpc : s.threads[i]? = some pc) (hholds : pc.holds = false) (pc' : Pc Display) :
  ∃ other ∈ s.threads.set i pc', other.left = false
  := by
  have hcount := countP_set Pc.holds hpc pc'
  have hslot := h.slot
  rw [hholds, hrunning] at *
  have hpos : 0 < (s.threads.set i pc').countP Pc.holds := by
    simp only [if_true, Bool.false_eq_true, if_false] at hcount hslot
    omega
  obtain ⟨other, hother, hheld⟩ := List.countP_pos_iff.mp hpos
  use other, hother
  cases other
  all_goals first
    | rfl
    | cases hheld

/-- A step of a thread that neither leaves nor changes `RUNNING`. -/
theorem Inv.move (h : Inv s) (hpc : s.threads[i]? = some pc) (hrunning : s'.running = s.running)
    (hthreads : s'.threads = s.threads) (hholds : pc'.holds = pc.holds) (hleft : pc'.left = false) :
  Inv (s'.move i pc')
  := by
  have hcount := countP_set Pc.holds hpc pc'
  rw [hholds] at hcount
  constructor
  · change (s'.threads.set i pc').countP Pc.holds = if s'.running then 1 else 0
    rw [hthreads, hrunning, ← h.slot]
    apply Nat.add_right_cancel hcount
  · intro _
    use pc'
    constructor
    · change pc' ∈ s'.threads.set i pc'
      rw [hthreads]
      apply mem_set hpc pc'
    · exact hleft

/-- A step that takes the slot. -/
theorem Inv.take (h : Inv s) (hpc : s.threads[i]? = some pc) (hfree : s.running = false)
    (hholds : pc.holds = false) (hholds' : pc'.holds = true) (hleft : pc'.left = false) :
  Inv ({ s with running := true }.move i pc')
  := by
  have hcount := countP_set Pc.holds hpc pc'
  have hslot := h.slot
  rw [hholds, hholds'] at hcount
  rw [hfree] at hslot
  constructor
  · change (s.threads.set i pc').countP Pc.holds = 1
    simpa [hslot] using hcount
  · intro _
    use pc', mem_set hpc pc'

/-- A step of a thread that leaves without the slot, while another one holds it. -/
theorem Inv.leave (h : Inv s) (hpc : s.threads[i]? = some pc) (hrunning : s.running = true)
    (hholds : pc.holds = false) (hholds' : pc'.holds = false) :
  Inv (s.move i pc')
  := by
  have hcount := countP_set Pc.holds hpc pc'
  rw [hholds, hholds'] at hcount
  constructor
  · change (s.threads.set i pc').countP Pc.holds = _
    rw [Nat.add_right_cancel hcount]
    exact h.slot
  · intro _
    apply h.exists_other hrunning hpc hholds

/-- A step of a thread that leaves without the slot, while nothing is pending. -/
theorem Inv.finish (h : Inv s) (hpc : s.threads[i]? = some pc) (hpending : s.pending = false)
    (hholds : pc.holds = false) (hholds' : pc'.holds = false) :
  Inv (s.move i pc')
  := by
  have hcount := countP_set Pc.holds hpc pc'
  rw [hholds, hholds'] at hcount
  constructor
  · change (s.threads.set i pc').countP Pc.holds = _
    rw [Nat.add_right_cancel hcount]
    exact h.slot
  · intro hset
    exact absurd (hpending.symm.trans hset) Bool.false_ne_true

/-- A call spawns a worker, to which it leaves the slot. -/
theorem Inv.spawn (h : Inv s) (hpc : s.threads[i]? = some .spawn) :
  Inv { s with threads := s.threads.set i .returned ++ [.clear] }
  := by
  have hcount := countP_set Pc.holds hpc Pc.returned
  constructor
  · change (s.threads.set i .returned ++ [Pc.clear]).countP Pc.holds = _
    rw [List.countP_append, ← h.slot]
    exact hcount
  · intro _
    use Pc.clear
    simp [Pc.left]

/-- A worker releases the slot. -/
theorem Inv.release (h : Inv s) (hpc : s.threads[i]? = some .release) :
  Inv ({ s with running := false }.move i .recheck)
  := by
  have hcount := countP_set Pc.holds hpc Pc.recheck
  have hslot := h.slot
  constructor
  · change (s.threads.set i .recheck).countP Pc.holds = 0
    simp only [Pc.holds, if_true, Bool.false_eq_true, if_false] at hcount
    split_ifs at hslot
    · omega
    · omega
  · intro _
    use Pc.recheck, mem_set hpc Pc.recheck
    rfl

section

variable [DecidableEq Display]

/-- Every step keeps the invariant. -/
theorem Inv.next {act : Act Display} (h : Inv s) (hstep : s.Step act s') :
  Inv s'
  := by
  cases act with
  | call =>
      obtain rfl := Option.some.inj hstep
      constructor
      · simpa [Pc.holds] using h.slot
      · intro _
        use Pc.announce
        simp [Pc.left]
  | thread i fresh =>
      obtain ⟨pc, hpc, hadvance⟩ := Option.bind_eq_some_iff.mp hstep
      cases pc with
      | announce =>
          obtain rfl := Option.some.inj hadvance
          apply h.move hpc <;> rfl
      | swap =>
          simp only [advance] at hadvance
          split_ifs at hadvance with hrunning
          · obtain rfl := Option.some.inj hadvance
            apply h.leave hpc hrunning rfl rfl
          · obtain rfl := Option.some.inj hadvance
            apply h.take hpc (by simpa using hrunning) rfl rfl rfl
      | spawn =>
          obtain rfl := Option.some.inj hadvance
          apply h.spawn hpc
      | returned => cases hadvance
      | clear =>
          obtain rfl := Option.some.inj hadvance
          apply h.move hpc <;> rfl
      | enumerate =>
          obtain rfl := Option.some.inj hadvance
          apply h.move hpc <;> rfl
      | enumerating =>
          obtain rfl := Option.some.inj hadvance
          apply h.move hpc <;> rfl
      | publish found =>
          simp only [advance] at hadvance
          split_ifs at hadvance
          · obtain rfl := Option.some.inj hadvance
            apply h.move hpc <;> rfl
          · obtain rfl := Option.some.inj hadvance
            apply h.move hpc <;> rfl
      | bump =>
          obtain rfl := Option.some.inj hadvance
          apply h.move hpc <;> rfl
      | check =>
          simp only [advance] at hadvance
          split_ifs at hadvance
          · obtain rfl := Option.some.inj hadvance
            apply h.move hpc <;> rfl
          · obtain rfl := Option.some.inj hadvance
            apply h.move hpc <;> rfl
      | release =>
          obtain rfl := Option.some.inj hadvance
          apply h.release hpc
      | recheck =>
          simp only [advance] at hadvance
          split_ifs at hadvance with hpending
          · obtain rfl := Option.some.inj hadvance
            apply h.move hpc <;> rfl
          · obtain rfl := Option.some.inj hadvance
            apply h.finish hpc (by simpa using hpending) <;> rfl
      | retake =>
          simp only [advance] at hadvance
          split_ifs at hadvance with hrunning
          · obtain rfl := Option.some.inj hadvance
            apply h.leave hpc hrunning rfl rfl
          · obtain rfl := Option.some.inj hadvance
            apply h.take hpc (by simpa using hrunning) rfl rfl rfl
      | done => cases hadvance

/-- The step of a thread moves it, and may start another. -/
theorem threads_of_advance (hstep : s.advance i fresh pc = some s') :
  ∃ pc' started, s'.threads = s.threads.set i pc' ++ started
  := by
  cases pc
  all_goals
    simp only [advance] at hstep
    try split_ifs at hstep
  all_goals first
    | obtain rfl := Option.some.inj hstep
      exact ⟨_, [], (List.append_nil _).symm⟩
    | obtain rfl := Option.some.inj hstep
      exact ⟨_, _, rfl⟩
    | cases hstep

/-- The step of a thread leaves the others where they are. -/
theorem advance_other (hstep : s.advance i fresh pc = some s') {j : ℕ} (hj : j ≠ i)
    {other : Pc Display} (hother : s.threads[j]? = some other) :
  s'.threads[j]? = some other
  := by
  obtain ⟨pc', started, hthreads⟩ := threads_of_advance hstep
  have hset : (s.threads.set i pc')[j]? = some other := by
    rw [List.getElem?_set_ne hj.symm]
    exact hother
  rw [hthreads, List.getElem?_append_left (List.getElem?_eq_some_iff.mp hset).1]
  exact hset

/-- A step that takes `PENDING` back is before an enumeration. -/
theorem advance_pending (hpc : s.threads[i]? = some pc) (hstep : s.advance i fresh pc = some s')
    (hpending : s.pending = true) :
  s'.pending = true ∨ s'.threads[i]? = some .enumerate
  := by
  cases pc with
  | clear =>
      right
      obtain rfl := Option.some.inj hstep
      apply List.getElem?_set_self (List.getElem?_eq_some_iff.mp hpc).1
  | _ =>
      left
      simp only [advance] at hstep
      try split_ifs at hstep
      all_goals first
        | obtain rfl := Option.some.inj hstep
          exact hpending
        | obtain rfl := Option.some.inj hstep
          rfl
        | cases hstep

/-- A request is pending, or a worker is about to enumerate. -/
def Awaited (s : State Display) : Prop :=
  s.pending = true ∨ ∃ j : ℕ, s.threads[j]? = some .enumerate

/-- What is awaited stays so until an enumeration begins. -/
theorem Awaited.next {act : Act Display} (h : Awaited s) (hstep : s.Step act s')
    (hbegins : ¬ s.Begins act) :
  Awaited s'
  := by
  cases act with
  | call =>
      obtain rfl := Option.some.inj hstep
      rcases h with hpending | ⟨j, hj⟩
      · left
        exact hpending
      · right
        use j
        rw [List.getElem?_append_left (List.getElem?_eq_some_iff.mp hj).1]
        exact hj
  | thread i fresh =>
      obtain ⟨pc, hpc, hadvance⟩ := Option.bind_eq_some_iff.mp hstep
      rcases h with hpending | ⟨j, hj⟩
      · rcases advance_pending hpc hadvance hpending with hset | hnext
        · left
          exact hset
        · right
          use i
      · right
        use j
        apply advance_other hadvance _ hj
        rintro rfl
        exact hbegins hj

/-- A request that no enumeration has followed is awaited. -/
theorem awaited_of_run {h : List (State Display × Act Display)} (hrun : Run Step {} h s) :
  ∀ before x after, h = before ++ x :: after → x.1.Requests x.2 →
    (∃ y ∈ after, y.1.Begins y.2) ∨ Awaited s
  := by
  induction hrun with
  | nil =>
      intro before x after hsplit
      simp at hsplit
  | @snoc h s s' act _ hstep ih =>
      intro before x after hsplit hrequests
      rcases List.eq_nil_or_concat after with rfl | ⟨after', y, rfl⟩
      · right
        left
        obtain ⟨-, hlast⟩ := List.append_inj' hsplit rfl
        obtain rfl := List.singleton_inj.mp hlast
        cases act with
        | call => exact absurd hrequests not_false
        | thread i fresh =>
            obtain ⟨pc, hpc, hadvance⟩ := Option.bind_eq_some_iff.mp hstep
            obtain rfl := Option.some.inj (hpc.symm.trans hrequests)
            obtain rfl := Option.some.inj hadvance
            rfl
      · rw [List.concat_eq_append, ← List.cons_append, ← List.append_assoc] at hsplit
        obtain ⟨hbefore, hlast⟩ := List.append_inj' hsplit rfl
        obtain rfl := List.singleton_inj.mp hlast
        rw [List.concat_eq_append]
        by_cases hbegins : s.Begins act
        · left
          use (s, act)
          simpa using hbegins
        · rcases ih before x after' hbefore hrequests with ⟨y, hy, hbegun⟩ | hawaited
          · left
            use y, List.mem_append_left _ hy
          · right
            apply hawaited.next hstep hbegins

/-- In every run of any number of calls and their workers, at most one thread is between taking and
releasing the slot; and when no worker is running and no caller is inside the function, nothing is
pending, and an enumeration has begun after every request. -/
theorem singleFlight_of_run {h : List (State Display × Act Display)} (hrun : Run Step {} h s) :
  s.threads.countP Pc.holds ≤ 1 ∧
  (s.Quiet → s.pending = false ∧ ∀ before x after, h = before ++ x :: after →
    x.1.Requests x.2 → ∃ y ∈ after, y.1.Begins y.2)
  := by
  have hinv : Inv s := by
    apply hrun.invariant Inv
    · exact ⟨rfl, nofun⟩
    · intro s act s' hinv hstep
      apply hinv.next hstep
  constructor
  · rw [hinv.slot]
    split_ifs
    · exact Nat.le_refl 1
    · exact Nat.zero_le 1
  · intro hquiet
    have hpending : s.pending = false := by
      by_contra hset
      obtain ⟨pc, hpc, hleft⟩ := hinv.watched (by simpa using hset)
      exact absurd ((hquiet pc hpc).symm.trans hleft) (Bool.noConfusion)
    apply And.intro hpending
    intro before x after hsplit hrequests
    rcases awaited_of_run hrun before x after hsplit hrequests with hbegun | hset | ⟨j, hj⟩
    · exact hbegun
    · exact absurd (hpending.symm.trans hset) Bool.false_ne_true
    · have hleft := hquiet _ (List.mem_of_getElem? hj)
      cases hleft

end

/-- A call announces its request just before a worker releases the slot, and takes the slot just
before the worker would take it back. -/
def sampleActs : List (Act ℕ) :=
  .call :: (List.replicate 3 (.thread 0 []) ++ List.replicate 6 (.thread 1 [7]) ++
    [.call, .thread 2 [], .thread 1 [], .thread 2 []] ++ List.replicate 2 (.thread 1 []) ++
    .thread 2 [] :: List.replicate 7 (.thread 3 [7]))

theorem singleFlight_crossing :
  ∃ h s, Run Step ({} : State ℕ) h s ∧ s.generation = 1 ∧ s.threads.length = 4 ∧
    s.threads.countP Pc.holds ≤ 1 ∧ s.pending = false
  := by
  obtain ⟨h, s, hrun, htest⟩ := Run.exists_of_traceM next ({} : State ℕ) sampleActs
    (fun _ s => s.threads.all Pc.left && s.generation == 1 && s.threads.length == 4) (by decide +kernel)
  obtain ⟨⟨hquiet, hgeneration⟩, hlength⟩ :
      ((∀ pc ∈ s.threads, pc.left = true) ∧ s.generation = 1) ∧ s.threads.length = 4 := by
    simpa using htest
  have hflight := singleFlight_of_run hrun
  use h, s, hrun, hgeneration, hlength, hflight.1
  apply (hflight.2 hquiet).1

end State

end VynxDesk.Drm.Refresh
