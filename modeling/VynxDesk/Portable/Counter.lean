import Mathlib.Algebra.Group.Nat.Defs
import VynxDesk.Portable.Frames

/-!
# The counter that tells of news

A writer in shared memory counts with `increase_counter`, and a reader asks with `counter_ready`
whether there is something new (`mod utils` of `src/server/portable_service.rs`).  The thread of the
cursor counts without waiting for the reader (`run_get_cursor_info`), and its counter goes round at
`i32::MAX`.  The branch of `increase_counter` for a writer that has come round to the reader
compares the counter of the writer with itself and is never taken (`increaseCounter_eq`), so that
the reader is told of nothing when exactly whole rounds are unread (`notified_iff`).
-/

namespace VynxDesk.PortableFrames

/-- `counter_ready`: whether the counters differ, and the cells behind it. -/
def Shmem.counterReady (m : Shmem) : Bool × Shmem :=
  if m.CounterEqual then (false, m) else (true, m.copyCounter)

/-- The calls of the two parties. -/
inductive Call where
  | increaseCounter
  | counterReady
  deriving DecidableEq, Repr

/-- What the calls of `counter_ready` return, the first one first. -/
def answers (m : Shmem) : List Call → List Bool
  | [] => []
  | .increaseCounter :: calls => answers m.increaseCounter calls
  | .counterReady :: calls => m.counterReady.1 :: answers m.counterReady.2 calls

/-- How often `increase_counter` was called between each call of `counter_ready` and the one before
it, when it had been called `n` times already. -/
def unread (n : ℕ) : List Call → List ℕ
  | [] => []
  | .increaseCounter :: calls => unread (n + 1) calls
  | .counterReady :: calls => n :: unread 0 calls

/-- Each call of `counter_ready` returns whether `increase_counter` was called since the one before
it. -/
def Notified (m : Shmem) (calls : List Call) : Prop :=
  answers m calls = (unread 0 calls).map fun n => decide (0 < n)

/-! ### The writer is some calls ahead of the reader -/

/-- The counters are those of `0..=i32::MAX`, and the writer is `n` calls ahead. -/
structure Shmem.Ahead (m : Shmem) (n : ℕ) : Prop where
  wptr : m.wptr < 2 ^ 31
  rptr : m.rptr < 2 ^ 31
  ahead : m.wptr = (m.rptr + n) % 2 ^ 31

variable {m : Shmem} {n : ℕ}

/-- Only the counter of the writer changes. -/
theorem increaseCounter_eq (m : Shmem) :
  m.increaseCounter = { m with wptr := if m.wptr = 2 ^ 31 - 1 then 0 else m.wptr + 1 }
  := by
  rw [Shmem.increaseCounter]
  apply if_neg
  split_ifs with hmax
  · rw [hmax]
    decide
  · omega

/-- Equal counters are those of a writer that is not ahead. -/
theorem Shmem.Ahead.of_counterEqual (hequal : m.CounterEqual) (hwptr : m.wptr ≤ 2 ^ 31 - 1) :
  m.Ahead 0
  := by
  rw [Shmem.CounterEqual] at hequal
  refine ⟨by omega, by omega, ?_⟩
  rw [hequal, Nat.add_zero, Nat.mod_eq_of_lt (by omega)]

theorem Shmem.Ahead.increaseCounter (h : m.Ahead n) :
  m.increaseCounter.Ahead (n + 1)
  := by
  obtain ⟨hwptr, hrptr, hahead⟩ := h
  rw [increaseCounter_eq]
  refine ⟨?_, hrptr, ?_⟩
  · change (if m.wptr = 2 ^ 31 - 1 then 0 else m.wptr + 1) < 2 ^ 31
    split_ifs <;> omega
  · change (if m.wptr = 2 ^ 31 - 1 then 0 else m.wptr + 1) = (m.rptr + (n + 1)) % 2 ^ 31
    split_ifs <;> omega

/-- The counters are equal when whole rounds are unread. -/
theorem Shmem.Ahead.counterEqual_iff (h : m.Ahead n) :
  m.CounterEqual ↔ 2 ^ 31 ∣ n
  := by
  obtain ⟨hwptr, hrptr, hahead⟩ := h
  rw [Shmem.CounterEqual, Nat.dvd_iff_mod_eq_zero]
  omega

theorem Shmem.Ahead.copyCounter (h : m.Ahead n) :
  m.copyCounter.Ahead 0
  := by
  refine ⟨h.wptr, h.wptr, ?_⟩
  change m.wptr = (m.wptr + 0) % 2 ^ 31
  rw [Nat.add_zero, Nat.mod_eq_of_lt h.wptr]

/-- The reader is told of news unless whole rounds are unread, and is then at the writer. -/
theorem Shmem.Ahead.counterReady (h : m.Ahead n) :
  m.counterReady.1 = decide (¬ 2 ^ 31 ∣ n) ∧ m.counterReady.2.Ahead 0
  := by
  rw [Shmem.counterReady]
  split_ifs with hequal
  · constructor
    · rw [decide_eq_false]
      apply not_not_intro (h.counterEqual_iff.mp hequal)
    · apply Shmem.Ahead.of_counterEqual hequal
      have hwptr := h.wptr
      omega
  · constructor
    · rw [decide_eq_true]
      apply mt h.counterEqual_iff.mpr hequal
    · exact h.copyCounter

/-- What the calls return, by induction on them. -/
theorem Shmem.Ahead.answers (calls : List Call) (h : m.Ahead n) :
  answers m calls = (unread n calls).map fun n => decide (¬ 2 ^ 31 ∣ n)
  := by
  induction calls generalizing m n with
  | nil => rfl
  | cons call calls ih =>
      cases call with
      | increaseCounter => exact ih h.increaseCounter
      | counterReady =>
          obtain ⟨hready, hahead⟩ := h.counterReady
          rw [PortableFrames.answers, unread, List.map_cons, hready, ih hahead]

/-- From equal counters, every call of `counter_ready` returns whether `increase_counter` was called
since the one before it just when at none of them whole rounds are unread. -/
theorem notified_iff (hequal : m.CounterEqual) (hwptr : m.wptr ≤ 2 ^ 31 - 1) (calls : List Call) :
  Notified m calls ↔ ∀ n ∈ unread 0 calls, 2 ^ 31 ∣ n → n = 0
  := by
  rw [Notified, (Shmem.Ahead.of_counterEqual hequal hwptr).answers, List.map_inj_left]
  apply forall₂_congr
  intro n _
  rw [decide_eq_decide, Nat.pos_iff_ne_zero, not_iff_not]
  constructor
  · intro h hn
    apply h.mp hn
  · intro h
    refine ⟨h, ?_⟩
    rintro rfl
    apply Nat.dvd_zero _

/-- The counter goes round between two calls of `counter_ready`. -/
theorem notified_sample :
  Notified { wptr := 2 ^ 31 - 1, rptr := 2 ^ 31 - 1 }
    [.increaseCounter, .counterReady, .counterReady, .increaseCounter, .increaseCounter,
      .counterReady]
  := by
  apply (notified_iff _ _ _).mpr <;> decide

/-- What is counted before the next call of `counter_ready` adds up. -/
theorem unread_replicate (n k : ℕ) (calls : List Call) :
  unread n (List.replicate k .increaseCounter ++ calls) = unread (n + k) calls
  := by
  induction k generalizing n with
  | zero => rfl
  | succ k ih =>
      rw [List.replicate_succ, List.cons_append, unread, ih, Nat.add_assoc, Nat.add_comm 1 k]

/-- The cursor changes `2 ^ 31` times before the reader asks, and it is told of nothing. -/
theorem not_notified :
  ¬ ∀ (m : Shmem) (calls : List Call), m.CounterEqual → m.wptr ≤ 2 ^ 31 - 1 → Notified m calls
  := by
  intro hall
  have hnotified :=
    hall {} (List.replicate (2 ^ 31) .increaseCounter ++ [.counterReady]) rfl (by decide)
  have hahead : Shmem.Ahead {} 0 := .of_counterEqual rfl (by decide)
  rw [Notified, hahead.answers, unread_replicate] at hnotified
  revert hnotified
  decide

end VynxDesk.PortableFrames
