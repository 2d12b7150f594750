import Mathlib.Data.Finset.Card
import Mathlib.Data.List.DropRight
import Mathlib.Data.List.Nodup

/-!
# Windows of the last elements

A window that drops its oldest element when it is full holds the last elements of what was pushed
(`pushBack_rtake`).  A list whose next element is refused while it is in the window has no element
among the ones shortly before it (`Apart`), and no element twice when there are few
(`Apart.nodup`).
-/

namespace VynxDesk.Window

variable {α : Type*} {n : ℕ} {xs : List α} {x : α}

/-- A window drops its oldest element when it is full, and takes another one. -/
def pushBack (full : Bool) (xs : List α) (x : α) : List α :=
  (if full then xs.tail else xs) ++ [x]

theorem length_pushBack {full : Bool} (hn : 0 < n) (hfull : xs.length = n → full = true)
    (hlength : xs.length ≤ n) (x : α) :
  (pushBack full xs x).length ≤ n
  := by
  rw [pushBack, List.length_append, List.length_singleton]
  split_ifs with h
  · rw [List.length_tail]
    omega
  · rcases hlength.lt_or_eq with hlt | heq
    · exact hlt
    · exact (h (hfull heq)).elim

theorem length_rtake (n : ℕ) (xs : List α) :
  (xs.rtake n).length = min n xs.length
  := by
  rw [List.rtake, List.length_drop]
  omega

/-- The window holds the last elements. -/
theorem pushBack_rtake (hn : 0 < n) (xs : List α) (x : α) :
  pushBack (n ≤ (xs.rtake n).length) (xs.rtake n) x = (xs ++ [x]).rtake n
  := by
  rw [pushBack, length_rtake, List.rtake, List.rtake, List.length_append, List.length_singleton]
  simp only [decide_eq_true_iff]
  split_ifs with hfull
  · rw [List.tail_drop, List.drop_append_of_le_length (by omega)]
    congr 2
    omega
  · rw [List.drop_append_of_le_length (by omega)]
    congr 2
    omega

/-- No element is among the `n` elements before it. -/
inductive Apart (n : ℕ) : List α → Prop where
  | nil : Apart n []
  | snoc {xs : List α} {x : α} : Apart n xs → x ∉ xs.rtake n → Apart n (xs ++ [x])

theorem rtake_of_length_le (h : xs.length ≤ n) :
  xs.rtake n = xs
  := by
  rw [List.rtake, Nat.sub_eq_zero_of_le h, List.drop_zero]

/-- A list that is apart and has few different elements has none twice. -/
theorem Apart.nodup [DecidableEq α] (h : Apart n xs) {s : Finset α} (hs : ∀ x ∈ xs, x ∈ s)
    (hcard : s.card ≤ n) :
  xs.Nodup
  := by
  induction h with
  | nil => exact List.nodup_nil
  | @snoc xs x _ hx ih =>
      have hnodup := ih fun y hy => hs y (List.mem_append_left _ hy)
      have hlength : xs.length ≤ n := by
        rw [← List.toFinset_card_of_nodup hnodup]
        apply le_trans (Finset.card_le_card _) hcard
        intro y hy
        exact hs y (List.mem_append_left _ (List.mem_toFinset.mp hy))
      rw [rtake_of_length_le hlength] at hx
      rw [List.nodup_append]
      refine ⟨hnodup, List.nodup_singleton x, ?_⟩
      rintro y hy z hz rfl
      rw [List.mem_singleton.mp hz] at hy
      exact hx hy

end VynxDesk.Window
