import Mathlib.Data.List.Pairwise
import Mathlib.Order.Lattice

/-!
# Binary search

The search of a value in a list, as `slice::binary_search` does it: a range of the list in which the
value is halved until it is found or empty.  In a list that grows strictly the search finds the one
place of the value, and finds a place exactly when the value is in the list.
-/

namespace VynxDesk.BinarySearch

variable {α : Type*} [LinearOrder α] {xs : List α} {x : α}

/-- The search from `left` to `right`, in as many rounds. -/
def search (xs : List α) (x : α) : ℕ → ℕ → ℕ → Option ℕ
  | 0, _, _ => none
  | rounds + 1, left, right =>
      if left < right then
        let mid := left + (right - left) / 2
        match xs[mid]? with
        | none => none
        | some y =>
            match compare y x with
            | .lt => search xs x rounds (mid + 1) right
            | .eq => some mid
            | .gt => search xs x rounds left mid
      else none

/-- `binary_search`, for its `Ok`. -/
def binarySearch (xs : List α) (x : α) : Option ℕ :=
  search xs x (xs.length + 1) 0 xs.length

/-- What is found is there. -/
theorem getElem?_of_search {rounds left right i : ℕ} (h : search xs x rounds left right = some i) :
  xs[i]? = some x
  := by
  induction rounds generalizing left right with
  | zero => cases h
  | succ rounds ih =>
      rw [search] at h
      split_ifs at h
      dsimp only at h
      split at h
      · cases h
      · rename_i y hy
        split at h
        · exact ih h
        · rename_i heq
          cases h
          rw [hy, compare_eq_iff_eq.mp heq]
        · exact ih h

/-- A round of the search. -/
theorem search_round {rounds left right mid : ℕ} {y : α} (hlt : left < right)
    (hmid : left + (right - left) / 2 = mid) (hy : xs[mid]? = some y) :
  search xs x (rounds + 1) left right =
    match compare y x with
    | .lt => search xs x rounds (mid + 1) right
    | .eq => some mid
    | .gt => search xs x rounds left mid
  := by
  rw [search]
  simp only [if_pos hlt, hmid, hy]

/-- In a list that grows strictly a value is found in a range that it is in. -/
theorem search_eq {rounds left right i : ℕ} (hsorted : xs.Pairwise (· < ·)) (hi : xs[i]? = some x)
    (hleft : left ≤ i) (hright : i < right) (hlength : right ≤ xs.length)
    (hrounds : right - left < rounds) :
  search xs x rounds left right = some i
  := by
  induction rounds generalizing left right with
  | zero => omega
  | succ rounds ih =>
      obtain ⟨hlt, hx⟩ := List.getElem?_eq_some_iff.mp hi
      have hordered := List.pairwise_iff_getElem.mp hsorted
      generalize hmid : left + (right - left) / 2 = mid
      have hmidLength : mid < xs.length := by omega
      rw [search_round (Nat.lt_of_le_of_lt hleft hright) hmid (List.getElem?_eq_getElem hmidLength)]
      rcases Nat.lt_trichotomy mid i with hless | rfl | hless
      · have hcompare : compare xs[mid] x = .lt :=
          compare_lt_iff_lt.mpr (hx ▸ hordered mid i hmidLength hlt hless)
        rw [hcompare]
        exact ih hless hright hlength (by omega)
      · rw [hx, compare_eq_iff_eq.mpr rfl]
      · have hcompare : compare xs[mid] x = .gt :=
          compare_gt_iff_gt.mpr (hx ▸ hordered i mid hlt hmidLength hless)
        rw [hcompare]
        exact ih hleft hless (by omega) (by omega)

/-- In a list that grows strictly the search finds the place of a value. -/
theorem binarySearch_eq_some_iff {i : ℕ} (hsorted : xs.Pairwise (· < ·)) :
  binarySearch xs x = some i ↔ xs[i]? = some x
  := by
  refine ⟨getElem?_of_search, ?_⟩
  intro hi
  have hlt := (List.getElem?_eq_some_iff.mp hi).1
  exact search_eq hsorted hi (Nat.zero_le i) hlt (Nat.le_refl _) (Nat.lt_succ_self _)

/-- In a list that grows strictly the search finds what is in it. -/
theorem isSome_binarySearch_iff (hsorted : xs.Pairwise (· < ·)) :
  (binarySearch xs x).isSome = true ↔ x ∈ xs
  := by
  rw [Option.isSome_iff_exists, List.mem_iff_getElem?]
  exact exists_congr fun i => binarySearch_eq_some_iff hsorted

/-- The place that is found is the one that a removal of the value takes away. -/
theorem eraseIdx_binarySearch {i : ℕ} [BEq α] [LawfulBEq α] (hsorted : xs.Pairwise (· < ·))
    (h : binarySearch xs x = some i) :
  xs.eraseIdx i = xs.erase x
  := by
  have hnodup : xs.Nodup := hsorted.imp ne_of_lt
  obtain ⟨hlt, rfl⟩ := List.getElem?_eq_some_iff.mp (getElem?_of_search h)
  exact (List.erase_eq_eraseIdx_of_idxOf (hnodup.idxOf_getElem i hlt)).symm

end VynxDesk.BinarySearch
