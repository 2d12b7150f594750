import Mathlib.Data.List.Basic

/-!
# Loops over an enumerated list

The rule of a loop that runs through a list with its indices: what holds before the loop with the
index `0`, and is taken from each index to the next, holds behind the loop with the length of the
list (`foldl_zipIdx_invariant`).
-/

namespace VynxDesk

variable {α σ : Type*}

theorem foldl_zipIdx_invariant_from (f : σ → α × ℕ → σ) (P : ℕ → σ → Prop) (xs : List α) :
  ∀ {k : ℕ} {s : σ}, (∀ i x s, xs[i]? = some x → P (k + i) s → P (k + i + 1) (f s (x, k + i))) →
    P k s → P (k + xs.length) ((xs.zipIdx k).foldl f s)
  := by
  induction xs with
  | nil =>
      intro k s _ hs
      exact hs
  | cons x xs ih =>
      intro k s hstep hs
      rw [List.zipIdx_cons, List.foldl_cons, List.length_cons, Nat.add_comm xs.length,
        ← Nat.add_assoc]
      apply ih
      · intro i y s hy hP
        have hnext := hstep (i + 1) y s (by simpa using hy)
        rw [show k + (i + 1) = k + 1 + i by omega] at hnext
        apply hnext hP
      · apply hstep 0 x s rfl hs

/-- A loop over an enumerated list keeps an invariant that goes from each index to the next. -/
theorem foldl_zipIdx_invariant (f : σ → α × ℕ → σ) (P : ℕ → σ → Prop) {xs : List α} {s : σ}
    (hinit : P 0 s) (hstep : ∀ i x s, xs[i]? = some x → P i s → P (i + 1) (f s (x, i))) :
  P xs.length (xs.zipIdx.foldl f s)
  := by
  have hloop := foldl_zipIdx_invariant_from f P xs (k := 0) (s := s) (by simpa using hstep) hinit
  rwa [Nat.zero_add] at hloop

/-- The entries of an enumerated list that pass a test which does not look at the index. -/
theorem length_filter_zipIdx {xs : List α} (p : α × ℕ → Bool) (q : α → Bool)
    (h : ∀ i x, xs[i]? = some x → p (x, i) = q x) :
  (xs.zipIdx.filter p).length = xs.countP q
  := by
  have hfilter : xs.zipIdx.filter p = xs.zipIdx.filter (q ∘ Prod.fst) := by
    apply List.filter_congr
    rintro ⟨x, i⟩ hmem
    apply h
    rwa [List.mem_zipIdx_iff_getElem?] at hmem
  rw [hfilter, ← List.countP_eq_length_filter, ← List.countP_map, List.zipIdx_map_fst]

/-- A search through an enumerated list with a test that does not look at the index. -/
theorem map_snd_find?_zipIdx {xs : List α} (p : α × ℕ → Bool) (q : α → Bool)
    (h : ∀ i x, xs[i]? = some x → p (x, i) = q x) :
  (xs.zipIdx.find? p).map Prod.snd = xs.findIdx? q
  := by
  have hfind : xs.zipIdx.find? p = xs.zipIdx.find? (q ∘ Prod.fst) := by
    rw [← List.head?_filter, ← List.head?_filter]
    congr 1
    apply List.filter_congr
    rintro ⟨x, i⟩ hmem
    apply h
    rwa [List.mem_zipIdx_iff_getElem?] at hmem
  rw [hfind, List.findIdx?_eq_fst_find?_zipIdx]
  rfl

/-- Two entries of a list that pass a test count for two. -/
theorem two_le_countP {xs : List α} {q : α → Bool} {i k : ℕ} {x y : α} (hx : xs[i]? = some x)
    (hy : xs[k]? = some y) (hne : i ≠ k) (hqx : q x = true) (hqy : q y = true) :
  2 ≤ xs.countP q
  := by
  induction xs generalizing i k with
  | nil => simp at hx
  | cons z zs ih =>
      cases i with
      | zero =>
          cases k with
          | zero => exact absurd rfl hne
          | succ k =>
              obtain rfl : z = x := by simpa using hx
              have hpos : 0 < zs.countP q := List.countP_pos_iff.mpr
                ⟨y, List.mem_of_getElem? (by simpa using hy), hqy⟩
              rw [List.countP_cons_of_pos hqx]
              omega
      | succ i =>
          cases k with
          | zero =>
              obtain rfl : z = y := by simpa using hy
              have hpos : 0 < zs.countP q := List.countP_pos_iff.mpr
                ⟨x, List.mem_of_getElem? (by simpa using hx), hqx⟩
              rw [List.countP_cons_of_pos hqy]
              omega
          | succ k =>
              have hrest : 2 ≤ zs.countP q :=
                ih (by simpa using hx) (by simpa using hy) (by omega)
              rw [List.countP_cons]
              omega

end VynxDesk
