import Mathlib.Data.List.Basic

/-!
# Copies that are patched

A copy of a list that grows is made of parts, each of which is laid over the copy at an index.  The
first `k` elements of the list may still change, so that the copy agrees with it from there on only,
until they are laid over the copy at last.
-/

namespace VynxDesk.Patch

variable {α : Type*}

/-- `part`, laid at the index `start`, is within `whole`, and like it from the index `k` on. -/
structure Agree (k start : ℕ) (part whole : List α) : Prop where
  within : start + part.length ≤ whole.length
  same : ∀ i, k ≤ start + i → i < part.length → part[i]? = whole[start + i]?

/-- `part` laid over `whole` at the index `start`; `pad` fills a gap. -/
def overwrite (pad : α) (start : ℕ) (part whole : List α) : List α :=
  whole.take start ++ List.replicate (start - whole.length) pad ++ part
    ++ whole.drop (start + part.length)

variable {pad : α} {k start : ℕ} {part whole whole' copy : List α}

theorem Agree.refl (k : ℕ) (whole : List α) :
  Agree k 0 whole whole
  := by
  constructor
  · exact Nat.le_of_eq (Nat.zero_add _)
  · intro i _ _
    rw [Nat.zero_add]

theorem Agree.nil (h : start ≤ whole.length) :
  Agree k start [] whole
  := ⟨h, nofun⟩

/-- What agrees with a list agrees with what it grows to. -/
theorem Agree.trans (h : Agree k start part whole) (hgrow : Agree k 0 whole whole') :
  Agree k start part whole'
  := by
  have hpart := h.within
  have hwhole := hgrow.within
  constructor
  · omega
  · intro i hk hi
    rw [h.same i hk hi, hgrow.same (start + i) (by omega) (by omega), Nat.zero_add]

/-- A part is continued with what is behind it. -/
theorem Agree.append_take (h : Agree k start part whole) (n : ℕ) :
  Agree k start (part ++ (whole.drop (start + part.length)).take n) whole
  := by
  have hpart := h.within
  constructor
  · rw [List.length_append, List.length_take, List.length_drop]
    omega
  · intro i hk hi
    by_cases hold : i < part.length
    · rw [List.getElem?_append_left hold]
      apply h.same i hk hold
    · rw [List.length_append, List.length_take] at hi
      rw [List.getElem?_append_right (by omega), List.getElem?_take_of_lt (by omega),
        List.getElem?_drop]
      congr 1
      omega

theorem overwrite_of_le (h : start ≤ copy.length) :
  overwrite pad start part copy = copy.take start ++ part ++ copy.drop (start + part.length)
  := by
  rw [overwrite, Nat.sub_eq_zero_of_le h, List.replicate_zero, List.append_nil]

/-- Nothing is lost when a part is laid behind the end. -/
theorem overwrite_length : overwrite pad copy.length part copy = copy ++ part
  := by
  rw [overwrite_of_le (Nat.le_refl _), List.take_length, List.drop_eq_nil_of_le (by omega),
    List.append_nil]

theorem length_overwrite (h : start ≤ copy.length) :
  (overwrite pad start part copy).length = max copy.length (start + part.length)
  := by
  rw [overwrite_of_le h, List.length_append, List.length_append, List.length_take,
    List.length_drop]
  omega

theorem getElem?_overwrite (h : start ≤ copy.length) (i : ℕ) :
  (overwrite pad start part copy)[i]?
    = if i < start then copy[i]?
      else if i < start + part.length then part[i - start]?
      else copy[i]?
  := by
  have htake : (copy.take start).length = start := List.length_take_of_le h
  rw [overwrite_of_le h, List.append_assoc]
  split_ifs with hbefore hwithin
  · rw [List.getElem?_append_left (by omega), List.getElem?_take_of_lt hbefore]
  · rw [List.getElem?_append_right (by omega), htake, List.getElem?_append_left (by omega)]
  · rw [List.getElem?_append_right (by omega), htake, List.getElem?_append_right (by omega),
      List.getElem?_drop]
    congr 1
    omega

/-- A copy agrees with the list when a part that agrees is laid over it without a gap. -/
theorem Agree.overwrite (hcopy : Agree k 0 copy whole) (hpart : Agree k start part whole)
    (h : start ≤ copy.length) :
  Agree k 0 (overwrite pad start part copy) whole
  := by
  have hcopyLength := hcopy.within
  have hpartLength := hpart.within
  constructor
  · rw [length_overwrite h]
    omega
  · intro i hk hi
    rw [length_overwrite h] at hi
    rw [getElem?_overwrite h, Nat.zero_add]
    rw [Nat.zero_add] at hk
    split_ifs with hbefore hwithin
    · rw [hcopy.same i (by omega) (by omega), Nat.zero_add]
    · rw [hpart.same (i - start) (by omega) (by omega)]
      congr 1
      omega
    · rw [hcopy.same i (by omega) (by omega), Nat.zero_add]

/-- A copy of the same length that agrees is the list, when the first elements are laid over it. -/
theorem overwrite_take (hcopy : Agree k 0 copy whole) (hlength : copy.length = whole.length) :
  overwrite pad 0 (whole.take k) copy = whole
  := by
  apply List.ext_getElem?
  intro i
  rw [getElem?_overwrite (Nat.zero_le _), if_neg (Nat.not_lt_zero i), Nat.zero_add, Nat.sub_zero,
    List.length_take]
  split_ifs with hfirst
  · rw [List.getElem?_take_of_lt (by omega)]
  · by_cases hi : i < copy.length
    · rw [hcopy.same i (by omega) hi, Nat.zero_add]
    · rw [List.getElem?_eq_none (by omega), List.getElem?_eq_none (by omega)]

end VynxDesk.Patch
