import Mathlib.Data.String.Basic

/-!
# Byte indices in a text

Where something is found in a text, and what a text is sliced at, is the number of bytes before it
in UTF-8.  A slice at an index that is not between two characters of the text does not exist.
-/

namespace VynxDesk.TextIndex

open String (utf8Len)

/-- What is before the first place from which on the text meets `p`, and what is behind it. -/
def cut (p : List Char → Bool) : List Char → Option (List Char × List Char)
  | [] => if p [] then some ([], []) else none
  | c :: text =>
      if p (c :: text) then some ([], c :: text)
      else (cut p text).map fun x => (c :: x.1, x.2)

/-- `find`. -/
def find (pat text : List Char) : Option ℕ :=
  (cut (fun text => pat <+: text) text).map fun x => utf8Len x.1

/-- `&text[start..]`, unless it panics. -/
def sliceFrom : List Char → ℕ → Option (List Char)
  | text, 0 => some text
  | [], _ + 1 => none
  | c :: text, start => if c.utf8Size ≤ start then sliceFrom text (start - c.utf8Size) else none

/-- `&text[..stop]`, unless it panics. -/
def sliceTo : List Char → ℕ → Option (List Char)
  | _, 0 => some []
  | [], _ + 1 => none
  | c :: text, stop =>
      if c.utf8Size ≤ stop then (sliceTo text (stop - c.utf8Size)).map (c :: ·) else none

variable {p : List Char → Bool} {text before behind : List Char}

theorem cut_of_pos (h : p text = true) :
  cut p text = some ([], text)
  := by
  cases text with
  | nil => rw [cut, if_pos h]
  | cons c text => rw [cut, if_pos h]

theorem cut_of_neg {c : Char} (h : ¬ p (c :: text) = true) :
  cut p (c :: text) = (cut p text).map fun x => (c :: x.1, x.2)
  := by
  rw [cut, if_neg h]

theorem cut_eq_some (h : cut p text = some (before, behind)) :
  text = before ++ behind ∧ p behind = true
  := by
  induction text generalizing before with
  | nil =>
      rw [cut, Option.ite_none_right_eq_some] at h
      obtain ⟨hp, hnil⟩ := h
      cases hnil
      exact ⟨rfl, hp⟩
  | cons c text ih =>
      rw [cut] at h
      split at h
      · rename_i hp
        cases h
        exact ⟨rfl, hp⟩
      · obtain ⟨⟨first, last⟩, hcut, hsplit⟩ := Option.map_eq_some_iff.mp h
        cases hsplit
        obtain ⟨rfl, hp⟩ := ih hcut
        exact ⟨rfl, hp⟩

/-- A slice is the rest behind as many bytes as its index says. -/
theorem sliceFrom_eq_some {text rest : List Char} {n : ℕ} (hslice : sliceFrom text n = some rest) :
  ∃ first, text = first ++ rest ∧ utf8Len first = n
  := by
  induction text generalizing n with
  | nil =>
      cases n with
      | zero => exact ⟨[], Option.some.inj hslice, String.utf8Len_nil⟩
      | succ n => cases hslice
  | cons c text ih =>
      cases n with
      | zero => exact ⟨[], Option.some.inj hslice, String.utf8Len_nil⟩
      | succ n =>
          rw [sliceFrom.eq_3 _ _ _ (Nat.succ_ne_zero n)] at hslice
          split at hslice
          · rename_i hle
            obtain ⟨first, rfl, hlength⟩ := ih hslice
            refine ⟨c :: first, rfl, ?_⟩
            rw [String.utf8Len_cons, hlength]
            omega
          · cases hslice

/-- A text can be sliced behind a part of it. -/
theorem sliceFrom_append (before behind : List Char) :
  sliceFrom (before ++ behind) (utf8Len before) = some behind
  := by
  induction before with
  | nil => rw [List.nil_append, String.utf8Len_nil, sliceFrom]
  | cons c before ih =>
      have hpos := Char.utf8Size_pos c
      rw [List.cons_append, String.utf8Len_cons, sliceFrom]
      · rw [if_pos (Nat.le_add_left _ _), Nat.add_sub_cancel, ih]
      · omega

theorem sliceTo_append (before behind : List Char) :
  sliceTo (before ++ behind) (utf8Len before) = some before
  := by
  induction before with
  | nil => rw [List.nil_append, String.utf8Len_nil, sliceTo]
  | cons c before ih =>
      have hpos := Char.utf8Size_pos c
      rw [List.cons_append, String.utf8Len_cons, sliceTo]
      · rw [if_pos (Nat.le_add_left _ _), Nat.add_sub_cancel, ih, Option.map_some]
      · omega

end VynxDesk.TextIndex
