import Mathlib.Data.String.Basic

/-!
# Splitting a text at a character

`String.splitOn` with a separator of one character splits the characters of the text.
-/

namespace VynxDesk

open String

/-- The parts of a list that is split at an element do not have it. -/
theorem notMem_of_mem_splitOn {α : Type*} [DecidableEq α] {a : α} {l part : List α}
    (h : part ∈ l.splitOn a) :
  a ∉ part
  := by
  induction l generalizing part with
  | nil =>
      rw [List.splitOn_nil, List.mem_singleton] at h
      rw [h]
      apply List.not_mem_nil
  | cons b l ih =>
      rw [List.splitOn_cons_eq_if_modifyHead] at h
      split at h
      next =>
          rw [List.mem_cons] at h
          rcases h with rfl | h
          · apply List.not_mem_nil
          · apply ih h
      next hb =>
          cases hparts : l.splitOn a with
          | nil => exact absurd hparts (List.splitOn_ne_nil a l)
          | cons first parts =>
              rw [hparts, List.modifyHead_cons, List.mem_cons] at h
              rw [hparts] at ih
              rcases h with rfl | h
              · rw [List.mem_cons, not_or]
                constructor
                · rintro rfl
                  simp at hb
                · apply ih List.mem_cons_self
              · apply ih (List.mem_cons_of_mem _ h)

/-- The parts of a list that is split have nothing else than the list has. -/
theorem mem_of_mem_splitOn {α : Type*} [DecidableEq α] {a b : α} {l part : List α}
    (h : part ∈ l.splitOn a) (hb : b ∈ part) :
  b ∈ l
  := by
  induction l generalizing part with
  | nil =>
      rw [List.splitOn_nil, List.mem_singleton] at h
      rw [h] at hb
      exact hb
  | cons c l ih =>
      rw [List.splitOn_cons_eq_if_modifyHead] at h
      split at h
      next =>
          rcases List.mem_cons.mp h with rfl | h
          · cases hb
          · exact List.mem_cons_of_mem _ (ih h hb)
      next =>
          cases hparts : l.splitOn a with
          | nil => exact absurd hparts (List.splitOn_ne_nil a l)
          | cons first parts =>
              rw [hparts, List.modifyHead_cons] at h
              rw [hparts] at ih
              rcases List.mem_cons.mp h with rfl | h
              · rcases List.mem_cons.mp hb with rfl | hb
                · exact List.mem_cons_self
                · exact List.mem_cons_of_mem _ (ih List.mem_cons_self hb)
              · exact List.mem_cons_of_mem _ (ih (List.mem_cons_of_mem _ h) hb)

/-- A turn of the loop of `splitOn` at a separator of one character: `l` is behind it, `m` is the
part it reads, and `d` comes next. -/
theorem splitOnAux_cons (c d : Char) (l m r : List Char) (parts : List String) :
  splitOnAux (ofList (l ++ m ++ d :: r)) (ofList [c]) ⟨utf8Len l⟩ ⟨utf8Len (l ++ m)⟩ 0 parts
    = if d = c then
        splitOnAux (ofList (l ++ m ++ d :: r)) (ofList [c]) ⟨utf8Len (l ++ m ++ [d])⟩
          ⟨utf8Len (l ++ m ++ [d])⟩ 0 (ofList m :: parts)
      else
        splitOnAux (ofList (l ++ m ++ d :: r)) (ofList [c]) ⟨utf8Len l⟩
          ⟨utf8Len (l ++ m ++ [d])⟩ 0 parts
  := by
  have hpos : 0 < d.utf8Size := Char.utf8Size_pos d
  have hend : ¬ (⟨utf8Len (l ++ m)⟩ : Pos.Raw).atEnd (ofList (l ++ m ++ d :: r)) = true := by
    rw [atEnd_iff, rawEndPos_ofList, Pos.Raw.mk_le_mk, utf8Len_append (l ++ m), utf8Len_cons]
    omega
  have hget : (⟨utf8Len (l ++ m)⟩ : Pos.Raw).get (ofList (l ++ m ++ d :: r)) = d :=
    get_of_valid (l ++ m) (d :: r)
  have hnext : (⟨utf8Len (l ++ m)⟩ : Pos.Raw).next (ofList (l ++ m ++ d :: r))
      = ⟨utf8Len (l ++ m ++ [d])⟩ := by
    rw [next_of_valid, utf8Len_append (l ++ m), utf8Len_cons, utf8Len_nil, Nat.zero_add]
  have hsep : (0 : Pos.Raw).get (ofList [c]) = c := get_of_valid [] [c]
  have hsepNext : (0 : Pos.Raw).next (ofList [c]) = ⟨c.utf8Size⟩ := by
    have h := next_of_valid [] c []
    rw [utf8Len_nil, Nat.zero_add] at h
    exact h
  have hsepEnd : (⟨c.utf8Size⟩ : Pos.Raw).atEnd (ofList [c]) = true := by
    rw [atEnd_iff, rawEndPos_ofList, utf8Len_cons, utf8Len_nil, Nat.zero_add]
    apply Nat.le_refl
  have hfirst : (⟨utf8Len (l ++ m)⟩ : Pos.Raw).unoffsetBy 0 = ⟨utf8Len (l ++ m)⟩ := rfl
  rw [splitOnAux, if_neg hend, hget, hnext, hsep, hsepNext, if_pos hsepEnd, hfirst, hnext]
  by_cases hd : d = c
  · have hsame : (d == c) = true := by
      simpa using hd
    have hback : (⟨utf8Len (l ++ m ++ [d])⟩ : Pos.Raw).unoffsetBy ⟨c.utf8Size⟩
        = ⟨utf8Len l + utf8Len m⟩ := by
      rw [hd, utf8Len_append (l ++ m), utf8Len_append, utf8Len_cons, utf8Len_nil, Nat.zero_add]
      change (⟨_ - _⟩ : Pos.Raw) = _
      rw [Nat.add_sub_cancel]
    rw [if_pos hsame, if_pos hd, hback, extract_of_valid]
  · have hother : ¬ (d == c) = true := by
      simpa using hd
    rw [if_neg hother, if_neg hd]

/-- The loop of `splitOn` at a separator of one character: `r` is left. -/
theorem splitOnAux_singleton (c : Char) (l m r : List Char) (parts : List String) :
  splitOnAux (ofList (l ++ m ++ r)) (ofList [c]) ⟨utf8Len l⟩ ⟨utf8Len (l ++ m)⟩ 0 parts
    = parts.reverse ++ (List.splitOnPPrepend (· == c) r m.reverse).map ofList
  := by
  induction r generalizing l m parts with
  | nil =>
      have hend : (⟨utf8Len (l ++ m)⟩ : Pos.Raw).atEnd (ofList (l ++ m ++ [])) = true := by
        rw [atEnd_iff, rawEndPos_ofList, List.append_nil]
        apply Nat.le_refl
      have hpart := extract_of_valid l m []
      rw [← utf8Len_append] at hpart
      rw [splitOnAux, if_pos hend, hpart, List.splitOnPPrepend_nil, List.reverse_reverse,
        List.reverse_cons]
      rfl
  | cons d r ih =>
      rw [splitOnAux_cons, List.splitOnPPrepend_cons_eq_if]
      by_cases hd : d = c
      · have hrest := ih (l ++ m ++ [d]) [] (ofList m :: parts)
        rw [List.append_nil, List.append_assoc (l ++ m), List.singleton_append] at hrest
        rw [if_pos hd, hrest, if_pos (beq_iff_eq.mpr hd)]
        simp
      · have hrest := ih l (m ++ [d]) parts
        rw [← List.append_assoc, List.append_assoc (l ++ m), List.singleton_append] at hrest
        rw [if_neg hd, hrest, if_neg (mt beq_iff_eq.mp hd), List.reverse_append,
          List.reverse_singleton, List.singleton_append]

/-- A text is split at a character as its characters are. -/
theorem splitOn_singleton (c : Char) (s : String) :
  s.splitOn (ofList [c]) = (s.toList.splitOn c).map ofList
  := by
  have h := splitOnAux_singleton c [] [] s.toList []
  have hsep : (ofList [c] == "") = false := by
    simp
  rw [splitOn, hsep]
  simpa [List.splitOn] using h

/-- What is joined by a character that is in no part is split into the parts. -/
theorem splitOn_join {c : Char} {parts : List String} (hparts : parts ≠ [])
    (h : ∀ part ∈ parts, c ∉ part.toList) :
  (ofList ([c].intercalate (parts.map toList))).splitOn (ofList [c]) = parts
  := by
  have hlists : ∀ l ∈ parts.map toList, c ∉ l := by
    intro l hl
    obtain ⟨part, hpart, rfl⟩ := List.mem_map.mp hl
    apply h part hpart
  rw [splitOn_singleton, toList_ofList, List.splitOn_intercalate c hlists (by simpa using hparts),
    List.map_map]
  simp

end VynxDesk
