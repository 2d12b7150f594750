import Mathlib.Data.List.Basic

/-!
# The lines of a text

A text is cut behind every separator.  The lines are not empty, every line but the last ends with
its only separator, and the text is their concatenation, so that they are determined by it.
-/

namespace VynxDesk

variable {α : Type*} {sep : α}

/-- The text stops between two lines: it is empty or ends with a separator. -/
def Complete (sep : α) (text : List α) : Prop := text = [] ∨ text.getLast? = some sep

theorem complete_append_sep (text : List α) :
  Complete sep (text ++ [sep])
  := by
  right
  exact List.getLast?_concat

/-- What ends a text decides whether it is complete. -/
theorem complete_append_iff {before text : List α} (h : text ≠ []) :
  Complete sep (before ++ text) ↔ Complete sep text
  := by
  unfold Complete
  rw [List.getLast?_append_of_ne_nil _ h, List.append_eq_nil_iff]
  simp [h]

variable [DecidableEq α]

instance (sep : α) (text : List α) : Decidable (Complete sep text) :=
  inferInstanceAs (Decidable (_ ∨ _))

/-- The lines of a text. -/
def linesOf (sep : α) : List α → List (List α)
  | [] => []
  | a :: text =>
      if a = sep then [a] :: linesOf sep text
      else
        match linesOf sep text with
        | [] => [[a]]
        | line :: lines => (a :: line) :: lines

theorem linesOf_cons_sep (text : List α) :
  linesOf sep (sep :: text) = [sep] :: linesOf sep text
  := by
  rw [linesOf, if_pos rfl]

theorem linesOf_cons_of_ne {a : α} (ha : a ≠ sep) (text : List α) :
  linesOf sep (a :: text)
    = match linesOf sep text with
      | [] => [[a]]
      | line :: lines => (a :: line) :: lines
  := by
  rw [linesOf, if_neg ha]

/-- The first separator of a text is where it is found, and none is before it. -/
theorem take_of_findIdx?_eq_some {text : List α} {n : ℕ}
    (h : text.findIdx? (· = sep) = some n) :
  sep ∉ text.take n ∧ text.take (n + 1) = text.take n ++ [sep] ∧ (text.take n).length = n
  := by
  obtain ⟨hlt, hat, hbefore⟩ := List.findIdx?_eq_some_iff_getElem.mp h
  refine ⟨?_, ?_, List.length_take_of_le (Nat.le_of_lt hlt)⟩
  · intro hmem
    obtain ⟨i, hi, heq⟩ := List.mem_iff_getElem.mp hmem
    rw [List.length_take] at hi
    rw [List.getElem_take] at heq
    apply hbefore i (by omega)
    simpa using heq
  · rw [List.take_succ_eq_append_getElem hlt, of_decide_eq_true hat]

/-- A text is the concatenation of its lines. -/
@[simp]
theorem flatten_linesOf (text : List α) :
  (linesOf sep text).flatten = text
  := by
  induction text with
  | nil => rfl
  | cons a text ih =>
      by_cases ha : a = sep
      · rw [ha, linesOf_cons_sep, List.flatten_cons, ih, List.singleton_append]
      · rw [linesOf_cons_of_ne ha]
        split
        next h =>
            rw [h] at ih
            rw [← ih]
            rfl
        next line lines h =>
            rw [h] at ih
            rw [← ih]
            rfl

@[simp]
theorem linesOf_eq_nil_iff {text : List α} :
  linesOf sep text = [] ↔ text = []
  := by
  constructor
  · intro h
    rw [← @flatten_linesOf α sep _ text, h, List.flatten_nil]
  · rintro rfl
    rfl

/-- No line is empty. -/
theorem ne_nil_of_mem_linesOf {text line : List α} (h : line ∈ linesOf sep text) :
  line ≠ []
  := by
  induction text generalizing line with
  | nil => cases h
  | cons a text ih =>
      by_cases ha : a = sep
      · rw [ha, linesOf_cons_sep, List.mem_cons] at h
        rcases h with rfl | h
        · apply List.cons_ne_nil
        · apply ih h
      · rw [linesOf_cons_of_ne ha] at h
        split at h
        next => simp_all
        next first lines hlines =>
            rw [List.mem_cons] at h
            rcases h with rfl | h
            · apply List.cons_ne_nil
            · apply ih
              rw [hlines]
              apply List.mem_cons_of_mem _ h

/-- Every line but the last ends with its only separator. -/
theorem eq_append_sep_of_mem_dropLast {text line : List α}
    (h : line ∈ (linesOf sep text).dropLast) :
  ∃ before, sep ∉ before ∧ line = before ++ [sep]
  := by
  induction text generalizing line with
  | nil => cases h
  | cons a text ih =>
      by_cases ha : a = sep
      · rw [ha, linesOf_cons_sep] at h
        cases hlines : linesOf sep text with
        | nil =>
            rw [hlines] at h
            cases h
        | cons first lines =>
            rw [hlines, List.dropLast_cons_of_ne_nil (List.cons_ne_nil _ _), ← hlines,
              List.mem_cons] at h
            rcases h with rfl | h
            · use [], List.not_mem_nil
              rfl
            · apply ih h
      · rw [linesOf_cons_of_ne ha] at h
        split at h
        next => cases h
        next first lines hlines =>
            cases lines with
            | nil => cases h
            | cons second lines =>
                rw [List.dropLast_cons_of_ne_nil (List.cons_ne_nil _ _), List.mem_cons] at h
                rw [hlines, List.dropLast_cons_of_ne_nil (List.cons_ne_nil _ _)] at ih
                rcases h with rfl | h
                · obtain ⟨before, hbefore, hfirst⟩ := ih List.mem_cons_self
                  use a :: before
                  constructor
                  · rw [List.mem_cons, not_or]
                    exact ⟨Ne.symm ha, hbefore⟩
                  · rw [hfirst, List.cons_append]
                · apply ih (List.mem_cons_of_mem _ h)

/-- The lines of a text behind a complete one are its lines behind theirs. -/
theorem linesOf_append {before : List α} (h : Complete sep before) (text : List α) :
  linesOf sep (before ++ text) = linesOf sep before ++ linesOf sep text
  := by
  induction before with
  | nil => rfl
  | cons a before ih =>
      by_cases hbefore : before = []
      · have ha : a = sep := by
          rw [hbefore] at h
          simpa [Complete] using h
        rw [hbefore, ha, List.singleton_append, linesOf_cons_sep, linesOf_cons_sep]
        rfl
      · have hrest : Complete sep before := by
          rw [← List.singleton_append, complete_append_iff hbefore] at h
          exact h
        by_cases ha : a = sep
        · rw [ha, List.cons_append, linesOf_cons_sep, linesOf_cons_sep, ih hrest, List.cons_append]
        · rw [List.cons_append, linesOf_cons_of_ne ha, linesOf_cons_of_ne ha, ih hrest]
          cases hlines : linesOf sep before with
          | nil => exact absurd (linesOf_eq_nil_iff.mp hlines) hbefore
          | cons line lines => rfl

/-- A text without separators is one line. -/
theorem linesOf_of_notMem {text : List α} (hne : text ≠ []) (h : sep ∉ text) :
  linesOf sep text = [text]
  := by
  induction text with
  | nil => exact absurd rfl hne
  | cons a text ih =>
      rw [List.mem_cons, not_or] at h
      rw [linesOf_cons_of_ne (Ne.symm h.1)]
      by_cases htext : text = []
      · rw [htext]
        rfl
      · rw [ih htext h.2]

/-- A text whose only separator ends it is one line. -/
theorem linesOf_append_sep {text : List α} (h : sep ∉ text) :
  linesOf sep (text ++ [sep]) = [text ++ [sep]]
  := by
  induction text with
  | nil =>
      rw [List.nil_append, linesOf_cons_sep]
      rfl
  | cons a text ih =>
      rw [List.mem_cons, not_or] at h
      rw [List.cons_append, linesOf_cons_of_ne (Ne.symm h.1), ih h.2]

/-- The lines behind the first one are the lines of what is behind it. -/
theorem linesOf_flatten_of_cons {text line : List α} {lines : List (List α)}
    (h : linesOf sep text = line :: lines) :
  linesOf sep lines.flatten = lines
  := by
  induction text generalizing line lines with
  | nil => cases h
  | cons a text ih =>
      by_cases ha : a = sep
      · rw [ha, linesOf_cons_sep] at h
        obtain ⟨-, rfl⟩ := List.cons.inj h
        rw [flatten_linesOf]
      · rw [linesOf_cons_of_ne ha] at h
        split at h
        next =>
            obtain ⟨-, rfl⟩ := List.cons.inj h
            rfl
        next first rest hlines =>
            obtain ⟨-, rfl⟩ := List.cons.inj h
            apply ih hlines

/-- A text that is not complete ends with part of a line. -/
theorem exists_of_not_complete {text : List α} (h : ¬ Complete sep text) :
  ∃ before rest, text = before ++ rest ∧ Complete sep before ∧ rest ≠ [] ∧ sep ∉ rest
  := by
  induction text with
  | nil => exact absurd (Or.inl rfl) h
  | cons a text ih =>
      by_cases htext : text = []
      · rw [htext] at h ⊢
        have ha : a ≠ sep := by
          intro ha
          apply h
          right
          rw [ha]
          rfl
        refine ⟨[], [a], rfl, Or.inl rfl, List.cons_ne_nil _ _, ?_⟩
        simpa using Ne.symm ha
      · rw [← List.singleton_append, complete_append_iff htext] at h
        obtain ⟨before, rest, rfl, hbefore, hrest, hsep⟩ := ih h
        by_cases hnil : before = []
        · by_cases ha : a = sep
          · refine ⟨[a], rest, by rw [hnil]; rfl, ?_, hrest, hsep⟩
            rw [ha]
            apply complete_append_sep []
          · refine ⟨[], a :: rest, by rw [hnil]; rfl, Or.inl rfl, List.cons_ne_nil _ _, ?_⟩
            rw [List.mem_cons, not_or]
            exact ⟨Ne.symm ha, hsep⟩
        · refine ⟨a :: before, rest, rfl, ?_, hrest, hsep⟩
          rw [← List.singleton_append, complete_append_iff hnil]
          exact hbefore

/-- A text ends as its last line does. -/
theorem getLast?_of_getLast?_linesOf {text last : List α}
    (h : (linesOf sep text).getLast? = some last) :
  text.getLast? = last.getLast?
  := by
  have hne : last ≠ [] := ne_nil_of_mem_linesOf (List.mem_of_getLast? h)
  obtain ⟨before, hbefore⟩ := List.getLast?_eq_some_iff.mp h
  rw [← @flatten_linesOf α sep _ text, hbefore, List.flatten_append, List.flatten_singleton,
    List.getLast?_append_of_ne_nil _ hne]

end VynxDesk
