import Mathlib.Data.List.Flatten
import Mathlib.Data.List.Forall2

/-!
# Glob patterns

A pattern is a list of tokens: one letter, any one letter, or any sequence of letters.  A word
matches when it splits into pieces that match the tokens one by one.  When the tokens before a
`many` stand for as many letters as there are tokens, the first place where they match serves as
well as any later one (`Glob.absorb`): a search that is past them never has to come back to an
earlier `many`.
-/

namespace VynxDesk

/-- A token of a pattern. -/
inductive Token (α : Type*) where
  | letter (a : α)
  | one
  | many
  deriving DecidableEq, Repr

variable {α : Type*}

/-- The pieces that a token stands for. -/
inductive Token.Matches : Token α → List α → Prop where
  | letter (a : α) : Matches (.letter a) [a]
  | one (a : α) : Matches .one [a]
  | many (piece : List α) : Matches .many piece

/-- A word splits into pieces that match the tokens of a pattern one by one. -/
def Glob (pattern : List (Token α)) (word : List α) : Prop :=
  ∃ pieces, pieces.flatten = word ∧ List.Forall₂ Token.Matches pattern pieces

namespace Glob

variable {token : Token α} {pattern pattern' : List (Token α)} {word : List α}

theorem nil_iff :
  Glob ([] : List (Token α)) word ↔ word = []
  := by
  constructor
  · rintro ⟨pieces, rfl, hmatches⟩
    cases hmatches
    rfl
  · rintro rfl
    exact ⟨[], rfl, .nil⟩

/-- The first token takes the first piece. -/
theorem cons_iff :
  Glob (token :: pattern) word
    ↔ ∃ piece rest, word = piece ++ rest ∧ token.Matches piece ∧ Glob pattern rest
  := by
  constructor
  · rintro ⟨pieces, rfl, hmatches⟩
    cases hmatches with
    | @cons _ piece _ pieces hfirst hrest =>
        use piece, pieces.flatten
        exact ⟨rfl, hfirst, pieces, rfl, hrest⟩
  · rintro ⟨piece, rest, rfl, hfirst, pieces, rfl, hrest⟩
    exact ⟨piece :: pieces, rfl, .cons hfirst hrest⟩

/-- A pattern in two parts takes a word in two parts. -/
theorem append_iff :
  ∀ {word : List α}, Glob (pattern ++ pattern') word
    ↔ ∃ front rest, word = front ++ rest ∧ Glob pattern front ∧ Glob pattern' rest
  := by
  induction pattern with
  | nil =>
      intro word
      constructor
      · intro h
        exact ⟨[], word, rfl, nil_iff.mpr rfl, h⟩
      · rintro ⟨front, rest, rfl, hfront, hrest⟩
        rw [nil_iff.mp hfront]
        exact hrest
  | cons token pattern ih =>
      intro word
      rw [List.cons_append, cons_iff]
      constructor
      · rintro ⟨piece, tail, rfl, hfirst, htail⟩
        obtain ⟨front, rest, rfl, hfront, hrest⟩ := ih.mp htail
        use piece ++ front, rest, (List.append_assoc _ _ _).symm
        exact ⟨cons_iff.mpr ⟨piece, front, rfl, hfirst, hfront⟩, hrest⟩
      · rintro ⟨front, rest, rfl, hfront, hrest⟩
        obtain ⟨piece, tail, rfl, hfirst, htail⟩ := cons_iff.mp hfront
        use piece, tail ++ rest, List.append_assoc _ _ _, hfirst
        apply ih.mpr ⟨tail, rest, rfl, htail, hrest⟩

/-- A token for one letter takes the first letter. -/
theorem cons_cons_iff {a : α} (htoken : token ≠ .many) :
  Glob (token :: pattern) (a :: word) ↔ token.Matches [a] ∧ Glob pattern word
  := by
  rw [cons_iff]
  constructor
  · rintro ⟨piece, rest, hword, hfirst, hrest⟩
    cases hfirst with
    | letter b =>
        obtain ⟨rfl, rfl⟩ := List.cons.inj hword
        exact ⟨.letter a, hrest⟩
    | one b =>
        obtain ⟨rfl, rfl⟩ := List.cons.inj hword
        exact ⟨.one a, hrest⟩
    | many piece => exact absurd rfl htoken
  · rintro ⟨hfirst, hrest⟩
    exact ⟨[a], word, rfl, hfirst, hrest⟩

/-- `many` takes what comes before some place of the word. -/
theorem many_cons_iff :
  Glob (.many :: pattern) word ↔ ∃ k ≤ word.length, Glob pattern (word.drop k)
  := by
  rw [cons_iff]
  constructor
  · rintro ⟨piece, rest, rfl, -, hrest⟩
    use piece.length, by simp
    rw [List.drop_left]
    exact hrest
  · rintro ⟨k, -, hrest⟩
    exact ⟨word.take k, word.drop k, (List.take_append_drop k word).symm, .many _, hrest⟩

/-- Only `many` stands for nothing. -/
theorem nil_right_iff :
  Glob pattern [] ↔ ∀ token ∈ pattern, token = .many
  := by
  induction pattern with
  | nil => simp [nil_iff]
  | cons token pattern ih =>
      rw [cons_iff, List.forall_mem_cons, ← ih]
      constructor
      · rintro ⟨piece, rest, hword, hfirst, hrest⟩
        obtain ⟨rfl, rfl⟩ := List.append_eq_nil_iff.mp hword.symm
        cases hfirst
        exact ⟨rfl, hrest⟩
      · rintro ⟨rfl, hrest⟩
        exact ⟨[], [], rfl, .many [], hrest⟩

/-- Without `many` a pattern stands for as many letters as it has tokens. -/
theorem length_eq (hmany : .many ∉ pattern) :
  ∀ {word : List α}, Glob pattern word → word.length = pattern.length
  := by
  induction pattern with
  | nil =>
      intro word h
      rw [nil_iff.mp h]
      rfl
  | cons token pattern ih =>
      intro word h
      obtain ⟨hne, hmany⟩ : .many ≠ token ∧ .many ∉ pattern := by simpa using hmany
      obtain ⟨piece, rest, rfl, hfirst, hrest⟩ := cons_iff.mp h
      rw [List.length_append, ih hmany hrest, List.length_cons]
      cases hfirst with
      | letter a => apply Nat.add_comm
      | one a => apply Nat.add_comm
      | many piece => exact absurd rfl hne

/-- `many` takes more in front of what it takes. -/
theorem many_of_drop {j k : ℕ} (hjk : j ≤ k) (h : Glob (.many :: pattern) (word.drop k)) :
  Glob (.many :: pattern) (word.drop j)
  := by
  obtain ⟨piece, rest, hword, -, hrest⟩ := cons_iff.mp h
  apply cons_iff.mpr
  use (word.drop j).take (k - j) ++ piece, rest
  constructor
  · rw [List.append_assoc, ← hword]
    have hdrop : word.drop k = (word.drop j).drop (k - j) := by
      rw [List.drop_drop, Nat.add_sub_cancel' hjk]
    rw [hdrop, List.take_append_drop]
  · exact ⟨.many _, hrest⟩

/-- If the tokens in front of a `many` match somewhere, the rest of the pattern matches from every
place on that is not behind their end. -/
theorem absorb {j k : ℕ} (hmany : .many ∉ pattern) (hj : j ≤ k + pattern.length)
    (h : Glob (pattern ++ .many :: pattern') (word.drop k)) :
  Glob (.many :: pattern') (word.drop j)
  := by
  obtain ⟨front, rest, hword, hfront, hrest⟩ := append_iff.mp h
  have hlength : front.length = pattern.length := length_eq hmany hfront
  have hdrop : rest = word.drop (k + pattern.length) := by
    rw [← List.drop_drop, hword, ← hlength, List.drop_left]
  rw [hdrop] at hrest
  apply many_of_drop hj hrest

end Glob

end VynxDesk
