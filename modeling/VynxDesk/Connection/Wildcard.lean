import Mathlib.Data.List.TakeWhile
import VynxDesk.Connection.Credentials
import VynxDesk.Lib.Glob

/-!
# The matcher of the ID whitelist

`wildcard_match` reads its pattern and its text by index and goes back only to the last `*` that it
has passed.  It ends without reading out of range, and decides the glob patterns of `Lib.Glob`
(`idWhitelist_exact`).
-/

namespace VynxDesk

/-! ### Indexing -/

/-- `pi < p.len() && test(p[pi])`: the index is read when it is in range. -/
def andIndex (p : List Char) (pi : Nat) (test : Char → Option Bool) : Option Bool :=
  if pi < p.length then p[pi]?.bind test else some false

/-- The second loop of `wildcard_match` and its result, in `fuel` rounds, where every index that is
out of range ends it without a result. -/
def checkedStars (p : List Char) : Nat → Nat → Option Bool
  | 0, _ => none
  | fuel + 1, pi => do
      if ← andIndex p pi fun c => some (c = '*') then checkedStars p fuel (pi + 1)
      else some (pi = p.length)

/-- The main loop of `wildcard_match`, in the same way. -/
def checkedLoop (p t : List Char) : Nat → Nat → Nat → Option (Nat × Nat) → Option Bool
  | 0, _, _, _ => none
  | fuel + 1, pi, ti, star =>
      if ti < t.length then do
        if ← andIndex p pi fun c => some (c = '*') then
          checkedLoop p t fuel (pi + 1) ti (some (pi + 1, ti))
        else if ← andIndex p pi fun c => if c = '?' then some true else t[ti]?.map (c = ·) then
          checkedLoop p t fuel (pi + 1) (ti + 1) star
        else
          match star with
          | some (sp, st) => checkedLoop p t fuel sp (st + 1) (some (sp, st + 1))
          | none => some false
      else checkedStars p fuel pi

variable {p t : List Char} {pi ti : Nat} {star : Option (Nat × Nat)}

theorem andIndex_star :
  andIndex p pi (fun c => some (decide (c = '*'))) = some (decide (p[pi]? = some '*'))
  := by
  rw [andIndex]
  split
  · rename_i hpi
    rw [List.getElem?_eq_getElem hpi]
    simp
  · rename_i hpi
    rw [List.getElem?_eq_none (Nat.le_of_not_lt hpi)]
    simp

/-- The text is read in range. -/
theorem andIndex_letter (hti : ti < t.length) :
  andIndex p pi (fun c => if c = '?' then some true else t[ti]?.map fun d => decide (c = d))
    = some (decide (pi < p.length ∧ (p[pi]? = some '?' ∨ p[pi]? = t[ti]?)))
  := by
  rw [andIndex]
  split
  · rename_i hpi
    rw [List.getElem?_eq_getElem hpi, List.getElem?_eq_getElem hti]
    simp only [Option.bind_some, Option.map_some, Option.some.injEq, hpi, true_and]
    split
    · rename_i hone
      simp [hone]
    · rename_i hone
      simp [hone]
  · rename_i hpi
    simp [hpi]

/-- The second loop ends, and tells whether only stars are left. -/
theorem checkedStars_eq (hpi : pi ≤ p.length) :
  ∃ n, ∀ fuel ≥ n, checkedStars p fuel pi = some ((p.drop pi).dropWhile (· == '*')).isEmpty
  := by
  induction hk : p.length - pi generalizing pi with
  | zero =>
      have hend : pi = p.length := by omega
      use 1
      intro fuel hfuel
      obtain ⟨fuel, rfl⟩ := Nat.exists_eq_add_of_le' hfuel
      rw [checkedStars, andIndex_star, hend]
      simp
  | succ k ih =>
      have hlt : pi < p.length := by omega
      obtain ⟨n, hn⟩ := @ih (pi + 1) (by omega) (by omega)
      use n + 1
      intro fuel hfuel
      obtain ⟨fuel, rfl⟩ : ∃ m, fuel = m + 1 := Nat.exists_eq_succ_of_ne_zero (by omega)
      rw [checkedStars, andIndex_star]
      rw [List.drop_eq_getElem_cons hlt, List.dropWhile_cons]
      rw [List.getElem?_eq_getElem hlt]
      by_cases hstar : p[pi] = '*'
      · simp [hstar, hn fuel (by omega)]
      · simp [hstar, hlt, Nat.ne_of_lt hlt]

theorem lt_of_getElem?_star (h : p[pi]? = some '*') :
  pi < p.length
  := by
  by_contra hpi
  rw [List.getElem?_eq_none (Nat.le_of_not_lt hpi)] at h
  cases h

theorem checkedLoop_many (fuel : Nat) (hti : ti < t.length) (hmany : p[pi]? = some '*') :
  checkedLoop p t (fuel + 1) pi ti star = checkedLoop p t fuel (pi + 1) ti (some (pi + 1, ti))
  := by
  conv_lhs => unfold checkedLoop
  rw [if_pos hti, andIndex_star, decide_eq_true hmany]
  rfl

theorem checkedLoop_letter (fuel : Nat) (hti : ti < t.length) (hmany : p[pi]? ≠ some '*')
    (hletter : pi < p.length ∧ (p[pi]? = some '?' ∨ p[pi]? = t[ti]?)) :
  checkedLoop p t (fuel + 1) pi ti star = checkedLoop p t fuel (pi + 1) (ti + 1) star
  := by
  conv_lhs => unfold checkedLoop
  rw [if_pos hti, andIndex_star, andIndex_letter hti, decide_eq_false hmany, decide_eq_true hletter]
  rfl

theorem checkedLoop_back (fuel : Nat) (hti : ti < t.length) (hmany : p[pi]? ≠ some '*')
    (hletter : ¬ (pi < p.length ∧ (p[pi]? = some '?' ∨ p[pi]? = t[ti]?))) :
  checkedLoop p t (fuel + 1) pi ti star
    = match star with
      | some (sp, st) => checkedLoop p t fuel sp (st + 1) (some (sp, st + 1))
      | none => some false
  := by
  conv_lhs => unfold checkedLoop
  rw [if_pos hti, andIndex_star, andIndex_letter hti]
  rw [decide_eq_false hmany, decide_eq_false hletter]
  rfl

theorem checkedLoop_end (fuel : Nat) (hti : ¬ ti < t.length) :
  checkedLoop p t (fuel + 1) pi ti star = checkedStars p fuel pi
  := by
  conv_lhs => unfold checkedLoop
  rw [if_neg hti]

/-- The main loop ends, with the result of `wildcard_match`, and never reads out of range. -/
theorem checkedLoop_eq (hstar : ∀ x ∈ star, x.2 ≤ ti) (hpi : pi ≤ p.length)
    (hsp : ∀ x ∈ star, x.1 ≤ p.length) :
  ∃ n, ∀ fuel, checkedLoop p t (fuel + n) pi ti star = some (wildcardLoop p t pi ti star hstar)
  := by
  fun_induction wildcardLoop p t pi ti star hstar with
  | case1 pi ti star hstar hti hmany ih =>
      have hlt := lt_of_getElem?_star hmany
      have hnext : ∀ x ∈ some (pi + 1, ti), x.1 ≤ p.length := by
        rintro _ ⟨⟩
        exact hlt
      obtain ⟨n, hn⟩ := ih hlt hnext
      use n + 1
      intro fuel
      rw [← Nat.add_assoc, checkedLoop_many _ hti hmany, hn]
  | case2 pi ti star hstar hti hmany hletter ih =>
      obtain ⟨n, hn⟩ := ih hletter.1 hsp
      use n + 1
      intro fuel
      rw [← Nat.add_assoc, checkedLoop_letter _ hti hmany hletter, hn]
  | case3 pi ti hti hmany hletter sp st hstar _ ih =>
      have hback : sp ≤ p.length := hsp _ rfl
      have hnext : ∀ x ∈ some (sp, st + 1), x.1 ≤ p.length := by
        rintro _ ⟨⟩
        exact hback
      obtain ⟨n, hn⟩ := ih hback hnext
      use n + 1
      intro fuel
      rw [← Nat.add_assoc, checkedLoop_back _ hti hmany hletter]
      dsimp only
      rw [hn]
  | case4 pi ti hti hmany hletter hstar =>
      use 1
      intro fuel
      rw [checkedLoop_back _ hti hmany hletter]
  | case5 pi ti star hstar hti =>
      obtain ⟨n, hn⟩ := checkedStars_eq hpi
      use n + 1
      intro fuel
      rw [← Nat.add_assoc, checkedLoop_end _ hti, hn _ (Nat.le_add_left _ _)]

/-! ### Matching -/

/-- The token that a character of a pattern is. -/
def token (c : Char) : Token Char :=
  if c = '*' then .many else if c = '?' then .one else .letter c

/-- The pattern that the characters of a whitelist entry make. -/
def tokens (p : List Char) : List (Token Char) := p.map token

theorem token_eq_many (c : Char) :
  token c = .many ↔ c = '*'
  := by
  rw [token]
  split
  · simp [*]
  · split <;> simp [*]

theorem token_matches {c d : Char} (hc : c ≠ '*') :
  (token c).Matches [d] ↔ c = '?' ∨ c = d
  := by
  rw [token]
  rw [if_neg hc]
  split
  · rename_i hone
    simp only [hone, true_or, iff_true]
    exact .one d
  · rename_i hone
    simp only [hone, false_or]
    constructor
    · rintro ⟨⟩
      rfl
    · rintro rfl
      exact .letter c

/-- The pattern between the last star and the position in it takes what is between the place of the
text that the star was tried at and the position in the text. -/
structure Tried (p : List Char) (pi ti : Nat) (x : Nat × Nat) : Prop where
  pattern : x.1 ≤ pi
  text : x.2 ≤ ti
  same : pi - x.1 = ti - x.2
  plain : '*' ∉ (p.drop x.1).take (pi - x.1)

/-- The rest of the pattern takes the rest of the text, or what follows the last star takes the text
from a later place on than the star was tried at. -/
def Remains (p t : List Char) (pi ti : Nat) (star : Option (Nat × Nat)) : Prop :=
  Glob (tokens (p.drop pi)) (t.drop ti)
    ∨ ∃ x ∈ star, ∃ k ≤ t.length, x.2 < k ∧ Glob (tokens (p.drop x.1)) (t.drop k)

theorem tokens_drop (hpi : pi < p.length) :
  tokens (p.drop pi) = token p[pi] :: tokens (p.drop (pi + 1))
  := by
  rw [List.drop_eq_getElem_cons hpi]
  rfl

theorem tokens_drop_star (hmany : p[pi]? = some '*') :
  tokens (p.drop pi) = .many :: tokens (p.drop (pi + 1))
  := by
  obtain ⟨hpi, hstar⟩ := List.getElem?_eq_some_iff.mp hmany
  rw [tokens_drop hpi, (token_eq_many _).mpr hstar]

/-- What is in front of the position in the pattern has no star behind the last one. -/
theorem Tried.tokens_eq {x : Nat × Nat} (h : Tried p pi ti x) :
  tokens (p.drop x.1) = tokens ((p.drop x.1).take (pi - x.1)) ++ tokens (p.drop pi)
  := by
  have hsplit : p.drop x.1 = (p.drop x.1).take (pi - x.1) ++ p.drop pi := by
    conv_lhs => rw [← List.take_append_drop (pi - x.1) (p.drop x.1)]
    rw [List.drop_drop, Nat.add_sub_cancel' h.pattern]
  conv_lhs => rw [hsplit]
  rw [tokens, List.map_append]
  rfl

theorem Tried.many_notMem {x : Nat × Nat} (h : Tried p pi ti x) :
  .many ∉ tokens ((p.drop x.1).take (pi - x.1))
  := by
  intro hmem
  obtain ⟨c, hc, hmany⟩ := List.mem_map.mp hmem
  obtain rfl := (token_eq_many c).mp hmany
  exact h.plain hc

theorem Tried.length_tokens {x : Nat × Nat} (h : Tried p pi ti x) (hpi : pi ≤ p.length) :
  (tokens ((p.drop x.1).take (pi - x.1))).length = ti - x.2
  := by
  have hpattern := h.pattern
  rw [tokens, List.length_map, List.length_take, List.length_drop, ← h.same]
  omega

/-- A star was just passed. -/
theorem Tried.start (p : List Char) (pi ti : Nat) : Tried p pi ti (pi, ti) where
  pattern := Nat.le_refl pi
  text := Nat.le_refl ti
  same := by simp
  plain := by simp

/-- Another character is taken. -/
theorem Tried.letter {x : Nat × Nat} (h : Tried p pi ti x) (hpi : pi < p.length)
    (hmany : p[pi]? ≠ some '*') :
  Tried p (pi + 1) (ti + 1) x
  := by
  obtain ⟨hpattern, htext, hsame, hplain⟩ := h
  constructor
  · omega
  · omega
  · omega
  · have hsucc : pi + 1 - x.1 = pi - x.1 + 1 := by omega
    have hindex : (p.drop x.1)[pi - x.1]? = some p[pi] := by
      rw [List.getElem?_drop, Nat.add_sub_cancel' hpattern, List.getElem?_eq_getElem hpi]
    rw [hsucc, List.take_add_one, hindex]
    rw [List.getElem?_eq_getElem hpi] at hmany
    simp only [Option.toList_some, List.mem_append, List.mem_singleton, not_or]
    use hplain
    rintro hstar
    exact hmany (congrArg some hstar.symm)

/-- At a star, it is enough that the star and what follows it take the rest of the text. -/
theorem Remains.of_star (htried : ∀ x ∈ star, Tried p pi ti x) (hmany : p[pi]? = some '*')
    (h : Remains p t pi ti star) :
  Glob (tokens (p.drop pi)) (t.drop ti)
  := by
  rcases h with h | ⟨x, hx, k, -, hk, h⟩
  · exact h
  · have hpi := lt_of_getElem?_star hmany
    have hlength := (htried x hx).length_tokens (Nat.le_of_lt hpi)
    rw [(htried x hx).tokens_eq] at h
    rw [tokens_drop_star hmany] at h ⊢
    apply Glob.absorb (htried x hx).many_notMem _ h
    omega

/-- Passing a star changes nothing. -/
theorem remains_star (htried : ∀ x ∈ star, Tried p pi ti x) (hti : ti < t.length)
    (hmany : p[pi]? = some '*') :
  Remains p t (pi + 1) ti (some (pi + 1, ti)) ↔ Remains p t pi ti star
  := by
  constructor
  · rintro (h | ⟨_, ⟨⟩, k, -, hk, h⟩)
    · left
      rw [tokens_drop_star hmany]
      exact Glob.cons_iff.mpr ⟨[], _, rfl, .many [], h⟩
    · left
      rw [tokens_drop_star hmany]
      apply Glob.many_of_drop (Nat.le_of_lt hk)
      exact Glob.cons_iff.mpr ⟨[], _, rfl, .many [], h⟩
  · intro h
    have hglob := h.of_star htried hmany
    rw [tokens_drop_star hmany] at hglob
    obtain ⟨j, hj, hrest⟩ := Glob.many_cons_iff.mp hglob
    rw [List.drop_drop] at hrest
    rw [List.length_drop] at hj
    cases j with
    | zero => exact .inl hrest
    | succ j =>
        right
        use (pi + 1, ti), rfl, ti + (j + 1)
        exact ⟨by omega, by dsimp only; omega, hrest⟩

/-- Taking a character changes nothing. -/
theorem remains_letter (hti : ti < t.length) (hmany : p[pi]? ≠ some '*')
    (hletter : pi < p.length ∧ (p[pi]? = some '?' ∨ p[pi]? = t[ti]?)) :
  Remains p t (pi + 1) (ti + 1) star ↔ Remains p t pi ti star
  := by
  obtain ⟨hpi, hletter⟩ := hletter
  rw [List.getElem?_eq_getElem hpi] at hmany hletter
  rw [List.getElem?_eq_getElem hti] at hletter
  have hne : p[pi] ≠ '*' := fun h => hmany (congrArg some h)
  have htoken : token p[pi] ≠ .many := by
    rw [Ne, token_eq_many]
    exact hne
  have hmatches : (token p[pi]).Matches [t[ti]] := by
    apply (token_matches hne).mpr
    simpa using hletter
  have hglob : Glob (tokens (p.drop pi)) (t.drop ti)
      ↔ Glob (tokens (p.drop (pi + 1))) (t.drop (ti + 1)) := by
    rw [tokens_drop hpi, List.drop_eq_getElem_cons hti, Glob.cons_cons_iff htoken]
    exact and_iff_right hmatches
  rw [Remains, Remains, hglob]

/-- Where no character can be taken, the rest of the pattern does not take the rest of the text. -/
theorem not_glob_of_stuck (hti : ti < t.length) (hmany : p[pi]? ≠ some '*')
    (hletter : ¬ (pi < p.length ∧ (p[pi]? = some '?' ∨ p[pi]? = t[ti]?))) :
  ¬ Glob (tokens (p.drop pi)) (t.drop ti)
  := by
  rw [List.drop_eq_getElem_cons hti]
  by_cases hpi : pi < p.length
  · rw [List.getElem?_eq_getElem hpi] at hmany hletter
    rw [List.getElem?_eq_getElem hti] at hletter
    have hne : p[pi] ≠ '*' := fun h => hmany (congrArg some h)
    have htoken : token p[pi] ≠ .many := by
      rw [Ne, token_eq_many]
      exact hne
    rw [tokens_drop hpi, Glob.cons_cons_iff htoken, token_matches hne]
    rintro ⟨hsame, -⟩
    apply hletter
    simpa [hpi] using hsame
  · rw [List.drop_of_length_le (Nat.le_of_not_lt hpi)]
    intro h
    cases Glob.nil_iff.mp h

/-- Going back to the last star changes nothing where no character can be taken. -/
theorem remains_back {sp st : Nat} (hti : ti < t.length) (hst : st ≤ ti)
    (hstuck : ¬ Glob (tokens (p.drop pi)) (t.drop ti)) :
  Remains p t sp (st + 1) (some (sp, st + 1)) ↔ Remains p t pi ti (some (sp, st))
  := by
  constructor
  · rintro (h | ⟨_, ⟨⟩, k, hk, hlt, h⟩)
    · exact .inr ⟨(sp, st), rfl, st + 1, by omega, Nat.lt_succ_self st, h⟩
    · exact .inr ⟨(sp, st), rfl, k, hk, Nat.lt_of_succ_lt hlt, h⟩
  · rintro (h | ⟨_, ⟨⟩, k, hk, hlt, h⟩)
    · exact absurd h hstuck
    · rcases Nat.lt_or_eq_of_le hlt with hlt | rfl
      · exact .inr ⟨(sp, st + 1), rfl, k, hk, hlt, h⟩
      · exact .inl h

/-- At the end of the text the rest of the pattern takes nothing, or no place is left to try. -/
theorem remains_end (htried : ∀ x ∈ star, Tried p pi ti x) (hpi : pi ≤ p.length)
    (hti : ¬ ti < t.length) :
  ((p.drop pi).dropWhile (· == '*')).isEmpty = true ↔ Remains p t pi ti star
  := by
  have hstars : ((p.drop pi).dropWhile (· == '*')).isEmpty = true
      ↔ Glob (tokens (p.drop pi)) (t.drop ti) := by
    rw [List.drop_of_length_le (Nat.le_of_not_lt hti), Glob.nil_right_iff]
    rw [List.isEmpty_iff, List.dropWhile_eq_nil_iff]
    simp only [tokens, List.forall_mem_map, token_eq_many, beq_iff_eq]
  rw [hstars, Remains]
  constructor
  · exact .inl
  · rintro (h | ⟨x, hx, k, hk, hlt, h⟩)
    · exact h
    · rw [(htried x hx).tokens_eq] at h
      obtain ⟨front, rest, hword, hfront, -⟩ := Glob.append_iff.mp h
      have hlength := Glob.length_eq (htried x hx).many_notMem hfront
      rw [(htried x hx).length_tokens hpi] at hlength
      have hdrop := congrArg List.length hword
      rw [List.length_drop, List.length_append] at hdrop
      omega

/-- The main loop decides what remains. -/
theorem wildcardLoop_iff (hstar : ∀ x ∈ star, x.2 ≤ ti) (hpi : pi ≤ p.length)
    (htried : ∀ x ∈ star, Tried p pi ti x) :
  wildcardLoop p t pi ti star hstar = true ↔ Remains p t pi ti star
  := by
  fun_induction wildcardLoop p t pi ti star hstar with
  | case1 pi ti star hstar hti hmany ih =>
      rw [ih (lt_of_getElem?_star hmany)]
      · apply remains_star htried hti hmany
      · rintro _ ⟨⟩
        apply Tried.start
  | case2 pi ti star hstar hti hmany hletter ih =>
      rw [ih hletter.1]
      · apply remains_letter hti hmany hletter
      · intro x hx
        apply (htried x hx).letter hletter.1 hmany
  | case3 pi ti hti hmany hletter sp st hstar _ ih =>
      obtain ⟨hpattern, htext, -, -⟩ := htried _ rfl
      rw [ih (Nat.le_trans hpattern hpi)]
      · apply remains_back hti htext (not_glob_of_stuck hti hmany hletter)
      · rintro _ ⟨⟩
        apply Tried.start
  | case4 pi ti hti hmany hletter hstar =>
      have hstuck := not_glob_of_stuck hti hmany hletter
      simp [Remains, hstuck]
  | case5 pi ti star hstar hti => apply remains_end htried hpi hti

/-- `wildcard_match`, in `fuel` rounds of its loops, where every index that is out of range ends it
without a result. -/
def checkedWildcardMatch (h : Host) (fuel : Nat) (pattern text : String) : Option Bool :=
  checkedLoop (h.toLowercase (trim pattern).toList) (h.toLowercase (trim text).toList) fuel 0 0 none

/-- `wildcard_match` ends, and never reads out of range. -/
theorem checkedWildcardMatch_eq (h : Host) (pattern text : String) :
  ∃ n, ∀ fuel, checkedWildcardMatch h (fuel + n) pattern text
    = some (wildcardMatch h pattern text)
  := by
  unfold checkedWildcardMatch wildcardMatch
  apply checkedLoop_eq
  · apply Nat.zero_le
  · nofun

/-- `wildcard_match` is glob matching. -/
theorem wildcardMatch_iff (h : Host) (pattern text : String) :
  wildcardMatch h pattern text = true
    ↔ Glob (tokens (h.toLowercase (trim pattern).toList)) (h.toLowercase (trim text).toList)
  := by
  rw [wildcardMatch, wildcardLoop_iff]
  · simp [Remains]
  · apply Nat.zero_le
  · nofun

example : checkedLoop "1*4*9".toList "123456789".toList 20 0 0 none = some true := by decide

example : checkedLoop "1*4*9".toList "123456780".toList 20 0 0 none = some false := by decide

/-! ### The whitelist -/

/-- The part of a text in front of its first `@`. -/
structure BareId (myId bareId : String) : Prop where
  before : ∃ rest, myId.toList = bareId.toList ++ rest ∧ (rest = [] ∨ rest.head? = some '@')
  notMem : '@' ∉ bareId.toList

theorem BareId.takeWhile (myId : String) :
  BareId myId (String.ofList (myId.toList.takeWhile (· ≠ '@')))
  := by
  constructor
  · use myId.toList.dropWhile (· ≠ '@')
    rw [String.toList_ofList, List.takeWhile_append_dropWhile]
    use rfl
    cases hrest : myId.toList.dropWhile (· ≠ '@') with
    | nil => exact .inl rfl
    | cons c rest =>
        right
        have hhead := List.head?_dropWhile_not (fun c : Char => decide (c ≠ '@')) myId.toList
        rw [hrest] at hhead
        simpa using hhead
  · rw [String.toList_ofList]
    intro hmem
    have hne := List.mem_takeWhile_imp hmem
    simp at hne

/-- There is one such part. -/
theorem BareId.eq {myId bareId : String} (h : BareId myId bareId) :
  bareId = String.ofList (myId.toList.takeWhile (· ≠ '@'))
  := by
  obtain ⟨⟨rest, hmyId, hrest⟩, hnotMem⟩ := h
  have hall : ∀ c ∈ bareId.toList, decide (c ≠ '@') = true := by
    intro c hc
    rw [decide_eq_true_iff]
    rintro rfl
    exact hnotMem hc
  have hnone : rest.takeWhile (fun c => decide (c ≠ '@')) = [] := by
    rcases hrest with rfl | hhead
    · rfl
    · obtain ⟨rest, rfl⟩ := List.head?_eq_some_iff.mp hhead
      rw [List.takeWhile_cons_of_neg (by decide)]
  rw [hmyId, List.takeWhile_append_of_pos hall, hnone, List.append_nil, String.ofList_toList]

/-- The whitelist allows an ID exactly when it is empty or one of its entries matches the ID or the
part in front of its first `@`; and matching, which ends and never reads out of range, is glob
matching. -/
theorem idWhitelist_exact (h : Host) :
  (∀ pattern text,
    (∃ n, ∀ fuel, checkedWildcardMatch h (fuel + n) pattern text
      = some (wildcardMatch h pattern text))
    ∧ (wildcardMatch h pattern text = true
      ↔ Glob (tokens (h.toLowercase (trim pattern).toList)) (h.toLowercase (trim text).toList)))
  ∧ ∀ idWhitelist myId, idWhitelistAllows h idWhitelist myId = true
    ↔ idWhitelist = [] ∨ ∃ x ∈ idWhitelist, wildcardMatch h x myId = true
      ∨ ∃ bareId, BareId myId bareId ∧ wildcardMatch h x bareId = true
  := by
  constructor
  · intro pattern text
    exact ⟨checkedWildcardMatch_eq h pattern text, wildcardMatch_iff h pattern text⟩
  · intro idWhitelist myId
    have hbare (x : String) : (∃ bareId, BareId myId bareId ∧ wildcardMatch h x bareId = true)
        ↔ wildcardMatch h x (String.ofList (myId.toList.takeWhile (· ≠ '@'))) = true := by
      constructor
      · rintro ⟨bareId, hbareId, hmatch⟩
        rw [← hbareId.eq]
        exact hmatch
      · intro hmatch
        exact ⟨_, BareId.takeWhile myId, hmatch⟩
    simp only [hbare]
    rw [idWhitelistAllows]
    cases idWhitelist with
    | nil => simp
    | cons first rest => simp

end VynxDesk
