import VynxDesk.Lib.Utf8
import VynxDesk.Terminal.Lines

/-!
# What a reconnecting client is sent

`get_recent` collects whole lines from the newest on, and cuts a newest line that is too long behind
the continuation bytes at the cut.  What it returns ends the contents, is not longer than it may be,
and is UTF-8 when the output is (`OutputBuffer.recent_of_run`).
-/

namespace VynxDesk.TerminalService.OutputBuffer

open Utf8

/-! ### The lines of a UTF-8 text -/

/-- The lines of a text in UTF-8 are in UTF-8. -/
theorem valid_of_mem_linesOf {lines : List Bytes} {text : Bytes}
    (hlines : linesOf newline text = lines) (htext : Valid text) :
  ∀ line ∈ lines, Valid line
  := by
  induction lines generalizing text with
  | nil => exact List.forall_mem_nil _
  | cons line lines ih =>
      have hflatten : text = line ++ lines.flatten := by
        rw [← @flatten_linesOf _ newline _ text, hlines, List.flatten_cons]
      have hrest := linesOf_flatten_of_cons hlines
      rw [List.forall_mem_cons]
      by_cases hlast : lines = []
      · rw [hlast, List.flatten_nil, List.append_nil] at hflatten
        rw [hlast, ← hflatten]
        exact ⟨htext, List.forall_mem_nil _⟩
      · have hline : line ∈ (linesOf newline text).dropLast := by
          rw [hlines, List.dropLast_cons_of_ne_nil hlast]
          apply List.mem_cons_self
        obtain ⟨before, -, rfl⟩ := eq_append_sep_of_mem_dropLast hline
        rw [hflatten, List.append_assoc, List.singleton_append] at htext
        have hnewline : Valid [newline] := valid_encodeChar '\n'
        have hended : Valid (before ++ [newline]) := (htext.left (by decide)).append hnewline
        rw [List.append_cons] at htext
        exact ⟨hended, ih hrest (hended.of_append htext)⟩

/-- A buffer that UTF-8 is appended to holds UTF-8. -/
theorem valid_contents_of_run {h : List (OutputBuffer × Bytes)} {self : OutputBuffer}
    (hrun : Run Appends {} h self) (hvalid : ∀ x ∈ h, Valid x.2) :
  Valid self.contents
  := by
  have hkept : self = ofContents self.contents ∧ Valid self.contents := by
    refine hrun.invariant_of (fun _ data => Valid data)
      (fun self => self = ofContents self.contents ∧ Valid self.contents) ?_ ?_ hvalid
    · exact ⟨rfl, valid_nil⟩
    · rintro self data self' ⟨hself, hcontents⟩ hdata rfl
      obtain ⟨kept, hkept, happend⟩ := exists_append_ofContents data self.contents
      rw [← hself] at happend
      rw [happend, contents_ofContents]
      apply And.intro rfl
      apply valid_flatten
      intro line hline
      apply valid_of_mem_linesOf rfl (hcontents.append hdata) line (hkept.subset hline)
  exact hkept.2

/-! ### The cut -/

theorem le_skipContinuation (line : Bytes) (n offset : ℕ) :
  offset ≤ skipContinuation line n offset
  := by
  induction n generalizing offset with
  | zero => exact Nat.le_refl _
  | succ n ih =>
      rw [skipContinuation]
      split
      next =>
          split_ifs
          · exact (Nat.le_succ _).trans (ih _)
          · exact Nat.le_refl _
      next => exact Nat.le_refl _

theorem skipContinuation_le (line : Bytes) (n offset : ℕ) :
  skipContinuation line n offset ≤ offset + n
  := by
  induction n generalizing offset with
  | zero => exact Nat.le_refl _
  | succ n ih =>
      rw [skipContinuation]
      split
      next =>
          split_ifs
          · have h := ih (offset + 1)
            omega
          · omega
      next => omega

/-- The continuation bytes at the cut are skipped. -/
theorem skipContinuation_eq {line tails rest : Bytes} {n offset : ℕ}
    (hdrop : line.drop offset = tails ++ rest) (hlength : tails.length ≤ n)
    (htails : ∀ b ∈ tails, IsTail b) (hrest : ∀ b ∈ rest.head?, ¬ IsTail b) :
  skipContinuation line n offset = offset + tails.length
  := by
  induction n generalizing offset tails with
  | zero =>
      rw [Nat.le_zero.mp hlength]
      rfl
  | succ n ih =>
      have hat : (line)[offset]? = (tails ++ rest).head? := by
        rw [← hdrop, List.head?_drop]
      rw [skipContinuation, hat]
      cases tails with
      | nil =>
          cases rest with
          | nil => rfl
          | cons b rest => exact if_neg (hrest b rfl)
      | cons tail tails =>
          rw [List.forall_mem_cons] at htails
          have hnext : line.drop (offset + 1) = tails ++ rest := by
            rw [← List.drop_drop, hdrop]
            rfl
          have htail : tail &&& 0xC0 = 0x80 := htails.1
          rw [List.length_cons] at hlength ⊢
          have hskip := ih hnext (by omega) htails.2
          dsimp only [List.cons_append, List.head?_cons]
          rw [if_pos htail, hskip]
          omega

/-- What is left of a line in UTF-8 behind the cut is in UTF-8. -/
theorem valid_drop_skipContinuation {line : Bytes} (h : Valid line) {offset : ℕ}
    (hoffset : offset ≤ line.length) :
  Valid (line.drop (skipContinuation line 3 offset))
  := by
  obtain ⟨tails, rest, hdrop, hlength, htails, hrest⟩ := h.exists_drop hoffset
  have hhead : ∀ b ∈ rest.head?, ¬ IsTail b := by
    intro b hb
    obtain ⟨rest', rfl⟩ := List.head?_eq_some_iff.mp hb
    apply hrest.not_isTail
  rw [skipContinuation_eq hdrop hlength htails hhead, ← List.drop_drop, hdrop, List.drop_left]
  exact hrest

/-! ### What is collected -/

/-- The chunks that are collected are not longer than what may be collected. -/
theorem length_collect {maxBytes : ℕ} (lines : List Bytes) {size : ℕ} (hsize : size ≤ maxBytes) :
  size + (collect maxBytes lines size).flatten.length ≤ maxBytes
  := by
  induction lines generalizing size with
  | nil => exact hsize
  | cons line older ih =>
      rw [collect]
      split_ifs with hover hlarge
      · dsimp only
        split_ifs with hoffset
        · have hcut := le_skipContinuation line 3 (line.length - maxBytes)
          rw [List.flatten_singleton, List.length_drop, hlarge.1]
          omega
        · exact hsize
      · exact hsize
      · have hrest := ih (Nat.le_of_not_lt hover)
        rw [List.flatten_cons, List.length_append]
        omega

/-- Lines in UTF-8 are collected as chunks in UTF-8. -/
theorem valid_collect {maxBytes : ℕ} {lines : List Bytes} (h : ∀ line ∈ lines, Valid line)
    (size : ℕ) :
  ∀ chunk ∈ collect maxBytes lines size, Valid chunk
  := by
  induction lines generalizing size with
  | nil => exact List.forall_mem_nil _
  | cons line older ih =>
      rw [List.forall_mem_cons] at h
      rw [collect]
      split_ifs with hover hlarge
      · dsimp only
        split_ifs
        · rw [List.forall_mem_singleton]
          apply valid_drop_skipContinuation h.1 (Nat.sub_le _ _)
        · exact List.forall_mem_nil _
      · exact List.forall_mem_nil _
      · rw [List.forall_mem_cons]
        exact ⟨h.1, ih h.2 _⟩

/-- Something is collected of lines of which the newest is not empty. -/
theorem collect_ne_nil {maxBytes : ℕ} (hmax : 4 ≤ maxBytes) {line : Bytes} (hline : line ≠ [])
    (older : List Bytes) :
  (collect maxBytes (line :: older) 0).flatten ≠ []
  := by
  rw [collect, Nat.zero_add]
  split_ifs with hover hlarge
  · have hcut := skipContinuation_le line 3 (line.length - maxBytes)
    have hoffset : skipContinuation line 3 (line.length - maxBytes) < line.length := by
      omega
    dsimp only
    rw [if_pos hoffset, List.flatten_singleton, Ne, List.drop_eq_nil_iff]
    omega
  · exact absurd ⟨rfl, hover⟩ hlarge
  · rw [List.flatten_cons, Ne, List.append_eq_nil_iff]
    exact fun h => hline h.1

/-- What is returned as recent ends the contents and is not longer than it may be; and of a buffer
that UTF-8 is appended to, it is in UTF-8, and not empty when the contents are not and a character
fits. -/
theorem recent_of_run {h : List (OutputBuffer × Bytes)} {self : OutputBuffer}
    (hrun : Run Appends {} h self) (maxBytes : ℕ) :
  self.getRecent maxBytes <:+ self.contents ∧ (self.getRecent maxBytes).length ≤ maxBytes ∧
    ((∀ x ∈ h, Valid x.2) → Valid (self.getRecent maxBytes) ∧
      (self.lines ≠ [] → 4 ≤ maxBytes → self.getRecent maxBytes ≠ []))
  := by
  have hself := ofContents_contents_of_run hrun
  have hlines : linesOf newline self.contents = self.lines := by
    rw [hself, contents_ofContents]
    rfl
  refine ⟨getRecent_suffix maxBytes self, ?_, ?_⟩
  · rw [getRecent]
    split_ifs
    · exact Nat.zero_le _
    · have h := length_collect self.lines.reverse (Nat.zero_le maxBytes)
      rw [List.length_flatten, List.map_reverse, List.sum_reverse, ← List.length_flatten]
      omega
  · intro hvalid
    have hall := valid_of_mem_linesOf hlines (valid_contents_of_run hrun hvalid)
    constructor
    · rw [getRecent]
      split_ifs
      · exact valid_nil
      · apply valid_flatten
        intro chunk hchunk
        apply valid_collect _ 0 chunk (List.mem_reverse.mp hchunk)
        intro line hline
        apply hall line (List.mem_reverse.mp hline)
    · intro hne hmax
      obtain ⟨older, newest, hnewest⟩ := (List.eq_nil_or_concat self.lines).resolve_left hne
      rw [List.concat_eq_append] at hnewest
      have hmem : newest ∈ linesOf newline self.contents := by
        rw [hlines, hnewest]
        simp
      have hcollect := collect_ne_nil hmax (ne_nil_of_mem_linesOf hmem) older.reverse
      rw [getRecent, if_neg (by omega), hnewest, List.reverse_append, List.reverse_singleton,
        List.singleton_append]
      simpa using hcollect

theorem recent_accent :
  Valid (getRecent 4 (append [104, 195, 169, 33, 33] {}))
    ∧ getRecent 4 (append [104, 195, 169, 33, 33] {}) ≠ []
  := by
  have hrun : Run Appends {} [({}, [104, 195, 169, 33, 33])]
      (append [104, 195, 169, 33, 33] {}) := Run.nil.snoc rfl
  have hvalid : Valid [104, 195, 169, 33, 33] := ⟨['h', 'é', '!', '!'], by decide⟩
  obtain ⟨-, -, hrecent⟩ := recent_of_run hrun 4
  obtain ⟨htext, hne⟩ := hrecent (by simpa using hvalid)
  exact ⟨htext, hne (by decide) (by decide)⟩

end VynxDesk.TerminalService.OutputBuffer
