import VynxDesk.Lib.Lines
import VynxDesk.Lib.Run
import VynxDesk.Lib.SplitOn
import VynxDesk.Terminal.OutputBuffer

/-!
# The lines of the output buffer

An output buffer is what it holds: its lines are the lines of its contents, its size is their
length, and its last line is incomplete when the contents are (`OutputBuffer.ofContents`).
Appending to it puts the data behind the contents, and forgets lines when it gets to the trimming
loop (`OutputBuffer.append_ofContents`).
-/

namespace VynxDesk.TerminalService.OutputBuffer

/-- The buffer of its contents. -/
def ofContents (contents : Bytes) : OutputBuffer where
  lines := linesOf newline contents
  totalSize := contents.length
  lastLineIncomplete := ¬ Complete newline contents

@[simp]
theorem contents_ofContents (text : Bytes) :
  (ofContents text).contents = text
  := by
  rw [contents, ofContents, flatten_linesOf]

/-- The buffer after the loop of `append` that forgets old lines. -/
def trimmed (self : OutputBuffer) : OutputBuffer :=
  trim self.lines self.totalSize self.lastLineIncomplete

/-- A line is pushed behind a complete text, with its newline. -/
theorem ofContents_append_line {text line : Bytes} (htext : Complete newline text)
    (hline : newline ∉ line) :
  ofContents (text ++ (line ++ [newline])) = {
    lines := (ofContents text).lines ++ [line ++ [newline]]
    totalSize := (ofContents text).totalSize + (line ++ [newline]).length
    lastLineIncomplete := false }
  := by
  have hcomplete : Complete newline (text ++ (line ++ [newline])) := by
    rw [← List.append_assoc]
    apply complete_append_sep
  rw [ofContents, linesOf_append htext, linesOf_append_sep hline, List.length_append]
  simp [ofContents, hcomplete]

/-- Part of a line is pushed behind a complete text. -/
theorem ofContents_append_part {text part : Bytes} (htext : Complete newline text)
    (hne : part ≠ []) (hpart : newline ∉ part) :
  ofContents (text ++ part) = {
    lines := (ofContents text).lines ++ [part]
    totalSize := (ofContents text).totalSize + part.length
    lastLineIncomplete := true }
  := by
  have hincomplete : ¬ Complete newline (text ++ part) := by
    rw [complete_append_iff hne]
    rintro (h | h)
    · exact hne h
    · exact hpart (List.mem_of_getLast? h)
  rw [ofContents, linesOf_append htext, linesOf_of_notMem hne hpart, List.length_append]
  simp [ofContents, hincomplete]

/-- The lines of a text that are pushed are those of the text behind the contents. -/
theorem pushLines_ofContents {endsWithNewline : Bool} {lines : List Bytes} {text : Bytes}
    (hends : endsWithNewline → lines.getLast? = some [])
    (hlines : ∀ line ∈ lines, newline ∉ line) (htext : Complete newline text) :
  pushLines endsWithNewline lines (ofContents text)
    = ofContents (text ++ [newline].intercalate lines)
  := by
  induction lines generalizing text with
  | nil => simp [pushLines]
  | cons line rest ih =>
      rw [List.forall_mem_cons] at hlines
      cases rest with
      | nil =>
          rw [List.intercalate_singleton]
          by_cases hline : line = []
          · simp [pushLines, hline]
          · have hnot : endsWithNewline = false := by
              by_contra htrue
              have hlast := hends (by simpa using htrue)
              exact hline (by simpa using hlast)
            rw [ofContents_append_part htext hline hlines.1]
            simp [pushLines, hline, hnot]
      | cons next rest =>
          have hends' : endsWithNewline → (next :: rest).getLast? = some [] := by
            simpa using hends
          have hcomplete : Complete newline (text ++ (line ++ [newline])) := by
            rw [← List.append_assoc]
            apply complete_append_sep
          have hfirst : pushLines endsWithNewline (line :: next :: rest) (ofContents text)
              = pushLines endsWithNewline (next :: rest)
                (ofContents (text ++ (line ++ [newline]))) := by
            rw [ofContents_append_line htext hlines.1, pushLines]
            simp [ofContents, htext]
          rw [hfirst, ih hends' hlines.2 hcomplete, List.intercalate_cons_cons]
          simp only [List.append_assoc]

/-- Text that is pushed line by line is put behind complete contents. -/
theorem appendLines_ofContents {text : Bytes} (htext : Complete newline text) (remaining : Bytes) :
  appendLines remaining (ofContents text) = (ofContents (text ++ remaining)).trimmed
  := by
  have hends : decide (remaining.getLast? = some newline) →
      (remaining.splitOn newline).getLast? = some [] := by
    intro hlast
    obtain ⟨before, rfl⟩ := List.getLast?_eq_some_iff.mp (of_decide_eq_true hlast)
    rw [List.splitOn_append_cons_self]
    simp
  have hlines : ∀ line ∈ remaining.splitOn newline, newline ∉ line :=
    fun _ => notMem_of_mem_splitOn
  rw [appendLines, pushLines_ofContents hends hlines htext, List.intercalate_splitOn]
  rfl

/-- The data makes the incomplete last line longer, and nothing else. -/
def Continues (data : Bytes) (self : OutputBuffer) : Prop :=
  self.lastLineIncomplete = true ∧ newline ∉ data

instance (data : Bytes) (self : OutputBuffer) : Decidable (Continues data self) :=
  inferInstanceAs (Decidable (_ ∧ _))

/-- The last line of incomplete contents, and the buffer without it. -/
theorem ofContents_of_not_complete {text : Bytes} (h : ¬ Complete newline text) :
  ∃ before part, text = before ++ part ∧ Complete newline before ∧ part ≠ [] ∧ newline ∉ part ∧
    (ofContents text).lines = linesOf newline before ++ [part]
  := by
  obtain ⟨before, part, rfl, hbefore, hne, hpart⟩ := exists_of_not_complete h
  refine ⟨before, part, rfl, hbefore, hne, hpart, ?_⟩
  rw [ofContents_append_part hbefore hne hpart]
  rfl

/-- Data that ends the last line ends the contents with it. -/
theorem ofContents_append_end {before part data : Bytes} (hbefore : Complete newline before)
    (hpart : newline ∉ part) (hdata : newline ∉ data) :
  ofContents (before ++ part ++ (data ++ [newline])) = {
    lines := linesOf newline before ++ [part ++ (data ++ [newline])]
    totalSize := (before ++ part).length + (data.length + 1)
    lastLineIncomplete := false }
  := by
  have hnot : newline ∉ part ++ data := by
    rw [List.mem_append, not_or]
    exact ⟨hpart, hdata⟩
  have htext : before ++ part ++ (data ++ [newline]) = before ++ ((part ++ data) ++ [newline]) := by
    simp only [List.append_assoc]
  rw [htext, ofContents_append_line hbefore hnot]
  simp [ofContents, Nat.add_assoc]

/-- Appending puts the data behind the contents; then lines are forgotten, unless the data is empty
or only makes the last line longer. -/
theorem append_ofContents (data text : Bytes) :
  (ofContents text).append data
    = if data = [] ∨ (ofContents text).Continues data then ofContents (text ++ data)
      else (ofContents (text ++ data)).trimmed
  := by
  rw [append]
  by_cases hdata : data = []
  · simp [hdata]
  · rw [if_neg hdata]
    by_cases htext : Complete newline text
    · have hflag : (ofContents text).lastLineIncomplete = false := by
        simp [ofContents, htext]
      have hnot : ¬ (data = [] ∨ (ofContents text).Continues data) := by
        simp [Continues, hdata, hflag]
      rw [if_neg hnot, hflag]
      apply appendLines_ofContents htext
    · have hflag : (ofContents text).lastLineIncomplete = true := by
        simp [ofContents, htext]
      obtain ⟨before, part, rfl, hbefore, hne, hpart, hlines⟩ := ofContents_of_not_complete htext
      have hlast : (ofContents (before ++ part)).lines.getLast? = some part := by
        rw [hlines]
        exact List.getLast?_concat
      have hdrop : (ofContents (before ++ part)).lines.dropLast = linesOf newline before := by
        rw [hlines]
        exact List.dropLast_concat
      rw [hflag, if_pos rfl, hlast, hdrop]
      dsimp only
      cases hfind : data.findIdx? (· = newline) with
      | none =>
          have hmem : newline ∉ data := by
            intro hmem
            have h := List.findIdx?_eq_none_iff.mp hfind newline hmem
            simp at h
          have hcontinues : data = [] ∨ (ofContents (before ++ part)).Continues data := by
            right
            exact ⟨hflag, hmem⟩
          have hlong : part ++ data ≠ [] := by
            simp [hne]
          have hnot : newline ∉ part ++ data := by
            rw [List.mem_append, not_or]
            exact ⟨hpart, hmem⟩
          rw [if_pos hcontinues, List.append_assoc, ofContents_append_part hbefore hlong hnot]
          simp [ofContents, Nat.add_assoc]
      | some newlinePos =>
          obtain ⟨hmem, htake, hlength⟩ := take_of_findIdx?_eq_some hfind
          have hcontains : newline ∈ data := by
            apply List.mem_of_mem_take
            rw [htake]
            simp
          have hcontinues : ¬ (data = [] ∨ (ofContents (before ++ part)).Continues data) := by
            rintro (h | h)
            · exact hdata h
            · exact h.2 hcontains
          have hended := ofContents_append_end hbefore hpart hmem
          rw [← htake, hlength] at hended
          have hcomplete : Complete newline (before ++ part ++ data.take (newlinePos + 1)) := by
            rw [htake, ← List.append_assoc]
            apply complete_append_sep
          have hrest := appendLines_ofContents hcomplete (data.drop (newlinePos + 1))
          rw [hended, List.append_assoc, List.take_append_drop] at hrest
          rw [if_neg hcontinues, ← hrest]
          rfl

/-- The trimming loop keeps the last lines, and the buffer stays that of its contents. -/
theorem trim_eq_ofContents {lines : List Bytes} (hlines : linesOf newline lines.flatten = lines) :
  ∃ kept, kept <:+ lines ∧
    trim lines lines.flatten.length (ofContents lines.flatten).lastLineIncomplete
      = ofContents kept.flatten
  := by
  induction lines with
  | nil =>
      refine ⟨[], List.suffix_rfl, ?_⟩
      rfl
  | cons removed lines ih =>
      have hrest : linesOf newline lines.flatten = lines := linesOf_flatten_of_cons hlines
      have hsize : ¬ (removed :: lines).flatten.length < removed.length := by
        rw [List.flatten_cons, List.length_append]
        omega
      have hleft : (removed :: lines).flatten.length - removed.length = lines.flatten.length := by
        rw [List.flatten_cons, List.length_append, Nat.add_sub_cancel_left]
      have hflag : (if lines = [] then false
            else (ofContents (removed :: lines).flatten).lastLineIncomplete)
          = (ofContents lines.flatten).lastLineIncomplete := by
        split_ifs with hnil
        · rw [hnil]
          rfl
        · have hne : lines.flatten ≠ [] := by
            intro hempty
            rw [hempty] at hrest
            exact hnil hrest.symm
          simp only [ofContents, List.flatten_cons, complete_append_iff hne]
      rw [trim, if_neg hsize, hleft, hflag]
      split_ifs with hover
      · obtain ⟨kept, hkept, htrim⟩ := ih hrest
        exact ⟨kept, hkept.trans (List.suffix_cons removed lines), htrim⟩
      · refine ⟨removed :: lines, List.suffix_rfl, ?_⟩
        rw [ofContents, hlines]

/-- The trimming loop keeps the last lines of the contents. -/
theorem exists_trimmed_ofContents (text : Bytes) :
  ∃ kept, kept <:+ linesOf newline text ∧ (ofContents text).trimmed = ofContents kept.flatten
  := by
  have htext : linesOf newline (linesOf newline text).flatten = linesOf newline text := by
    rw [flatten_linesOf]
  have h := trim_eq_ofContents htext
  rw [flatten_linesOf] at h
  exact h

/-- Appending keeps the last lines of the contents and the data. -/
theorem exists_append_ofContents (data text : Bytes) :
  ∃ kept, kept <:+ linesOf newline (text ++ data) ∧
    (ofContents text).append data = ofContents kept.flatten
  := by
  rw [append_ofContents]
  split_ifs
  · refine ⟨linesOf newline (text ++ data), List.suffix_rfl, ?_⟩
    rw [flatten_linesOf]
  · apply exists_trimmed_ofContents

/-! ### Runs of appends -/

/-- One append. -/
def Appends (self : OutputBuffer) (data : Bytes) (self' : OutputBuffer) : Prop :=
  self' = self.append data

/-- A new buffer that is appended to is the buffer of its contents. -/
theorem ofContents_contents_of_run {h : List (OutputBuffer × Bytes)} {self : OutputBuffer}
    (hrun : Run Appends {} h self) :
  self = ofContents self.contents
  := by
  apply hrun.invariant (fun self => self = ofContents self.contents) rfl
  rintro self data self' hself rfl
  obtain ⟨kept, -, happend⟩ := exists_append_ofContents data self.contents
  rw [← hself] at happend
  rw [happend, contents_ofContents]

/-- What a buffer holds ends what was appended to it. -/
theorem contents_suffix_of_run {h : List (OutputBuffer × Bytes)} {self : OutputBuffer}
    (hrun : Run Appends {} h self) :
  self.contents <:+ (h.map Prod.snd).flatten
  := by
  apply hrun.history_invariant (fun h self => self.contents <:+ (h.map Prod.snd).flatten)
    List.suffix_rfl
  rintro h self data self' - hself rfl
  obtain ⟨before, hbefore⟩ := hself
  rw [List.map_append, List.flatten_append, List.map_singleton, List.flatten_singleton, ← hbefore,
    List.append_assoc]
  exact (append_suffix data self).trans (List.suffix_append before _)

/-- What a buffer is made of: the sum of the lengths of its lines is its size, no line is empty,
every line but the last ends with its only newline, and the last line is incomplete when there is
one that does not end with a newline. -/
structure Represents (buffer : OutputBuffer) : Prop where
  size : buffer.totalSize = (buffer.lines.map List.length).sum
  nonempty : ∀ line ∈ buffer.lines, line ≠ []
  ended : ∀ line ∈ buffer.lines.dropLast, ∃ text, newline ∉ text ∧ line = text ++ [newline]
  incomplete : buffer.lastLineIncomplete = true ↔
    ∃ last, buffer.lines.getLast? = some last ∧ last.getLast? ≠ some newline

theorem represents_ofContents (text : Bytes) :
  (ofContents text).Represents
  := by
  refine ⟨?_, fun _ => ne_nil_of_mem_linesOf, fun _ => eq_append_sep_of_mem_dropLast, ?_⟩
  · rw [← List.length_flatten]
    exact congrArg List.length (flatten_linesOf text).symm
  · rw [ofContents, decide_eq_true_eq]
    dsimp only
    constructor
    · intro h
      cases hlast : (linesOf newline text).getLast? with
      | none =>
          rw [List.getLast?_eq_none_iff, linesOf_eq_nil_iff] at hlast
          exact absurd (Or.inl hlast) h
      | some last =>
          use last, rfl
          rw [← getLast?_of_getLast?_linesOf hlast]
          intro hend
          exact h (Or.inr hend)
    · rintro ⟨last, hlast, hend⟩ (htext | htext)
      · rw [linesOf_eq_nil_iff.mpr htext] at hlast
        cases hlast
      · rw [getLast?_of_getLast?_linesOf hlast] at htext
        exact hend htext

/-- A new buffer that is appended to is made of lines, holds a suffix of what was appended, and is
the same however this was cut, as long as nothing of it is forgotten. -/
theorem represents_of_run {h : List (OutputBuffer × Bytes)} {self : OutputBuffer}
    (hrun : Run Appends {} h self) :
  self.Represents ∧ self.contents <:+ (h.map Prod.snd).flatten ∧
    ∀ {h' : List (OutputBuffer × Bytes)} {self' : OutputBuffer}, Run Appends {} h' self' →
      (h.map Prod.snd).flatten = (h'.map Prod.snd).flatten →
      self.contents = (h.map Prod.snd).flatten → self'.contents = (h'.map Prod.snd).flatten →
      self = self'
  := by
  have hself := ofContents_contents_of_run hrun
  refine ⟨?_, contents_suffix_of_run hrun, ?_⟩
  · rw [hself]
    apply represents_ofContents
  · intro h' self' hrun' hsame hheld hheld'
    rw [hself, ofContents_contents_of_run hrun', hheld, hheld', hsame]

/-- Two ways to cut two lines: the buffer is the same. -/
theorem represents_prompt :
  (append [10, 62] (append [104, 105] {})).Represents ∧
    append [10, 62] (append [104, 105] {}) = append [62] (append [105, 10] (append [104] {}))
  := by
  have hrun : Run Appends {} [({}, [104, 105]), (append [104, 105] {}, [10, 62])]
      (append [10, 62] (append [104, 105] {})) := (Run.nil.snoc rfl).snoc rfl
  have hrun' : Run Appends {}
      [({}, [104]), (append [104] {}, [105, 10]), (append [105, 10] (append [104] {}), [62])]
      (append [62] (append [105, 10] (append [104] {}))) :=
    ((Run.nil.snoc rfl).snoc rfl).snoc rfl
  obtain ⟨hrepresents, -, hsame⟩ := represents_of_run hrun
  refine ⟨hrepresents, hsame hrun' rfl ?_ ?_⟩
  · decide
  · decide

end VynxDesk.TerminalService.OutputBuffer
