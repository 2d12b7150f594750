import VynxDesk.Terminal.Lines

/-!
# The limits of the output buffer

The trimming loop of `append` ends within the limits, but an append that only makes an incomplete
last line longer returns before it.  A buffer stays within its limits exactly as long as no such
line grows beyond them (`OutputBuffer.within_iff_of_run`).
-/

namespace VynxDesk.TerminalService.OutputBuffer

/-- The limits of a buffer. -/
structure Within (buffer : OutputBuffer) : Prop where
  size : buffer.totalSize ≤ maxOutputBufferSize
  lines : buffer.lines.length ≤ maxBufferLines

/-- The trimming loop ends within the limits. -/
theorem within_trim (lines : List Bytes) (totalSize : ℕ) (lastLineIncomplete : Bool) :
  (trim lines totalSize lastLineIncomplete).Within
  := by
  induction lines generalizing totalSize lastLineIncomplete with
  | nil =>
      rw [trim]
      split_ifs with hover
      · exact ⟨Nat.zero_le _, Nat.zero_le _⟩
      · exact ⟨Nat.le_of_not_lt hover, Nat.zero_le _⟩
  | cons removed lines ih =>
      rw [trim]
      by_cases hover : maxOutputBufferSize < totalSize ∨ maxBufferLines < (removed :: lines).length
      · rw [if_pos hover]
        apply ih
      · rw [if_neg hover]
        rw [not_or] at hover
        exact ⟨Nat.le_of_not_lt hover.1, Nat.le_of_not_lt hover.2⟩

/-- The data fits into the buffer when it only makes the last line longer. -/
def Fits (data : Bytes) (self : OutputBuffer) : Prop :=
  self.Continues data → self.totalSize + data.length ≤ maxOutputBufferSize

/-- Data that makes the last line longer adds no line. -/
theorem length_lines_of_continues {text data : Bytes} (h : (ofContents text).Continues data) :
  (ofContents (text ++ data)).lines.length = (ofContents text).lines.length
  := by
  obtain ⟨hflag, hmem⟩ := h
  obtain ⟨before, part, rfl, hbefore, hne, hpart, hlines⟩ :=
    ofContents_of_not_complete (of_decide_eq_true hflag)
  have hlong : part ++ data ≠ [] := by
    simp [hne]
  have hnot : newline ∉ part ++ data := by
    rw [List.mem_append, not_or]
    exact ⟨hpart, hmem⟩
  rw [hlines, List.append_assoc, ofContents_append_part hbefore hlong hnot, List.length_append]
  simp [ofContents]

/-- An append leaves a buffer within its limits exactly when the data fits. -/
theorem within_append_iff {text data : Bytes} (h : (ofContents text).Within) :
  ((ofContents text).append data).Within ↔ (ofContents text).Fits data
  := by
  rw [append_ofContents]
  by_cases hcontinues : (ofContents text).Continues data
  · rw [if_pos (Or.inr hcontinues)]
    have hsize : (ofContents (text ++ data)).totalSize
        = (ofContents text).totalSize + data.length := List.length_append
    constructor
    · intro hwithin _
      rw [← hsize]
      apply hwithin.size
    · intro hfits
      constructor
      · rw [hsize]
        apply hfits hcontinues
      · rw [length_lines_of_continues hcontinues]
        apply h.lines
  · have hfits : (ofContents text).Fits data := fun hcontinues' => absurd hcontinues' hcontinues
    simp only [hfits, iff_true, hcontinues, or_false]
    split_ifs with hempty
    · rw [hempty, List.append_nil]
      exact h
    · apply within_trim

/-- A new buffer that is appended to is within its limits all the time exactly when all the data
fits. -/
theorem within_iff_of_run {h : List (OutputBuffer × Bytes)} {self : OutputBuffer}
    (hrun : Run Appends {} h self) :
  ((∀ x ∈ h, x.1.Within) ∧ self.Within) ↔ ∀ x ∈ h, x.1.Fits x.2
  := by
  have hlimits {self : OutputBuffer} {data : Bytes} (hself : self = ofContents self.contents)
      (hwithin : self.Within) : (self.append data).Within ↔ self.Fits data := by
    rw [hself] at hwithin ⊢
    apply within_append_iff hwithin
  apply hrun.forall_iff (fun self data => self.Fits data)
    (fun self => self = ofContents self.contents ∧ self.Within) Within
  · exact ⟨rfl, Nat.zero_le _, Nat.zero_le _⟩
  · exact fun _ h => h.2
  · rintro self data self' ⟨hself, hwithin⟩ hfits rfl
    refine ⟨?_, (hlimits hself hwithin).mpr hfits⟩
    obtain ⟨kept, -, happend⟩ := exists_append_ofContents data self.contents
    rw [← hself] at happend
    rw [happend, contents_ofContents]
  · rintro self data self' ⟨hself, hwithin⟩ rfl hwithin'
    apply (hlimits hself hwithin).mp hwithin'

theorem within_prompt :
  (append [62, 32] (append [104, 105, 10] {})).Within
  := by
  have hrun : Run Appends {} [({}, [104, 105, 10]), (append [104, 105, 10] {}, [62, 32])]
      (append [62, 32] (append [104, 105, 10] {})) := (Run.nil.snoc rfl).snoc rfl
  apply ((within_iff_of_run hrun).mpr _).2
  unfold Fits
  decide +kernel

/-- A line of one byte more than the buffer may hold, in two parts and without a newline, is kept.
-/
theorem not_within :
  ¬ ∀ (h : List (OutputBuffer × Bytes)) (self : OutputBuffer), Run Appends {} h self → self.Within
  := by
  intro h
  have hrun : Run Appends {}
      [({}, [65]), (append [65] {}, List.replicate maxOutputBufferSize 65)]
      (append (List.replicate maxOutputBufferSize 65) (append [65] {})) :=
    (Run.nil.snoc rfl).snoc rfl
  have hwithin := h _ _ hrun
  have hone : append [65] {} = ofContents [65] := by decide
  have hfirst : (ofContents [65]).Within := by
    constructor <;> decide
  rw [hone, within_append_iff hfirst] at hwithin
  have hcontinues : (ofContents [65]).Continues (List.replicate maxOutputBufferSize 65) := by
    constructor
    · decide
    · rw [List.mem_replicate]
      decide
  have hfits := hwithin hcontinues
  rw [List.length_replicate] at hfits
  change 1 + maxOutputBufferSize ≤ maxOutputBufferSize at hfits
  omega

end VynxDesk.TerminalService.OutputBuffer
