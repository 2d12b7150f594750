import Mathlib.Algebra.GroupWithZero.Nat
import Mathlib.Data.List.Basic

/-!
# The output buffer of a terminal

`OutputBuffer` of `server/terminal_service.rs` keeps what a terminal has put out, line by line.  It
forgets whole lines, the oldest first, and what it returns as recent ends where it ends: both leave
a suffix (`OutputBuffer.append_suffix`, `OutputBuffer.getRecent_suffix`).
-/

namespace VynxDesk.TerminalService

abbrev Bytes : Type := List UInt8

/-- `MAX_OUTPUT_BUFFER_SIZE`. -/
def maxOutputBufferSize : ℕ := 1024 * 1024

/-- `MAX_BUFFER_LINES`. -/
def maxBufferLines : ℕ := 10000

/-- `b'\n'`. -/
def newline : UInt8 := 10

/-- `OutputBuffer`. -/
structure OutputBuffer where
  lines : List Bytes := []
  totalSize : ℕ := 0
  lastLineIncomplete : Bool := false
  deriving DecidableEq, Repr

namespace OutputBuffer

/-- The loop of `append` over the lines of the remaining data. -/
def pushLines (endsWithNewline : Bool) : List Bytes → OutputBuffer → OutputBuffer
  | [], self => self
  | line :: rest, self =>
      let self :=
        if rest = [] ∧ !endsWithNewline ∧ line ≠ [] then { self with lastLineIncomplete := true }
        else self
      let self :=
        if line ≠ [] ∨ rest ≠ [] then
          let lineData := if rest ≠ [] ∨ endsWithNewline then line ++ [newline] else line
          { self with
            totalSize := self.totalSize + lineData.length
            lines := self.lines ++ [lineData] }
        else self
      pushLines endsWithNewline rest self

/-- The loop of `append` that forgets old lines, with the size and the mark of the last line. -/
def trim : List Bytes → ℕ → Bool → OutputBuffer
  | [], totalSize, lastLineIncomplete =>
      if maxOutputBufferSize < totalSize then ⟨[], 0, false⟩
      else ⟨[], totalSize, lastLineIncomplete⟩
  | removed :: lines, totalSize, lastLineIncomplete =>
      if maxOutputBufferSize < totalSize ∨ maxBufferLines < (removed :: lines).length then
        trim lines
          (if totalSize < removed.length then (lines.map List.length).sum
            else totalSize - removed.length)
          (if lines = [] then false else lastLineIncomplete)
      else ⟨removed :: lines, totalSize, lastLineIncomplete⟩

/-- What `append` does once the last line is dealt with. -/
def appendLines (remaining : Bytes) (self : OutputBuffer) : OutputBuffer :=
  let endsWithNewline := remaining.getLast? = some newline
  let self := pushLines endsWithNewline (remaining.splitOn newline) self
  trim self.lines self.totalSize self.lastLineIncomplete

/-- `append`. -/
def append (data : Bytes) (self : OutputBuffer) : OutputBuffer :=
  if data = [] then self
  else
    match (if self.lastLineIncomplete then self.lines.getLast? else none) with
    | none => appendLines data self
    | some lastLine =>
        match data.findIdx? (· = newline) with
        | some newlinePos =>
            appendLines (data.drop (newlinePos + 1)) {
              lines := self.lines.dropLast ++ [lastLine ++ data.take (newlinePos + 1)]
              totalSize := self.totalSize + (newlinePos + 1)
              lastLineIncomplete := false }
        | none =>
            { self with
              lines := self.lines.dropLast ++ [lastLine ++ data]
              totalSize := self.totalSize + data.length }

/-- `while skipped < 3 && ..`: the offset behind at most `n` continuation bytes. -/
def skipContinuation (line : Bytes) : ℕ → ℕ → ℕ
  | 0, offset => offset
  | n + 1, offset =>
      match (line)[offset]? with
      | some b => if b &&& 0xC0 = 0x80 then skipContinuation line n (offset + 1) else offset
      | none => offset

/-- The loop of `get_recent` from the newest line on: the chunks it pushes, in this order. -/
def collect (maxBytes : ℕ) : List Bytes → ℕ → List Bytes
  | [], _ => []
  | line :: older, size =>
      if maxBytes < size + line.length then
        if size = 0 ∧ maxBytes < line.length then
          let offset := skipContinuation line 3 (line.length - maxBytes)
          if offset < line.length then [line.drop offset] else []
        else []
      else line :: collect maxBytes older (size + line.length)

/-- `get_recent`. -/
def getRecent (maxBytes : ℕ) (self : OutputBuffer) : Bytes :=
  if maxBytes = 0 then [] else (collect maxBytes self.lines.reverse 0).reverse.flatten

/-- What the buffer holds. -/
def contents (self : OutputBuffer) : Bytes := self.lines.flatten

/-- The lines of a text are pushed with the newlines between them. -/
theorem contents_pushLines {endsWithNewline : Bool} {lines : List Bytes}
    (hends : endsWithNewline → lines.getLast? = some []) (self : OutputBuffer) :
  (pushLines endsWithNewline lines self).contents
    = self.contents ++ [newline].intercalate lines
  := by
  induction lines generalizing self with
  | nil => simp [pushLines, contents]
  | cons line rest ih =>
      cases rest with
      | nil =>
          cases hnewline : endsWithNewline with
          | true =>
              have hline : line = [] := by simpa using hends hnewline
              simp [pushLines, contents, hline]
          | false => by_cases hline : line = [] <;> simp [pushLines, contents, hline]
      | cons next rest =>
          have hends' : endsWithNewline → (next :: rest).getLast? = some [] := by
            simpa using hends
          rw [pushLines]
          rw [ih hends']
          simp [contents, List.intercalate_cons_cons]

/-- Forgetting old lines leaves a suffix. -/
theorem contents_trim (lines : List Bytes) (totalSize : ℕ) (lastLineIncomplete : Bool) :
  (trim lines totalSize lastLineIncomplete).contents <:+ lines.flatten
  := by
  induction lines generalizing totalSize lastLineIncomplete with
  | nil =>
      rw [trim]
      split_ifs <;> exact List.suffix_rfl
  | cons removed lines ih =>
      rw [trim]
      split_ifs
      all_goals
        first
        | exact List.suffix_rfl
        | exact (ih _ _).trans (List.suffix_append removed lines.flatten)

/-- Lines are appended to what the buffer holds, of which a suffix is kept. -/
theorem contents_appendLines (remaining : Bytes) (self : OutputBuffer) :
  (appendLines remaining self).contents <:+ self.contents ++ remaining
  := by
  have hends : decide (remaining.getLast? = some newline) →
      (remaining.splitOn newline).getLast? = some [] := by
    intro hlast
    obtain ⟨before, rfl⟩ := List.getLast?_eq_some_iff.mp (of_decide_eq_true hlast)
    rw [List.splitOn_append_cons_self]
    simp
  have hpush := contents_pushLines hends self
  rw [List.intercalate_splitOn] at hpush
  rw [← hpush]
  apply contents_trim

/-- What is put out is appended to what the buffer holds, of which a suffix is kept. -/
theorem append_suffix (data : Bytes) (self : OutputBuffer) :
  (self.append data).contents <:+ self.contents ++ data
  := by
  rw [append]
  by_cases hempty : data = []
  · simp [hempty]
  · rw [if_neg hempty]
    cases hlast : (if self.lastLineIncomplete then self.lines.getLast? else none) with
    | none => apply contents_appendLines
    | some lastLine =>
        have hmerge (text : Bytes) :
            (self.lines.dropLast ++ [lastLine ++ text]).flatten = self.contents ++ text := by
          split_ifs at hlast
          obtain ⟨before, hlines⟩ := List.getLast?_eq_some_iff.mp hlast
          rw [contents, hlines]
          simp
        dsimp only
        cases data.findIdx? (· = newline) with
        | some newlinePos =>
            have happend := contents_appendLines (data.drop (newlinePos + 1)) {
              lines := self.lines.dropLast ++ [lastLine ++ data.take (newlinePos + 1)]
              totalSize := self.totalSize + (newlinePos + 1)
              lastLineIncomplete := false }
            have hheld : contents {
                lines := self.lines.dropLast ++ [lastLine ++ data.take (newlinePos + 1)]
                totalSize := self.totalSize + (newlinePos + 1)
                lastLineIncomplete := false }
                = self.contents ++ data.take (newlinePos + 1) := hmerge _
            rw [hheld, List.append_assoc, List.take_append_drop] at happend
            exact happend
        | none =>
            use []
            apply hmerge data

/-- The chunks of `get_recent` make a suffix of the lines. -/
theorem collect_suffix (maxBytes : ℕ) (lines : List Bytes) (size : ℕ) :
  (collect maxBytes lines size).reverse.flatten <:+ lines.reverse.flatten
  := by
  induction lines generalizing size with
  | nil => exact List.suffix_rfl
  | cons line older ih =>
      rw [collect]
      split_ifs with hover hlarge
      · dsimp only
        split_ifs
        · rw [List.reverse_cons, List.flatten_append]
          simpa using (List.drop_suffix _ line).trans (List.suffix_append older.reverse.flatten line)
        · exact List.nil_suffix
      · exact List.nil_suffix
      · obtain ⟨before, hbefore⟩ := ih (size + line.length)
        use before
        rw [List.reverse_cons, List.reverse_cons, List.flatten_append, List.flatten_append,
          ← List.append_assoc, hbefore]

/-- What is returned as recent ends what the buffer holds. -/
theorem getRecent_suffix (maxBytes : ℕ) (self : OutputBuffer) :
  self.getRecent maxBytes <:+ self.contents
  := by
  rw [getRecent]
  split_ifs
  · exact List.nil_suffix
  · have hsuffix := collect_suffix maxBytes self.lines.reverse 0
    rw [List.reverse_reverse] at hsuffix
    exact hsuffix

end OutputBuffer

end VynxDesk.TerminalService
