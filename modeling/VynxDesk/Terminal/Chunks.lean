import Mathlib.Data.List.Induction
import VynxDesk.Lib.Run
import VynxDesk.Lib.Utf8
import VynxDesk.Terminal.OutputBuffer

/-!
# The chunks of a terminal's output

`Utf8ChunkAccumulator` of `server/terminal_service.rs` holds back an incomplete character at the end
of what is read, until the next read.  Nothing is lost or held back for long, and of a text in UTF-8
every chunk is in UTF-8, however the text is cut into reads (`Utf8ChunkAccumulator.chunks_of_run`).
-/

namespace VynxDesk.TerminalService

open Utf8

/-- `seq_len` of a lead byte, if it is one. -/
def seqLen (b : UInt8) : Option ℕ :=
  if b &&& 0xE0 = 0xC0 then some 2
  else if b &&& 0xF0 = 0xE0 then some 3
  else if b &&& 0xF8 = 0xF0 then some 4
  else none

/-- The loop of `find_utf8_split_point`, with the indices from `start` on that are left: it looks at
the last one first. -/
def splitLoop (buf : Bytes) (start : ℕ) : ℕ → ℕ
  | 0 => buf.length
  | n + 1 =>
      match (buf)[start + n]? with
      | none => buf.length
      | some b =>
          if b &&& 0x80 = 0 then buf.length
          else if b &&& 0xC0 = 0x80 then splitLoop buf start n
          else
            match seqLen b with
            | none => buf.length
            | some seqLen =>
                if seqLen ≤ buf.length - (start + n) then buf.length else start + n

/-- `find_utf8_split_point`. -/
def findUtf8SplitPoint (buf : Bytes) : ℕ :=
  if buf = [] then 0
  else
    let start := buf.length - 3
    splitLoop buf start (buf.length - start)

/-- `Utf8ChunkAccumulator`. -/
structure Utf8ChunkAccumulator where
  remainder : Bytes := []
  deriving DecidableEq, Repr

namespace Utf8ChunkAccumulator

/-- `push_chunk`, behind the test for an empty read: `data` is what was held back and what was
read. -/
def splitChunk (hadRemainder : Bool) (data : Bytes) : Option Bytes × Utf8ChunkAccumulator :=
  let split := findUtf8SplitPoint data
  if split = data.length then (some data, { remainder := [] })
  else if !hadRemainder ∧ 0 < split ∧ !check (data.take split) then
    (some data, { remainder := [] })
  else (if data.take split = [] then none else some (data.take split),
    { remainder := data.drop split })

/-- `push_chunk`. -/
def pushChunk (data : Bytes) (self : Utf8ChunkAccumulator) :
    Option Bytes × Utf8ChunkAccumulator :=
  if data = [] then (none, self)
  else splitChunk (self.remainder ≠ []) (self.remainder ++ data)

/-- `finish`. -/
def finish (self : Utf8ChunkAccumulator) : Option Bytes × Utf8ChunkAccumulator :=
  if self.remainder = [] then (none, self) else (some self.remainder, { remainder := [] })

end Utf8ChunkAccumulator

/-! ### The split point -/

/-- At most three bytes are behind the split point. -/
theorem length_le_splitLoop (buf : Bytes) {start : ℕ} (hstart : start ≤ buf.length) (n : ℕ) :
  start ≤ splitLoop buf start n
  := by
  induction n with
  | zero => exact hstart
  | succ n ih =>
      rw [splitLoop]
      split
      next => exact hstart
      next =>
          split_ifs
          · exact hstart
          · exact ih
          · split
            next => exact hstart
            next =>
                split_ifs
                · exact hstart
                · omega

theorem length_le_findUtf8SplitPoint (buf : Bytes) :
  buf.length ≤ findUtf8SplitPoint buf + 3
  := by
  rw [findUtf8SplitPoint]
  split_ifs with hempty
  · rw [hempty]
    exact Nat.zero_le _
  · have h := length_le_splitLoop buf (Nat.sub_le buf.length 3) (buf.length - (buf.length - 3))
    dsimp only
    omega

/-- The loop goes over continuation bytes. -/
theorem splitLoop_tails {buf before tails after : Bytes} {start n : ℕ}
    (hbuf : buf = before ++ tails ++ after) (htails : ∀ b ∈ tails, IsTail b)
    (hn : start + n = (before ++ tails).length) (hstart : start ≤ before.length) :
  splitLoop buf start n = splitLoop buf start (before.length - start)
  := by
  induction tails using List.reverseRecOn generalizing after n with
  | nil =>
      rw [List.append_nil] at hn
      rw [← hn, Nat.add_sub_cancel_left]
  | append_singleton tails tail ih =>
      rw [List.forall_mem_append, List.forall_mem_singleton] at htails
      have hlength : start + n = (before ++ tails).length + 1 := by
        rw [hn, ← List.append_assoc, List.length_append]
        rfl
      obtain ⟨m, rfl⟩ : ∃ m, n = m + 1 := by
        rw [List.length_append] at hlength
        use n - 1
        omega
      have hat : (buf)[start + m]? = some tail := by
        have hm : start + m = (before ++ tails).length := by
          omega
        rw [hbuf, hm, ← List.append_assoc before, List.append_assoc (before ++ tails),
          List.getElem?_append_right (Nat.le_refl _), Nat.sub_self]
        rfl
      have htail : tail &&& 0xC0 = 0x80 := htails.2
      have hhigh : ¬ tail &&& 0x80 = 0 := by
        intro hascii
        have h := leadLength_eq tail
        rw [leadLength, if_pos hascii] at h
        have hrange := (isTail_iff tail).mp htail
        split_ifs at h <;> omega
      rw [splitLoop, hat]
      dsimp only
      rw [if_neg hhigh, if_pos htail]
      apply ih _ htails.1 (by omega)
      · exact [tail] ++ after
      · rw [hbuf]
        simp only [List.append_assoc]

theorem seqLen_eq {b : UInt8} (hlead : 1 ≤ leadLength b) (hhigh : ¬ b &&& 0x80 = 0) :
  seqLen b = some (leadLength b)
  := by
  rw [leadLength, if_neg hhigh] at hlead ⊢
  rw [seqLen]
  split_ifs at hlead ⊢
  · rfl
  · rfl
  · rfl
  · omega

/-- The loop ends at a lead byte: behind its character if that is whole, else before it. -/
theorem splitLoop_lead {buf : Bytes} {start n : ℕ} {lead : UInt8}
    (hat : (buf)[start + n]? = some lead) (hlead : 1 ≤ leadLength lead) :
  splitLoop buf start (n + 1)
    = if leadLength lead ≤ buf.length - (start + n) then buf.length else start + n
  := by
  have hlt : start + n < buf.length := (List.getElem?_eq_some_iff.mp hat).1
  have htail : ¬ lead &&& 0xC0 = 0x80 := by
    obtain ⟨k, hk⟩ : ∃ k, leadLength lead = k + 1 := ⟨leadLength lead - 1, by omega⟩
    apply not_isTail_of_leadLength hk
  rw [splitLoop, hat]
  dsimp only
  by_cases hascii : lead &&& 0x80 = 0
  · rw [if_pos hascii, leadLength, if_pos hascii, if_pos (by omega)]
  · rw [if_neg hascii, if_neg htail, seqLen_eq hlead hascii]

/-- Behind a lead byte and at most two continuation bytes the split point tells whether their
character is whole. -/
theorem findUtf8SplitPoint_lead {before tails : Bytes} {lead : UInt8}
    (hlead : 1 ≤ leadLength lead) (htails : ∀ b ∈ tails, IsTail b) (hlength : tails.length ≤ 2) :
  findUtf8SplitPoint (before ++ lead :: tails)
    = if leadLength lead ≤ tails.length + 1 then (before ++ lead :: tails).length
      else before.length
  := by
  have hbuf : before ++ lead :: tails = before ++ [lead] ++ tails ++ [] := by
    simp
  have hsize : (before ++ lead :: tails).length = before.length + (tails.length + 1) :=
    List.length_append
  have hstart : (before ++ lead :: tails).length - 3 ≤ before.length := by
    omega
  have hat : (before ++ lead :: tails)[before.length]? = some lead := by
    rw [List.getElem?_append_right (Nat.le_refl _), Nat.sub_self]
    rfl
  have hne : before ++ lead :: tails ≠ [] := by
    simp
  rw [findUtf8SplitPoint, if_neg hne]
  generalize (before ++ lead :: tails).length - 3 = start at hstart
  obtain ⟨n, hn⟩ := Nat.exists_eq_add_of_le hstart
  rw [hn] at hat
  dsimp only
  rw [splitLoop_tails hbuf htails]
  · have hcount : (before ++ [lead]).length - start = n + 1 := by
      rw [List.length_append, List.length_singleton]
      omega
    rw [hcount, splitLoop_lead hat hlead, hsize, hn]
    have hleft : start + n + (tails.length + 1) - (start + n) = tails.length + 1 := by
      omega
    rw [hleft]
  · simp only [List.length_append, List.length_cons, List.length_nil]
    omega
  · rw [List.length_append, List.length_singleton]
    omega

/-- The loop gives up behind three continuation bytes. -/
theorem findUtf8SplitPoint_tails {before tails : Bytes} (htails : ∀ b ∈ tails, IsTail b)
    (hlength : tails.length = 3) :
  findUtf8SplitPoint (before ++ tails) = (before ++ tails).length
  := by
  have hne : before ++ tails ≠ [] := by
    intro hnil
    rw [(List.append_eq_nil_iff.mp hnil).2] at hlength
    cases hlength
  have hsize : (before ++ tails).length = before.length + 3 := by
    rw [List.length_append, hlength]
  have hstart : (before ++ tails).length - 3 = before.length := by
    omega
  rw [findUtf8SplitPoint, if_neg hne]
  dsimp only
  rw [splitLoop_tails (List.append_nil _).symm htails (by omega) (Nat.le_of_eq hstart), hstart,
    Nat.sub_self, splitLoop]

/-- A text and an incomplete character are split between the two. -/
theorem findUtf8SplitPoint_append {whole part : Bytes} (hwhole : Valid whole)
    (hpart : Incomplete part) :
  findUtf8SplitPoint (whole ++ part) = whole.length
  := by
  cases part with
  | nil =>
      rw [List.append_nil]
      by_cases hne : whole = []
      · rw [hne]
        rfl
      · obtain ⟨before, lead, tails, rfl, hlength, htails⟩ := hwhole.exists_last hne
        have hle := leadLength_le lead
        by_cases hshort : tails.length ≤ 2
        · rw [findUtf8SplitPoint_lead (by omega) htails hshort, if_pos (Nat.le_of_eq hlength)]
        · have hbuf : before ++ lead :: tails = before ++ [lead] ++ tails := by
            simp
          rw [hbuf, findUtf8SplitPoint_tails htails (by omega)]
  | cons lead tails =>
      obtain ⟨hlength, htails⟩ := hpart.eq_cons
      have hle := leadLength_le lead
      rw [findUtf8SplitPoint_lead (by omega) htails (by omega), if_neg (Nat.not_le_of_lt hlength)]

namespace Utf8ChunkAccumulator

/-! ### The chunks -/

/-- A push loses nothing, and holds back at most three bytes. -/
theorem splitChunk_lossless (hadRemainder : Bool) (data : Bytes) :
  (splitChunk hadRemainder data).1.getD [] ++ (splitChunk hadRemainder data).2.remainder = data ∧
    (splitChunk hadRemainder data).2.remainder.length ≤ 3
  := by
  have hle := length_le_findUtf8SplitPoint data
  rw [splitChunk]
  split_ifs with hall hinvalid hnone
  · exact ⟨List.append_nil _, Nat.zero_le _⟩
  · exact ⟨List.append_nil _, Nat.zero_le _⟩
  · constructor
    · have hdata := List.take_append_drop (findUtf8SplitPoint data) data
      rw [hnone] at hdata
      exact hdata
    · rw [List.length_drop]
      omega
  · constructor
    · apply List.take_append_drop
    · rw [List.length_drop]
      omega

theorem pushChunk_lossless {self : Utf8ChunkAccumulator} (hself : self.remainder.length ≤ 3)
    (data : Bytes) :
  (self.pushChunk data).1.getD [] ++ (self.pushChunk data).2.remainder = self.remainder ++ data ∧
    (self.pushChunk data).2.remainder.length ≤ 3
  := by
  rw [pushChunk]
  split_ifs with hempty
  · rw [hempty, List.append_nil]
    exact ⟨rfl, hself⟩
  · apply splitChunk_lossless

/-- Of a text and an incomplete character the text is the chunk, the rest is held back. -/
theorem splitChunk_append {whole part : Bytes} (hwhole : Valid whole) (hpart : Incomplete part)
    (hne : whole ++ part ≠ []) (hadRemainder : Bool) :
  splitChunk hadRemainder (whole ++ part)
    = (if whole = [] then none else some whole, { remainder := part })
  := by
  have hcheck : check whole = true := check_iff.mpr hwhole
  rw [splitChunk, findUtf8SplitPoint_append hwhole hpart]
  rw [List.take_left, List.drop_left, hcheck]
  by_cases hall : part = []
  · rw [hall, List.append_nil] at hne ⊢
    rw [if_pos rfl, if_neg hne]
  · have hlength : ¬ whole.length = (whole ++ part).length := by
      rw [List.length_append]
      have hpos := List.length_pos_iff.mpr hall
      omega
    rw [if_neg hlength, if_neg (by simp)]

/-- `self` becomes `self'` by a push of `data`. -/
def Pushes (self : Utf8ChunkAccumulator) (data : Bytes) (self' : Utf8ChunkAccumulator) : Prop :=
  (self.pushChunk data).2 = self'

/-- The chunks that were pushed. -/
def inputs (h : List (Utf8ChunkAccumulator × Bytes)) : List Bytes := h.map Prod.snd

/-- The chunks that were emitted. -/
def emitted (h : List (Utf8ChunkAccumulator × Bytes)) : List Bytes :=
  h.filterMap fun x => (x.1.pushChunk x.2).1

/-- What holds of every run: nothing is lost, and of the first bytes of a text every chunk is a text
and what is held back is an incomplete character. -/
structure Chunked (h : List (Utf8ChunkAccumulator × Bytes)) (self : Utf8ChunkAccumulator) :
    Prop where
  lossless : (emitted h).flatten ++ self.remainder = (inputs h).flatten
  short : self.remainder.length ≤ 3
  valid : ∀ text, Valid text → (inputs h).flatten <+: text →
    (∀ chunk ∈ emitted h, Valid chunk) ∧ Incomplete self.remainder

theorem inputs_snoc (h : List (Utf8ChunkAccumulator × Bytes)) (self : Utf8ChunkAccumulator)
    (data : Bytes) :
  (inputs (h ++ [(self, data)])).flatten = (inputs h).flatten ++ data
  := by
  rw [inputs, List.map_append, List.flatten_append]
  exact congrArg _ (List.append_nil data)

theorem emitted_snoc (h : List (Utf8ChunkAccumulator × Bytes)) (self : Utf8ChunkAccumulator)
    (data : Bytes) :
  emitted (h ++ [(self, data)]) = emitted h ++ (self.pushChunk data).1.toList
  := by
  cases hchunk : (self.pushChunk data).1 with
  | none => simp [emitted, hchunk]
  | some chunk => simp [emitted, hchunk]

/-- A push of more of a text emits a text, if anything, and holds an incomplete character back. -/
theorem valid_pushChunk {self : Utf8ChunkAccumulator} {data text : Bytes}
    (hself : Incomplete self.remainder) (htext : Valid text) (h : self.remainder ++ data <+: text) :
  (∀ chunk ∈ (self.pushChunk data).1, Valid chunk) ∧ Incomplete (self.pushChunk data).2.remainder
  := by
  rw [pushChunk]
  split_ifs with hempty
  · exact ⟨nofun, hself⟩
  · obtain ⟨whole, part, hdata, hwhole, hpart⟩ := exists_of_prefix h htext
    have hne : whole ++ part ≠ [] := by
      rw [← hdata]
      simp [hempty]
    rw [hdata, splitChunk_append hwhole hpart hne]
    constructor
    · intro chunk hchunk
      dsimp only at hchunk
      split_ifs at hchunk with hnone
      · cases hchunk
      · rw [← Option.mem_some.mp hchunk]
        exact hwhole
    · exact hpart

theorem chunked_of_run {h : List (Utf8ChunkAccumulator × Bytes)} {self : Utf8ChunkAccumulator}
    (hrun : Run Pushes {} h self) :
  Chunked h self
  := by
  apply hrun.history_invariant Chunked
  · exact ⟨rfl, Nat.zero_le _, fun _ _ _ => ⟨nofun, incomplete_nil⟩⟩
  · rintro h self data self' - ⟨hlossless, hshort, hvalid⟩ rfl
    obtain ⟨hpush, hlength⟩ := pushChunk_lossless hshort data
    constructor
    · have hflatten : (self.pushChunk data).1.toList.flatten = (self.pushChunk data).1.getD [] := by
        cases (self.pushChunk data).1 with
        | none => rfl
        | some chunk => exact List.append_nil chunk
      rw [emitted_snoc, inputs_snoc, List.flatten_append, hflatten, List.append_assoc, hpush,
        ← List.append_assoc, hlossless]
    · exact hlength
    · intro text htext hprefix
      rw [inputs_snoc] at hprefix
      obtain ⟨hemitted, hincomplete⟩ :=
        hvalid text htext ((List.prefix_append _ _).trans hprefix)
      obtain ⟨rest, rfl⟩ := hprefix
      rw [← hlossless, List.append_assoc, List.append_assoc] at htext
      have hmore := (valid_flatten hemitted).of_append htext
      rw [← List.append_assoc] at hmore
      obtain ⟨hchunk, hheld⟩ :=
        valid_pushChunk hincomplete hmore (List.prefix_append (self.remainder ++ data) rest)
      refine ⟨?_, hheld⟩
      rw [emitted_snoc, List.forall_mem_append]
      refine ⟨hemitted, ?_⟩
      intro chunk hmem
      apply hchunk chunk (Option.mem_toList.mp hmem)

/-- However bytes are cut into reads, the emitted chunks and what is held back make them up, and
this is at most three bytes.  If the bytes are the first bytes of a text, every chunk is a text, and
`finish` returns the incomplete character at their end. -/
theorem chunks_of_run {h : List (Utf8ChunkAccumulator × Bytes)} {self : Utf8ChunkAccumulator}
    (hrun : Run Pushes {} h self) :
  (emitted h).flatten ++ self.remainder = (inputs h).flatten ∧ self.remainder.length ≤ 3 ∧
    ∀ text, Valid text → (inputs h).flatten <+: text →
      (∀ chunk ∈ emitted h, Valid chunk) ∧
      ∃ whole part, (inputs h).flatten = whole ++ part ∧ Valid whole ∧ Incomplete part ∧
        self.finish.1 = if part = [] then none else some part
  := by
  obtain ⟨hlossless, hshort, hvalid⟩ := chunked_of_run hrun
  refine ⟨hlossless, hshort, ?_⟩
  intro text htext hprefix
  obtain ⟨hemitted, hincomplete⟩ := hvalid text htext hprefix
  refine ⟨hemitted, _, _, hlossless.symm, valid_flatten hemitted, hincomplete, ?_⟩
  rw [finish]
  split_ifs <;> rfl

/-- Two characters in two reads, the last two bytes yet to come. -/
theorem chunks_accent :
  emitted (Run.trace (fun self data => (self.pushChunk data).2) {} [[0xE4, 0xB8], [0xAD, 0xE6]])
      = [[0xE4, 0xB8, 0xAD]] ∧ Valid [0xE4, 0xB8, 0xAD]
  := by
  have hemitted : emitted (Run.trace (fun self data => (self.pushChunk data).2) {}
      [[0xE4, 0xB8], [0xAD, 0xE6]]) = [[0xE4, 0xB8, 0xAD]] := by
    decide +kernel
  have hrun := Run.of_next (R := Pushes) (fun _ _ => rfl) [[0xE4, 0xB8], [0xAD, 0xE6]] {}
  have hprefix : (inputs (Run.trace (fun self data => (self.pushChunk data).2) {}
      [[0xE4, 0xB8], [0xAD, 0xE6]])).flatten <+: encode ['中', '文'] := by
    decide +kernel
  obtain ⟨-, -, htext⟩ := chunks_of_run hrun
  use hemitted
  apply (htext _ ⟨['中', '文'], rfl⟩ hprefix).1
  rw [hemitted]
  apply List.mem_singleton_self

end Utf8ChunkAccumulator

end VynxDesk.TerminalService
