import VynxDesk.Clipboard.Descriptor
import VynxDesk.Lib.SplitOn

/-!
# Descriptors that are not trusted

`FileDescription::parse_file_descriptors` once more, with the checks of its reads and of its
arithmetic: a read behind the end, and a result that is no number of its type, is a panic.  No read
is behind the end, and every name that is accepted is safe to join to a directory.  The only panic
is that of a last write time that is too late, and `Names.parsesSafely_iff` tells when it comes.
-/

namespace VynxDesk.Clipboard

/-! ### Parsing with checks -/

/-- `get_u32_le` and the like: a panic unless there are so many bytes left. -/
def checkedGet (n : ℕ) (bytes : Bytes) : Option (ℕ × Bytes) :=
  if n ≤ bytes.length then some (getLe n bytes) else none

/-- `advance`: a panic unless there are so many bytes left. -/
def checkedAdvance (n : ℕ) (bytes : Bytes) : Option Bytes :=
  if n ≤ bytes.length then some (bytes.drop n) else none

/-- `&block[..n]`: a panic unless there are so many bytes. -/
def checkedTake (n : ℕ) (bytes : Bytes) : Option Bytes :=
  if n ≤ bytes.length then some (bytes.take n) else none

/-- A sum of two `u64`. -/
def checkedAdd (a b : ℕ) : Option ℕ := if a + b < 2 ^ 64 then some (a + b) else none

/-- A product of two `u64`. -/
def checkedMul (a b : ℕ) : Option ℕ := if a * b < 2 ^ 64 then some (a * b) else none

/-- A difference of two `u64`. -/
def checkedSub (a b : ℕ) : Option ℕ := if b ≤ a then some (a - b) else none

/-- The arithmetic of a description: its size, and its last write time if it has one. -/
def checkedArithmetic (flags : BitVec 32) (lastWriteTime : BitVec 64)
    (fileSizeHigh fileSizeLow : BitVec 32) : Option Unit := do
  let _ ← checkedAdd (fileSizeHigh.setWidth 64 <<< 32).toNat fileSizeLow.toNat
  if flags &&& flagsFdLastWrite ≠ 0 ∧ ldapEpochDelta ≤ lastWriteTime then
    let sinceEpoch ← checkedSub lastWriteTime.toNat ldapEpochDelta.toNat
    let _ ← checkedMul sinceEpoch 100
    return ()
  else return ()

namespace Names

variable {Path : Type} (names : Names Path)

/-- What the fields of a descriptor describe, with the checks. -/
def checkedDescribeFields (connId flags attributes perm : BitVec 32) (lastWriteTime : BitVec 64)
    (fileSizeHigh fileSizeLow : BitVec 32) (text : String) :
    Option (Except CliprdrError FileDescription) :=
  if flags &&& flagsFdAttributes = 0 then
    some (.error (.InvalidRequest "file description must have valid attributes"))
  else do
    checkedArithmetic flags lastWriteTime fileSizeHigh fileSizeLow
    return names.describeFields connId flags attributes perm lastWriteTime fileSizeHigh fileSizeLow
      text

/-- `parse_file_descriptor`, with its checks. -/
def checkedParseFileDescriptor (connId : BitVec 32) (bytes : Bytes) :
    Option (Except CliprdrError (FileDescription × Bytes)) := do
  let flags ← checkedGet 4 bytes
  let reserved ← checkedAdvance 32 flags.2
  let attributes ← checkedGet 4 reserved
  let reserved ← checkedAdvance 12 attributes.2
  let perm ← checkedGet 4 reserved
  let lastWriteTime ← checkedGet 8 perm.2
  let fileSizeHigh ← checkedGet 4 lastWriteTime.2
  let fileSizeLow ← checkedGet 4 fileSizeHigh.2
  let block := fileSizeLow.2
  let rest ← checkedAdvance fileNameFieldSize fileSizeLow.2
  let block ← checkedTake fileNameFieldSize block
  match nameOfField block with
  | .error err => return .error err
  | .ok name =>
      let desc ← names.checkedDescribeFields connId (BitVec.ofNat 32 flags.1)
        (BitVec.ofNat 32 attributes.1) (BitVec.ofNat 32 perm.1) (BitVec.ofNat 64 lastWriteTime.1)
        (BitVec.ofNat 32 fileSizeHigh.1) (BitVec.ofNat 32 fileSizeLow.1) name
      return desc.map (·, rest)

/-- Parses `count` descriptors, with the checks. -/
def checkedParseDescriptors (connId : BitVec 32) :
    ℕ → Bytes → Option (Except CliprdrError (List FileDescription))
  | 0, _ => some (.ok [])
  | count + 1, data =>
      match names.checkedParseFileDescriptor connId data with
      | none => none
      | some (.error err) => some (.error err)
      | some (.ok desc) =>
          (checkedParseDescriptors connId count desc.2).map (·.map (desc.1 :: ·))

/-- `parse_file_descriptors`, with its checks. -/
def checkedParseFileDescriptors (connId : BitVec 32) (fileDescriptorPdu : Bytes) :
    Option (Except CliprdrError (List FileDescription)) :=
  if fileDescriptorPdu.length < 4 then
    some (.error (.InvalidRequest "file descriptor request with infficient length"))
  else do
    let count ← checkedGet 4 fileDescriptorPdu
    if count.2.length = 0 ∧ count.1 = 0 then return .ok []
    let expected ← checkedMul fileDescriptorSize count.1
    if count.2.length ≠ expected then
      return .error (.InvalidRequest "file descriptor request with invalid length")
    names.checkedParseDescriptors connId count.1 count.2

end Names

/-! ### What stands in a descriptor -/

/-- The flags of the descriptor at the start of the bytes. -/
def flagsOf (bytes : Bytes) : BitVec 32 := BitVec.ofNat 32 (getLe 4 bytes).1

/-- Its last write time. -/
def lastWriteTimeOf (bytes : Bytes) : BitVec 64 := BitVec.ofNat 64 (getLe 8 (bytes.drop 56)).1

/-- The text in the field of its name. -/
def textOf (bytes : Bytes) : Except CliprdrError String :=
  Names.nameOfField ((bytes.drop 72).take fileNameFieldSize)

/-- The name it is given, with slashes for backslashes. -/
def slashed (text : String) : String :=
  String.ofList (text.toList.map fun c => if c = '\\' then '/' else c)

/-- A relative path that stays below the directory it is joined to. -/
structure SafeName (name : String) : Prop where
  nonempty : name ≠ ""
  components : ∀ component ∈ name.toList.splitOn '/',
    component ≠ [] ∧ component ≠ ['.'] ∧ component ≠ ['.', '.']
  relative : name.toList.head? ≠ some '/'
  noDrive : startsWithDrive name.toList = false

/-- It has attributes and a text for a name, and its last write time is more nanoseconds behind the
Unix epoch than a `u64` holds. -/
structure TooLate (bytes : Bytes) : Prop where
  text : ∃ text, textOf bytes = .ok text
  attributes : flagsOf bytes &&& flagsFdAttributes ≠ 0
  lastWrite : flagsOf bytes &&& flagsFdLastWrite ≠ 0
  late : ldapEpochDelta.toNat * 100 + 2 ^ 64 ≤ (lastWriteTimeOf bytes).toNat * 100

namespace Names

variable {Path : Type} (names : Names Path)

/-- It has attributes, and a name that is accepted. -/
structure Accepts (bytes : Bytes) : Prop where
  text : ∃ text, textOf bytes = .ok text ∧ names.validateFileName (slashed text) = .ok ()
  attributes : flagsOf bytes &&& flagsFdAttributes ≠ 0

variable {names} {connId : BitVec 32} {bytes : Bytes}

theorem checkedArithmetic_eq (flags : BitVec 32) (lastWriteTime : BitVec 64)
    (fileSizeHigh fileSizeLow : BitVec 32) :
  checkedArithmetic flags lastWriteTime fileSizeHigh fileSizeLow
    = if flags &&& flagsFdLastWrite ≠ 0
        ∧ ldapEpochDelta.toNat * 100 + 2 ^ 64 ≤ lastWriteTime.toNat * 100 then none
      else some ()
  := by
  have hhigh : (fileSizeHigh.setWidth 64 <<< 32).toNat = fileSizeHigh.toNat * 2 ^ 32 := by
    have hlt := fileSizeHigh.isLt
    rw [BitVec.toNat_shiftLeft, BitVec.toNat_setWidth, Nat.shiftLeft_eq]
    omega
  have hsize : (fileSizeHigh.setWidth 64 <<< 32).toNat + fileSizeLow.toNat < 2 ^ 64 := by
    have hlt := fileSizeHigh.isLt
    have hlt' := fileSizeLow.isLt
    omega
  rw [checkedArithmetic, checkedAdd, if_pos hsize]
  simp only [Option.bind_eq_bind, Option.bind_some]
  by_cases htime : flags &&& flagsFdLastWrite ≠ 0 ∧ ldapEpochDelta ≤ lastWriteTime
  · have hnat : ldapEpochDelta.toNat ≤ lastWriteTime.toNat := BitVec.le_def.mp htime.2
    rw [if_pos htime, checkedSub, if_pos hnat, Option.bind_some, checkedMul]
    by_cases hlate : ldapEpochDelta.toNat * 100 + 2 ^ 64 ≤ lastWriteTime.toNat * 100
    · rw [if_neg (by omega), if_pos ⟨htime.1, hlate⟩]
      rfl
    · rw [if_pos (by omega), if_neg (fun h => hlate h.2)]
      rfl
  · have hnot : ¬ (flags &&& flagsFdLastWrite ≠ 0
        ∧ ldapEpochDelta.toNat * 100 + 2 ^ 64 ≤ lastWriteTime.toNat * 100) := by
      rintro ⟨hflag, hlate⟩
      apply htime ⟨hflag, _⟩
      have hless : ldapEpochDelta.toNat * 100 ≤ lastWriteTime.toNat * 100 :=
        (Nat.le_add_right _ _).trans hlate
      rw [BitVec.le_def]
      apply Nat.le_of_mul_le_mul_right hless (by decide)
    rw [if_neg htime, if_neg hnot]
    rfl

/-- A descriptor is read by its fields. -/
theorem parseFileDescriptor_eq :
  names.parseFileDescriptor connId bytes
    = (textOf bytes).bind fun text =>
        (names.describeFields connId (flagsOf bytes) (BitVec.ofNat 32 (getLe 4 (bytes.drop 36)).1)
          (BitVec.ofNat 32 (getLe 4 (bytes.drop 52)).1) (lastWriteTimeOf bytes)
          (BitVec.ofNat 32 (getLe 4 (bytes.drop 64)).1)
          (BitVec.ofNat 32 (getLe 4 (bytes.drop 68)).1) text).map (·, bytes.drop fileDescriptorSize)
  := by
  rw [parseFileDescriptor]
  simp only [getLe, List.drop_drop, bind, pure]
  rfl

/-- A description has attributes, and the name that was validated. -/
theorem describeFields_ok {flags attributes perm : BitVec 32} {lastWriteTime : BitVec 64}
    {fileSizeHigh fileSizeLow : BitVec 32} {text : String} {desc : FileDescription}
    (h : names.describeFields connId flags attributes perm lastWriteTime fileSizeHigh fileSizeLow
      text = .ok desc) :
  flags &&& flagsFdAttributes ≠ 0 ∧ names.validateFileName (slashed text) = .ok () ∧
    desc.name = slashed text
  := by
  by_cases hflags : flags &&& flagsFdAttributes = 0
  · rw [describeFields, if_pos hflags] at h
    cases h
  · rw [describeFields, if_neg hflags] at h
    change (names.validateFileName (slashed text)).bind _ = _ at h
    cases hvalid : names.validateFileName (slashed text) with
    | error err =>
        rw [hvalid] at h
        cases h
    | ok =>
        rw [hvalid] at h
        cases h
        exact ⟨hflags, rfl, rfl⟩

/-- A descriptor that is read is accepted, and what is behind it is left. -/
theorem parseFileDescriptor_ok {r : FileDescription × Bytes}
    (h : names.parseFileDescriptor connId bytes = .ok r) :
  names.Accepts bytes ∧ names.validateFileName r.1.name = .ok () ∧
    r.2 = bytes.drop fileDescriptorSize
  := by
  rw [parseFileDescriptor_eq] at h
  cases htext : textOf bytes with
  | error err =>
      rw [htext] at h
      cases h
  | ok text =>
      rw [htext] at h
      simp only [Except.bind] at h
      generalize hdesc : names.describeFields _ _ _ _ _ _ _ text = desc at h
      cases desc with
      | error err => cases h
      | ok desc =>
          obtain ⟨hflags, hvalid, hname⟩ := describeFields_ok hdesc
          cases h
          refine ⟨⟨⟨text, htext, hvalid⟩, hflags⟩, ?_, rfl⟩
          rw [hname]
          exact hvalid

/-- A descriptor that is accepted is read. -/
theorem exists_of_accepts (h : names.Accepts bytes) :
  ∃ r, names.parseFileDescriptor connId bytes = .ok r
  := by
  obtain ⟨⟨text, htext, hvalid⟩, hflags⟩ := h
  rw [parseFileDescriptor_eq, htext]
  simp only [Except.bind]
  rw [describeFields, if_neg hflags]
  rw [slashed] at hvalid
  simp only [bind, Except.bind, pure, Except.pure, hvalid]
  exact ⟨_, rfl⟩

theorem checkedDescribeFields_eq {flags attributes perm : BitVec 32} {lastWriteTime : BitVec 64}
    {fileSizeHigh fileSizeLow : BitVec 32} {text : String} :
  names.checkedDescribeFields connId flags attributes perm lastWriteTime fileSizeHigh fileSizeLow
      text
    = if flags &&& flagsFdAttributes ≠ 0 ∧ flags &&& flagsFdLastWrite ≠ 0
        ∧ ldapEpochDelta.toNat * 100 + 2 ^ 64 ≤ lastWriteTime.toNat * 100 then none
      else some (names.describeFields connId flags attributes perm lastWriteTime fileSizeHigh
        fileSizeLow text)
  := by
  rw [checkedDescribeFields, checkedArithmetic_eq]
  by_cases hflags : flags &&& flagsFdAttributes = 0
  · rw [if_pos hflags, if_neg (fun h => h.1 hflags), describeFields, if_pos hflags]
    rfl
  · rw [if_neg hflags]
    by_cases hlate : flags &&& flagsFdLastWrite ≠ 0
        ∧ ldapEpochDelta.toNat * 100 + 2 ^ 64 ≤ lastWriteTime.toNat * 100
    · rw [if_pos hlate, if_pos ⟨hflags, hlate⟩]
      rfl
    · rw [if_neg hlate, if_neg (fun h => hlate h.2)]
      rfl

/-- With 592 bytes every read is within the bytes. -/
theorem checkedParseFileDescriptor_eq (hlength : fileDescriptorSize ≤ bytes.length) :
  names.checkedParseFileDescriptor connId bytes
    = match textOf bytes with
      | .error err => some (.error err)
      | .ok text =>
          (names.checkedDescribeFields connId (flagsOf bytes)
            (BitVec.ofNat 32 (getLe 4 (bytes.drop 36)).1)
            (BitVec.ofNat 32 (getLe 4 (bytes.drop 52)).1) (lastWriteTimeOf bytes)
            (BitVec.ofNat 32 (getLe 4 (bytes.drop 64)).1)
            (BitVec.ofNat 32 (getLe 4 (bytes.drop 68)).1) text).map
              (·.map (·, bytes.drop fileDescriptorSize))
  := by
  have hget (n k m : ℕ) (hm : k + n = m) (h : m ≤ fileDescriptorSize) :
      checkedGet n (bytes.drop k) = some (leNat ((bytes.drop k).take n), bytes.drop m) := by
    rw [checkedGet, if_pos, getLe, List.drop_drop, hm]
    rw [List.length_drop]
    omega
  have hadvance (n k m : ℕ) (hm : k + n = m) (h : m ≤ fileDescriptorSize) :
      checkedAdvance n (bytes.drop k) = some (bytes.drop m) := by
    rw [checkedAdvance, if_pos, List.drop_drop, hm]
    rw [List.length_drop]
    omega
  have htake : checkedTake fileNameFieldSize (bytes.drop 72)
      = some ((bytes.drop 72).take fileNameFieldSize) := by
    rw [checkedTake, if_pos]
    rw [List.length_drop]
    have hsize : fileDescriptorSize = 72 + fileNameFieldSize := rfl
    omega
  have hfirst : checkedGet 4 bytes = some (leNat (bytes.take 4), bytes.drop 4) :=
    hget 4 0 4 rfl (by decide)
  rw [checkedParseFileDescriptor, hfirst]
  change (checkedAdvance 32 (bytes.drop 4)).bind _ = _
  rw [hadvance 32 4 36 rfl (by decide)]
  change (checkedGet 4 (bytes.drop 36)).bind _ = _
  rw [hget 4 36 40 rfl (by decide)]
  change (checkedAdvance 12 (bytes.drop 40)).bind _ = _
  rw [hadvance 12 40 52 rfl (by decide)]
  change (checkedGet 4 (bytes.drop 52)).bind _ = _
  rw [hget 4 52 56 rfl (by decide)]
  change (checkedGet 8 (bytes.drop 56)).bind _ = _
  rw [hget 8 56 64 rfl (by decide)]
  change (checkedGet 4 (bytes.drop 64)).bind _ = _
  rw [hget 4 64 68 rfl (by decide)]
  change (checkedGet 4 (bytes.drop 68)).bind _ = _
  rw [hget 4 68 72 rfl (by decide)]
  change (checkedAdvance fileNameFieldSize (bytes.drop 72)).bind _ = _
  rw [hadvance fileNameFieldSize 72 fileDescriptorSize rfl (Nat.le_refl _)]
  change (checkedTake fileNameFieldSize (bytes.drop 72)).bind _ = _
  rw [htake, textOf, Option.bind_some]
  cases nameOfField ((bytes.drop 72).take fileNameFieldSize) with
  | error err => rfl
  | ok text => exact Option.map_eq_bind.symm

/-- A descriptor whose last write time is too late is a panic. -/
theorem checkedParseFileDescriptor_of_tooLate (hlength : fileDescriptorSize ≤ bytes.length)
    (h : TooLate bytes) :
  names.checkedParseFileDescriptor connId bytes = none
  := by
  obtain ⟨⟨text, htext⟩, hflags, hlast, hlate⟩ := h
  rw [checkedParseFileDescriptor_eq hlength, htext]
  dsimp only
  rw [checkedDescribeFields_eq, if_pos ⟨hflags, hlast, hlate⟩]
  rfl

/-- Every other descriptor is parsed. -/
theorem checkedParseFileDescriptor_of_not (hlength : fileDescriptorSize ≤ bytes.length)
    (h : ¬ TooLate bytes) :
  names.checkedParseFileDescriptor connId bytes = some (names.parseFileDescriptor connId bytes)
  := by
  rw [checkedParseFileDescriptor_eq hlength, parseFileDescriptor_eq]
  cases htext : textOf bytes with
  | error err => rfl
  | ok text =>
      dsimp only
      rw [checkedDescribeFields_eq, if_neg]
      · rfl
      · rintro ⟨hflags, hlast, hlate⟩
        apply h ⟨⟨text, htext⟩, hflags, hlast, hlate⟩

/-! ### The list -/

theorem size_le_of_length {count : ℕ} (hlength : bytes.length = fileDescriptorSize * (count + 1)) :
  fileDescriptorSize ≤ bytes.length
  := by
  rw [hlength]
  apply Nat.le_mul_of_pos_right _ (Nat.succ_pos _)

theorem drop_descriptors (k : ℕ) :
  (bytes.drop fileDescriptorSize).drop (fileDescriptorSize * k)
    = bytes.drop (fileDescriptorSize * (k + 1))
  := by
  rw [List.drop_drop, Nat.mul_succ, Nat.add_comm]

/-- The names of a list that is parsed are validated. -/
theorem validated_of_parseDescriptors {count : ℕ} {files : List FileDescription}
    (h : names.parseDescriptors connId count bytes = .ok files) :
  ∀ desc ∈ files, names.validateFileName desc.name = .ok ()
  := by
  induction count generalizing bytes files with
  | zero =>
      cases h
      apply List.forall_mem_nil
  | succ count ih =>
      rw [parseDescriptors] at h
      cases hparse : names.parseFileDescriptor connId bytes with
      | error err =>
          rw [hparse] at h
          cases h
      | ok r =>
          rw [hparse] at h
          cases hrest : names.parseDescriptors connId count r.2 with
          | error err =>
              simp only [bind, Except.bind, hrest] at h
              cases h
          | ok rest =>
              simp only [bind, Except.bind, hrest] at h
              cases h
              rw [List.forall_mem_cons]
              exact ⟨(parseFileDescriptor_ok hparse).2.1, ih hrest⟩

/-- A list of descriptors is parsed up to the first one that is not accepted. -/
theorem checkedParseDescriptors_of_not {count : ℕ}
    (hlength : bytes.length = fileDescriptorSize * count)
    (h : ∀ i < count, (∀ j < i, names.Accepts (bytes.drop (fileDescriptorSize * j))) →
      ¬ TooLate (bytes.drop (fileDescriptorSize * i))) :
  names.checkedParseDescriptors connId count bytes
    = some (names.parseDescriptors connId count bytes)
  := by
  induction count generalizing bytes with
  | zero => rfl
  | succ count ih =>
      have hle := size_le_of_length hlength
      have hfirst := h 0 (Nat.succ_pos _) nofun
      rw [Nat.mul_zero, List.drop_zero] at hfirst
      rw [checkedParseDescriptors, checkedParseFileDescriptor_of_not hle hfirst,
        parseDescriptors]
      cases hparse : names.parseFileDescriptor connId bytes with
      | error err => rfl
      | ok r =>
          obtain ⟨haccepts, -, hrest⟩ := parseFileDescriptor_ok hparse
          dsimp only
          rw [ih]
          · change _ = some ((names.parseDescriptors connId count r.2).bind fun files =>
              .ok (r.1 :: files))
            cases names.parseDescriptors connId count r.2 <;> rfl
          · rw [hrest, List.length_drop, hlength, Nat.mul_succ, Nat.add_sub_cancel]
          · intro i hi hbefore
            rw [hrest, drop_descriptors]
            apply h (i + 1) (Nat.succ_lt_succ hi)
            intro j hj
            cases j with
            | zero =>
                rw [Nat.mul_zero, List.drop_zero]
                exact haccepts
            | succ j =>
                rw [← drop_descriptors, ← hrest]
                apply hbefore j (Nat.lt_of_succ_lt_succ hj)

/-- A list is a panic when the descriptors before one that is too late are accepted. -/
theorem checkedParseDescriptors_of_tooLate {count i : ℕ}
    (hlength : bytes.length = fileDescriptorSize * count) (hi : i < count)
    (hbefore : ∀ j < i, names.Accepts (bytes.drop (fileDescriptorSize * j)))
    (h : TooLate (bytes.drop (fileDescriptorSize * i))) :
  names.checkedParseDescriptors connId count bytes = none
  := by
  induction i generalizing bytes count with
  | zero =>
      obtain ⟨count, rfl⟩ := Nat.exists_eq_succ_of_ne_zero (Nat.ne_zero_of_lt hi)
      have hle := size_le_of_length hlength
      rw [Nat.mul_zero, List.drop_zero] at h
      rw [checkedParseDescriptors, checkedParseFileDescriptor_of_tooLate hle h]
  | succ i ih =>
      obtain ⟨count, rfl⟩ := Nat.exists_eq_succ_of_ne_zero (Nat.ne_zero_of_lt hi)
      have hle := size_le_of_length hlength
      rw [checkedParseDescriptors]
      by_cases hfirst : TooLate bytes
      · rw [checkedParseFileDescriptor_of_tooLate hle hfirst]
      · have haccepts := hbefore 0 (Nat.succ_pos _)
        rw [Nat.mul_zero, List.drop_zero] at haccepts
        obtain ⟨r, hparse⟩ : ∃ r, names.parseFileDescriptor connId bytes = .ok r :=
          exists_of_accepts haccepts
        obtain ⟨-, -, hrest⟩ := parseFileDescriptor_ok hparse
        rw [checkedParseFileDescriptor_of_not hle hfirst, hparse]
        dsimp only
        rw [ih _ (Nat.lt_of_succ_lt_succ hi)]
        · rfl
        · intro j hj
          rw [hrest, drop_descriptors]
          apply hbefore (j + 1) (Nat.succ_lt_succ hj)
        · rw [hrest, drop_descriptors]
          exact h
        · rw [hrest, List.length_drop, hlength, Nat.mul_succ, Nat.add_sub_cancel]

variable (names)

/-- A list of descriptors is parsed without a panic, and the names it is parsed to are safe. -/
def ParsesSafely (connId : BitVec 32) (pdu : Bytes) : Prop :=
  ∃ result, names.checkedParseFileDescriptors connId pdu = some result
    ∧ ∀ files, result = .ok files → ∀ desc ∈ files, SafeName desc.name

/-- In a list of the length its count tells, no last write time is too late, up to the first
descriptor that is not accepted. -/
def NoneTooLate (pdu : Bytes) : Prop :=
  pdu.length = 4 + fileDescriptorSize * (getLe 4 pdu).1 → ∀ i < (getLe 4 pdu).1,
    (∀ j < i, names.Accepts ((pdu.drop 4).drop (fileDescriptorSize * j))) →
      ¬ TooLate ((pdu.drop 4).drop (fileDescriptorSize * i))

variable {names} {pdu : Bytes}

/-- A name that is validated is safe. -/
theorem safeName_of_validate
    (hnames : ∀ name, names.validateFileNameNoTraversal name = none →
      ['.', '.'] ∉ name.toList.splitOn '/')
    {name : String} (h : names.validateFileName name = .ok ()) :
  SafeName name
  := by
  rw [validateFileName] at h
  split_ifs at h with hplain
  rw [Bool.or_eq_true, not_or, List.any_eq_true] at hplain
  obtain ⟨hdrive, hcomponents⟩ := hplain
  have hparts : ∀ component ∈ name.toList.splitOn '/', component ≠ [] ∧ component ≠ ['.'] := by
    intro component hmem
    constructor
    · rintro rfl
      apply hcomponents ⟨_, hmem, rfl⟩
    · rintro rfl
      apply hcomponents ⟨_, hmem, rfl⟩
  have htraversal : ['.', '.'] ∉ name.toList.splitOn '/' := by
    apply hnames
    cases hno : names.validateFileNameNoTraversal name with
    | none => rfl
    | some error =>
        rw [hno] at h
        cases h
  constructor
  · rintro rfl
    exact (hparts [] (by decide)).1 rfl
  · intro component hmem
    obtain ⟨hne, hdot⟩ := hparts component hmem
    exact ⟨hne, hdot, ne_of_mem_of_not_mem hmem htraversal⟩
  · intro hhead
    obtain ⟨rest, hrest⟩ := List.head?_eq_some_iff.mp hhead
    rw [hrest, List.splitOn_cons_eq_if_modifyHead, if_pos (beq_self_eq_true _)] at hparts
    exact (hparts [] List.mem_cons_self).1 rfl
  · exact Bool.not_eq_true _ ▸ hdrive

/-- A list is parsed when it is as long as its count tells. -/
theorem checkedParseFileDescriptors_of_length (hlong : ¬ pdu.length < 4) :
  names.checkedParseFileDescriptors connId pdu
    = if pdu.length = 4 + fileDescriptorSize * (getLe 4 pdu).1 then
        names.checkedParseDescriptors connId (getLe 4 pdu).1 (pdu.drop 4)
      else some (.error (.InvalidRequest "file descriptor request with invalid length"))
  := by
  have hcount : (getLe 4 pdu).1 < 256 ^ 4 := by
    have hlt := leNat_lt (pdu.take 4)
    have hsize : (pdu.take 4).length = 4 := by
      rw [List.length_take]
      omega
    rw [hsize] at hlt
    exact hlt
  have hproduct : fileDescriptorSize * (getLe 4 pdu).1 < 2 ^ 64 := by
    rw [fileDescriptorSize]
    omega
  have hleft : (getLe 4 pdu).2.length = pdu.length - 4 := List.length_drop
  rw [checkedParseFileDescriptors, if_neg hlong, checkedGet, if_pos (Nat.le_of_not_lt hlong)]
  change (if (getLe 4 pdu).2.length = 0 ∧ (getLe 4 pdu).1 = 0 then
      some (Except.ok [])
    else (checkedMul fileDescriptorSize (getLe 4 pdu).1).bind _) = _
  by_cases hempty : (getLe 4 pdu).2.length = 0 ∧ (getLe 4 pdu).1 = 0
  · rw [if_pos hempty, hempty.2, if_pos (by omega)]
    rfl
  · rw [if_neg hempty, checkedMul, if_pos hproduct, Option.bind_some]
    by_cases hlength : pdu.length = 4 + fileDescriptorSize * (getLe 4 pdu).1
    · rw [if_pos hlength, if_neg]
      · rfl
      · rw [hleft]
        omega
    · rw [if_neg hlength, if_pos]
      · rfl
      · rw [hleft]
        omega

/-- When no last write time is too late, the checks change nothing. -/
theorem checkedParseFileDescriptors_of_none (h : names.NoneTooLate pdu) :
  names.checkedParseFileDescriptors connId pdu = some (names.parseFileDescriptors connId pdu)
  := by
  rw [parseFileDescriptors]
  by_cases hshort : pdu.length < 4
  · rw [checkedParseFileDescriptors, if_pos hshort, if_pos hshort]
  · rw [checkedParseFileDescriptors_of_length hshort, if_neg hshort]
    have hleft : (getLe 4 pdu).2.length = pdu.length - 4 := List.length_drop
    dsimp only
    by_cases hlength : pdu.length = 4 + fileDescriptorSize * (getLe 4 pdu).1
    · have hdescriptors : (pdu.drop 4).length = fileDescriptorSize * (getLe 4 pdu).1 := by
        rw [List.length_drop]
        omega
      rw [if_pos hlength, checkedParseDescriptors_of_not hdescriptors (h hlength)]
      by_cases hempty : (getLe 4 pdu).2.length = 0 ∧ (getLe 4 pdu).1 = 0
      · rw [if_pos hempty, hempty.2]
        rfl
      · rw [if_neg hempty, if_neg]
        · rfl
        · rw [hleft]
          omega
    · rw [if_neg hlength, if_neg, if_pos]
      · rw [hleft]
        omega
      · rw [hleft]
        rintro ⟨hnil, hzero⟩
        rw [hzero] at hlength
        omega

/-- The names of a list that is parsed are safe. -/
theorem safeName_of_parse
    (hnames : ∀ name, names.validateFileNameNoTraversal name = none →
      ['.', '.'] ∉ name.toList.splitOn '/')
    {files : List FileDescription} (h : names.parseFileDescriptors connId pdu = .ok files) :
  ∀ desc ∈ files, SafeName desc.name
  := by
  intro desc hdesc
  apply safeName_of_validate hnames
  rw [parseFileDescriptors] at h
  split_ifs at h
  dsimp only at h
  split_ifs at h
  · cases h
    cases hdesc
  · apply validated_of_parseDescriptors h desc hdesc

/-- A list of descriptors is parsed safely exactly when no last write time in it is too late. -/
theorem parsesSafely_iff
    (hnames : ∀ name, names.validateFileNameNoTraversal name = none →
      ['.', '.'] ∉ name.toList.splitOn '/') :
  names.ParsesSafely connId pdu ↔ names.NoneTooLate pdu
  := by
  constructor
  · rintro ⟨result, hresult, -⟩ hlength i hi hbefore hlate
    have hdescriptors : (pdu.drop 4).length = fileDescriptorSize * (getLe 4 pdu).1 := by
      rw [List.length_drop]
      omega
    rw [checkedParseFileDescriptors_of_length (by omega), if_pos hlength,
      checkedParseDescriptors_of_tooLate hdescriptors hi hbefore hlate] at hresult
    cases hresult
  · intro hnone
    refine ⟨_, checkedParseFileDescriptors_of_none hnone, ?_⟩
    intro files hfiles
    apply safeName_of_parse hnames hfiles

/-- One descriptor: of a file `a`, with these flags and this last write time. -/
def oneDescriptor (flags lastWriteTime : ℕ) : Bytes :=
  leBytes 4 1 ++ leBytes 4 flags ++ List.replicate 32 0 ++ leBytes 4 0x80 ++ List.replicate 12 0
    ++ leBytes 4 0 ++ leBytes 8 lastWriteTime ++ leBytes 8 3 ++ leBytes 2 97 ++ List.replicate 518 0

theorem notMem_of_unixNames (name : String)
    (h : unixNames.validateFileNameNoTraversal name = none) :
  ['.', '.'] ∉ name.toList.splitOn '/'
  := by
  simp only [unixNames] at h
  split_ifs at h with hnul htraversal
  exact htraversal

/-- A time of the year 2022. -/
theorem parsesSafely_small :
  unixNames.ParsesSafely 7 (oneDescriptor 0x24 133000000000000000)
  := by
  apply (parsesSafely_iff _).mpr
  · intro _ i hi _ hlate
    have hzero : i = 0 := by
      have hone : (getLe 4 (oneDescriptor 0x24 133000000000000000)).1 = 1 := by decide +kernel
      omega
    have hnot := hlate.late
    rw [hzero] at hnot
    revert hnot
    decide +kernel
  · apply notMem_of_unixNames

/-- The latest time there is is too late. -/
theorem not_parsesSafely :
  ¬ unixNames.ParsesSafely 7 (oneDescriptor 0x24 (2 ^ 64 - 1))
  := by
  intro hsafe
  have hone : (getLe 4 (oneDescriptor 0x24 (2 ^ 64 - 1))).1 = 1 := by decide +kernel
  have hnone := (parsesSafely_iff notMem_of_unixNames).mp hsafe (by decide +kernel) 0
    (by omega) nofun
  apply hnone
  constructor
  · use "a"
    decide +kernel
  · decide +kernel
  · decide +kernel
  · decide +kernel

end Names

end VynxDesk.Clipboard
