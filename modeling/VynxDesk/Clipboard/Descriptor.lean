import VynxDesk.Clipboard.Serve

/-!
# File descriptors

The list of files that is advertised: `LocalFile::as_bin` and `build_file_list_pdu` write it, 592
bytes a file behind the number of files, and `FileDescription::parse_file_descriptors` of
`filetype.rs` reads it.
-/

namespace VynxDesk.Clipboard

/-- `FLAGS_FD_ATTRIBUTES`. -/
def flagsFdAttributes : BitVec 32 := 0x04

/-- `FLAGS_FD_SIZE`. -/
def flagsFdSize : BitVec 32 := 0x40

/-- `FLAGS_FD_LAST_WRITE`. -/
def flagsFdLastWrite : BitVec 32 := 0x20

/-- `FLAGS_FD_PROGRESSUI`. -/
def flagsFdProgressui : BitVec 32 := 0x4000

/-- `FLAGS_FD_UNIX_MODE`. -/
def flagsFdUnixMode : BitVec 32 := 0x08

/-- `LDAP_EPOCH_DELTA`. -/
def ldapEpochDelta : BitVec 64 := 116444772610000000

/-- `FILE_DESCRIPTOR_SIZE`. -/
def fileDescriptorSize : ℕ := 592

/-- `FileType`. -/
inductive FileType where
  | File
  | Directory
  | Symlink
  deriving DecidableEq, Repr

/-- `FileDescription`: the path by its text, and the times in nanoseconds from the Unix epoch. -/
structure FileDescription where
  connId : BitVec 32
  name : String
  kind : FileType
  atime : Int
  lastModified : Int
  lastMetadataChanged : Int
  creationTime : Int
  size : BitVec 64
  perm : BitVec 16
  deriving DecidableEq, Repr

/-! ### Writing -/

namespace LocalFile

variable {Path : Type}

/-- The attributes of a descriptor. -/
def fileAttributes (file : LocalFile Path) : BitVec 32 :=
  (if file.readOnly then 0x1 else 0) ||| (if file.hidden then 0x2 else 0)
    ||| (if file.system then 0x4 else 0) ||| (if file.isDir then 0x10 else 0)
    ||| (if file.archive then 0x20 else 0) ||| (if file.normal then 0x80 else 0)

/-- The last write time of a descriptor, in 100 nanoseconds from 1601. -/
def win32Time (file : LocalFile Path) : BitVec 64 :=
  BitVec.ofNat 64 file.lastWriteTime.toNat / 100 + ldapEpochDelta

end LocalFile

namespace Names

variable {Path : Type} (names : Names Path)

/-- `put_descriptor_name`: what it puts. -/
def putDescriptorName (file : LocalFile Path) : Except CliprdrError Bytes := do
  names.validateFileName file.descriptorName
  let name := Utf16.bytesOf (Utf16.encode file.descriptorName.toList)
  let nameFieldSize := name.length + 2
  if fileNameFieldSize < nameFieldSize then .error descriptorNameTooLongError
  return name ++ leBytes 2 0 ++ List.replicate (fileNameFieldSize - nameFieldSize) 0

/-- `as_bin`. -/
def asBin (file : LocalFile Path) : Except CliprdrError Bytes := do
  let sizeHigh : BitVec 32 := (file.size >>> 32).setWidth 32
  let sizeLow : BitVec 32 := (file.size &&& 0xFFFFFFFF).setWidth 32
  let flags := flagsFdSize ||| flagsFdLastWrite ||| flagsFdAttributes ||| flagsFdProgressui
    ||| flagsFdUnixMode
  let buf := leBytes 4 flags.toNat ++ List.replicate 32 0 ++ leBytes 4 file.fileAttributes.toNat
    ++ List.replicate 12 0 ++ leBytes 4 file.perm.toNat ++ leBytes 8 file.win32Time.toNat
    ++ leBytes 4 sizeHigh.toNat ++ leBytes 4 sizeLow.toNat
  let name ← names.putDescriptorName file
  return buf ++ name

/-- The descriptors of files. -/
def putDescriptors : List (LocalFile Path) → Except CliprdrError Bytes
  | [] => .ok []
  | file :: files => do
      let bin ← names.asBin file
      let rest ← putDescriptors files
      return bin ++ rest

/-- `build_file_list_pdu`. -/
def buildFileListPdu (self : ClipFiles Path) : Except CliprdrError (ClipFiles Path) := do
  let descriptors ← names.putDescriptors self.fileList
  return { self with
    filesPdu := leBytes 4 (BitVec.ofNat 32 self.fileList.length).toNat ++ descriptors }

/-! ### Reading -/

/-- The name in the field of a descriptor, up to the first zero. -/
def nameOfField (block : Bytes) : Except CliprdrError String :=
  let units := Utf16.unitsOf block
  match units.findIdx? (· = 0) with
  | none => .error (.InvalidRequest "clipboard file name is not null-terminated")
  | some nameEnd =>
      match Utf16.decode (units.take nameEnd) with
      | none => .error .ConversionFailure
      | some text => .ok (String.ofList text)

/-- The permissions of a descriptor that does not come from Unix are made of its attributes. -/
def permOf (flags attributes perm : BitVec 32) : BitVec 16 :=
  if flags &&& flagsFdUnixMode ≠ 0 then perm.setWidth 16
  else if attributes = 0x80 then 0o755
  else if attributes &&& 0x01 ≠ 0 then 0o444
  else if attributes &&& 0x02 ≠ 0 then 0o400
  else if attributes &&& 0x10 ≠ 0 then 0o755
  else 0o644

/-- The modification time of a descriptor, in nanoseconds from the Unix epoch. -/
def modifiedOf (flags : BitVec 32) (lastWriteTime : BitVec 64) : Int :=
  if flags &&& flagsFdLastWrite ≠ 0 ∧ ldapEpochDelta ≤ lastWriteTime then
    ((lastWriteTime - ldapEpochDelta) * 100).toNat
  else 0

/-- What the fields of a descriptor describe. -/
def describeFields (connId flags attributes perm : BitVec 32) (lastWriteTime : BitVec 64)
    (fileSizeHigh fileSizeLow : BitVec 32) (text : String) :
    Except CliprdrError FileDescription := do
  if flags &&& flagsFdAttributes = 0 then
    .error (.InvalidRequest "file description must have valid attributes")
  let lastModified := modifiedOf flags lastWriteTime
  let name := String.ofList (text.toList.map fun c => if c = '\\' then '/' else c)
  names.validateFileName name
  return {
    connId := connId
    name := name
    kind := if attributes &&& 0x10 ≠ 0 then .Directory else .File
    atime := lastModified
    lastModified := lastModified
    lastMetadataChanged := lastModified
    creationTime := lastModified
    size := (fileSizeHigh.setWidth 64 <<< 32) + fileSizeLow.setWidth 64
    perm := permOf flags attributes perm }

/-- `parse_file_descriptor`: the description, and what is left. -/
def parseFileDescriptor (connId : BitVec 32) (bytes : Bytes) :
    Except CliprdrError (FileDescription × Bytes) := do
  let flags := getLe 4 bytes
  let attributes := getLe 4 (flags.2.drop 32)
  let perm := getLe 4 (attributes.2.drop 12)
  let lastWriteTime := getLe 8 perm.2
  let fileSizeHigh := getLe 4 lastWriteTime.2
  let fileSizeLow := getLe 4 fileSizeHigh.2
  let name ← nameOfField (fileSizeLow.2.take fileNameFieldSize)
  let desc ← names.describeFields connId (BitVec.ofNat 32 flags.1) (BitVec.ofNat 32 attributes.1)
    (BitVec.ofNat 32 perm.1) (BitVec.ofNat 64 lastWriteTime.1) (BitVec.ofNat 32 fileSizeHigh.1)
    (BitVec.ofNat 32 fileSizeLow.1) name
  return (desc, fileSizeLow.2.drop fileNameFieldSize)

/-- Parses `count` descriptors. -/
def parseDescriptors (connId : BitVec 32) : ℕ → Bytes → Except CliprdrError (List FileDescription)
  | 0, _ => .ok []
  | count + 1, data => do
      let r ← names.parseFileDescriptor connId data
      let files ← parseDescriptors connId count r.2
      return r.1 :: files

/-- `parse_file_descriptors`. -/
def parseFileDescriptors (connId : BitVec 32) (fileDescriptorPdu : Bytes) :
    Except CliprdrError (List FileDescription) :=
  if fileDescriptorPdu.length < 4 then
    .error (.InvalidRequest "file descriptor request with infficient length")
  else
    let count := getLe 4 fileDescriptorPdu
    if count.2.length = 0 ∧ count.1 = 0 then .ok []
    else if count.2.length ≠ fileDescriptorSize * count.1 then
      .error (.InvalidRequest "file descriptor request with invalid length")
    else names.parseDescriptors connId count.1 count.2

/-! ### What is read of what is written -/

/-- What an entry of the list is to be read as. -/
def describe (connId : BitVec 32) (file : LocalFile Path) : FileDescription where
  connId := connId
  name := file.descriptorName
  kind := if file.isDir then .Directory else .File
  atime := file.lastWriteTime / 100 * 100
  lastModified := file.lastWriteTime / 100 * 100
  lastMetadataChanged := file.lastWriteTime / 100 * 100
  creationTime := file.lastWriteTime / 100 * 100
  size := file.size
  perm := file.perm.setWidth 16

/-- A name before its first NUL. -/
def cutName (name : String) : String := String.ofList (name.toList.takeWhile (· ≠ '\x00'))

theorem cutName_eq_iff {name : String} :
  cutName name = name ↔ '\x00' ∉ name.toList
  := by
  constructor
  · intro h
    rw [← h, cutName, String.toList_ofList]
    apply Utf16.zero_notMem_takeWhile
  · intro h
    have hall : name.toList.takeWhile (· ≠ '\x00') = name.toList := by
      rw [List.takeWhile_eq_self_iff]
      intro c hc
      simpa using ne_of_mem_of_not_mem hc h
    rw [cutName, hall, String.ofList_toList]

variable {names} {file : LocalFile Path} {connId : BitVec 32}

theorem checkDescriptorName_ok_iff {name : String} :
  names.checkDescriptorName name = .ok () ↔
    names.validateFileName name = .ok ()
      ∧ (Utf16.encode name.toList).length ≤ maxFileNameCodeUnits
  := by
  rw [checkDescriptorName]
  cases names.validateFileName name with
  | error err => simp [bind, Except.bind]
  | ok =>
      by_cases hlen : maxFileNameCodeUnits < (Utf16.encode name.toList).length
      · simp [bind, Except.bind, hlen]
      · simp [bind, Except.bind, hlen, pure, Except.pure, not_lt.mp hlen]

/-- The flags of a written descriptor. -/
def writtenFlags : BitVec 32 :=
  flagsFdSize ||| flagsFdLastWrite ||| flagsFdAttributes ||| flagsFdProgressui ||| flagsFdUnixMode

/-- The descriptor of a file: what stands before the name. -/
def header (file : LocalFile Path) : Bytes :=
  leBytes 4 writtenFlags.toNat
    ++ List.replicate 32 (0 : UInt8) ++ leBytes 4 file.fileAttributes.toNat
    ++ List.replicate 12 (0 : UInt8) ++ leBytes 4 file.perm.toNat ++ leBytes 8 file.win32Time.toNat
    ++ leBytes 4 ((file.size >>> 32).setWidth 32).toNat
    ++ leBytes 4 ((file.size &&& 0xFFFFFFFF).setWidth 32).toNat

/-- The field of a name. -/
def nameField (name : String) : Bytes :=
  Utf16.bytesOf (Utf16.encode name.toList) ++ leBytes 2 0
    ++ List.replicate (fileNameFieldSize - (2 * (Utf16.encode name.toList).length + 2)) 0

/-- A file whose name passes its check has a descriptor. -/
theorem asBin_of_check (hname : names.checkDescriptorName file.descriptorName = .ok ()) :
  names.asBin file = .ok (header file ++ nameField file.descriptorName)
  := by
  obtain ⟨hvalid, hlen⟩ := checkDescriptorName_ok_iff.mp hname
  have hfits : ¬ fileNameFieldSize < 2 * (Utf16.encode file.descriptorName.toList).length + 2 := by
    rw [fileNameFieldSize, fileNameCodeUnits]
    rw [maxFileNameCodeUnits, fileNameCodeUnits] at hlen
    omega
  rw [asBin, putDescriptorName]
  simp only [hvalid, bind, Except.bind, pure, Except.pure, Utf16.length_bytesOf, hfits, if_false]
  rfl

theorem length_header (file : LocalFile Path) :
  (header file).length = 72
  := by
  simp [header]

theorem length_nameField {name : String}
    (hlen : (Utf16.encode name.toList).length ≤ maxFileNameCodeUnits) :
  (nameField name).length = fileNameFieldSize
  := by
  rw [maxFileNameCodeUnits, fileNameCodeUnits] at hlen
  rw [nameField, fileNameFieldSize, fileNameCodeUnits]
  simp only [List.length_append, Utf16.length_bytesOf, length_leBytes, List.length_replicate]
  omega

/-- The name of a field is read up to its first NUL. -/
theorem nameOfField_nameField (name : String) :
  nameOfField (nameField name) = .ok (cutName name)
  := by
  have hunits : ∃ rest, Utf16.unitsOf (nameField name) = Utf16.encode name.toList ++ 0 :: rest := by
    use Utf16.unitsOf
      (List.replicate (fileNameFieldSize - (2 * (Utf16.encode name.toList).length + 2)) 0)
    unfold nameField
    rw [List.append_assoc, Utf16.unitsOf_bytesOf]
    rfl
  obtain ⟨rest, hrest⟩ := hunits
  obtain ⟨n, hn, hdecode⟩ := Utf16.decode_take_findIdx name.toList rest
  unfold nameOfField
  dsimp only
  rw [hrest, hn]
  dsimp only
  rw [hdecode]
  rfl

/-- The fields of a descriptor are read where they are written. -/
theorem parseFileDescriptor_append {name : String} (rest : Bytes)
    (hlen : (Utf16.encode name.toList).length ≤ maxFileNameCodeUnits) :
  names.parseFileDescriptor connId (header file ++ nameField name ++ rest)
    = (names.describeFields connId writtenFlags file.fileAttributes file.perm file.win32Time
        ((file.size >>> 32).setWidth 32) ((file.size &&& 0xFFFFFFFF).setWidth 32)
        (cutName name)).map (·, rest)
  := by
  have hword (x : BitVec 32) : BitVec.ofNat 32 (x.toNat % 256 ^ 4) = x := by
    have hlt : x.toNat < 256 ^ 4 := by omega
    rw [Nat.mod_eq_of_lt hlt, BitVec.ofNat_toNat, BitVec.setWidth_eq]
  have hlong (x : BitVec 64) : BitVec.ofNat 64 (x.toNat % 256 ^ 8) = x := by
    have hlt : x.toNat < 256 ^ 8 := by omega
    rw [Nat.mod_eq_of_lt hlt, BitVec.ofNat_toNat, BitVec.setWidth_eq]
  have hskip (n : ℕ) (bytes : Bytes) :
      (List.replicate n (0 : UInt8) ++ bytes).drop n = bytes :=
    List.drop_left' List.length_replicate
  rw [parseFileDescriptor, header]
  simp only [List.append_assoc, getLe_append, hskip, hword, hlong,
    List.take_left' (length_nameField hlen), List.drop_left' (length_nameField hlen),
    nameOfField_nameField]
  simp only [bind, Except.bind, pure, Except.pure, Except.map]

/-- The attributes of a descriptor tell directories from files. -/
theorem fileAttributes_isDir (file : LocalFile Path) :
  file.fileAttributes &&& 0x10 ≠ 0 ↔ file.isDir
  := by
  rw [LocalFile.fileAttributes]
  cases file.readOnly <;> cases file.hidden <;> cases file.system <;> cases file.isDir <;>
    cases file.archive <;> cases file.normal <;> decide

/-- A size is put together of its halves. -/
theorem size_of_halves (size : BitVec 64) :
  (((size >>> 32).setWidth 32).setWidth 64 <<< 32)
      + ((size &&& 0xFFFFFFFF).setWidth 32).setWidth 64 = size
  := by
  have hlow : (size &&& 0xFFFFFFFF).toNat = size.toNat % 2 ^ 32 := by
    rw [BitVec.toNat_and]
    exact Nat.and_two_pow_sub_one_eq_mod size.toNat 32
  have hlt := size.isLt
  apply BitVec.eq_of_toNat_eq
  rw [BitVec.toNat_add, BitVec.toNat_shiftLeft, BitVec.toNat_setWidth, BitVec.toNat_setWidth,
    BitVec.toNat_setWidth, BitVec.toNat_setWidth, BitVec.toNat_ushiftRight, hlow,
    Nat.shiftLeft_eq, Nat.shiftRight_eq_div_pow]
  omega

/-- A time from the Unix epoch on is read to 100 nanoseconds. -/
theorem modifiedOf_win32Time (hearly : 0 ≤ file.lastWriteTime)
    (hlate : file.lastWriteTime < 2 ^ 63) :
  modifiedOf writtenFlags file.win32Time = file.lastWriteTime / 100 * 100
  := by
  obtain ⟨ns, hns⟩ := Int.eq_ofNat_of_zero_le hearly
  have hlt : ns < 2 ^ 63 := by omega
  have hdelta : ldapEpochDelta.toNat = 116444772610000000 := rfl
  have hhundred : (100 : BitVec 64).toNat = 100 := rfl
  have htime : file.win32Time.toNat = ns / 100 + 116444772610000000 := by
    rw [LocalFile.win32Time, hns, Int.toNat_natCast, BitVec.toNat_add, BitVec.toNat_udiv,
      BitVec.toNat_ofNat, hdelta, hhundred]
    omega
  have hback : ((file.win32Time - ldapEpochDelta) * 100).toNat = ns / 100 * 100 := by
    rw [BitVec.toNat_mul, BitVec.toNat_sub, htime, hdelta, hhundred]
    omega
  have hle : ldapEpochDelta ≤ file.win32Time := by
    rw [BitVec.le_def, htime, hdelta]
    omega
  rw [modifiedOf]
  rw [if_pos ⟨by decide, hle⟩, hback, hns]
  omega

/-- What is read of the fields of a file, under a name without a backslash. -/
theorem describeFields_eq {text : String} (hslash : '\\' ∉ text.toList)
    (hearly : 0 ≤ file.lastWriteTime) (hlate : file.lastWriteTime < 2 ^ 63) :
  names.describeFields connId writtenFlags file.fileAttributes file.perm file.win32Time
      ((file.size >>> 32).setWidth 32) ((file.size &&& 0xFFFFFFFF).setWidth 32) text
    = (names.validateFileName text).map fun _ => { describe connId file with name := text }
  := by
  have hname : String.ofList (text.toList.map fun c => if c = '\\' then '/' else c) = text := by
    have hmap : (text.toList.map fun c => if c = '\\' then '/' else c) = text.toList := by
      rw [List.map_congr_left (g := id), List.map_id]
      intro c hc
      rw [if_neg (ne_of_mem_of_not_mem hc hslash)]
      rfl
    rw [hmap, String.ofList_toList]
  have hflags : ¬ writtenFlags &&& flagsFdAttributes = 0 := by decide
  have hunix : writtenFlags &&& flagsFdUnixMode ≠ 0 := by decide
  rw [describeFields]
  simp only [hname, modifiedOf_win32Time hearly hlate, size_of_halves, fileAttributes_isDir,
    permOf, hflags, hunix, ne_eq, not_false_eq_true, if_true, if_false]
  cases names.validateFileName text <;> rfl

/-! ### The list -/

variable (names) in
/-- An entry whose name passes its check and has no backslash, last written less than 2^63
nanoseconds after the Unix epoch. -/
structure Advertised (file : LocalFile Path) : Prop where
  name : names.checkDescriptorName file.descriptorName = .ok ()
  noBackslash : '\\' ∉ file.descriptorName.toList
  early : 0 ≤ file.lastWriteTime
  late : file.lastWriteTime < 2 ^ 63

variable (names) in
/-- The list that is built is read as what it is built of. -/
def RoundTrips (connId : BitVec 32) (self : ClipFiles Path) : Prop :=
  ∃ built, names.buildFileListPdu self = .ok built
    ∧ names.parseFileDescriptors connId built.filesPdu
      = .ok (self.fileList.map (describe connId))

/-- The descriptor of a file. -/
def descriptor (file : LocalFile Path) : Bytes := header file ++ nameField file.descriptorName

/-- The descriptor of an entry is read as the entry, under its name up to the first NUL. -/
theorem parseFileDescriptor_descriptor (h : names.Advertised file) (rest : Bytes) :
  names.parseFileDescriptor connId (descriptor file ++ rest)
    = (names.validateFileName (cutName file.descriptorName)).map fun _ =>
        ({ describe connId file with name := cutName file.descriptorName }, rest)
  := by
  have hslash : '\\' ∉ (cutName file.descriptorName).toList := by
    rw [cutName, String.toList_ofList]
    intro hmem
    apply h.noBackslash
    exact List.takeWhile_subset _ hmem
  rw [descriptor, parseFileDescriptor_append rest (checkDescriptorName_ok_iff.mp h.name).2,
    describeFields_eq hslash h.early h.late]
  cases names.validateFileName (cutName file.descriptorName) <;> rfl

theorem length_descriptor (h : names.checkDescriptorName file.descriptorName = .ok ()) :
  (descriptor file).length = fileDescriptorSize
  := by
  rw [descriptor, List.length_append, length_header,
    length_nameField (checkDescriptorName_ok_iff.mp h).2]
  rfl

/-- The entries have descriptors. -/
theorem putDescriptors_of_check {files : List (LocalFile Path)}
    (h : ∀ file ∈ files, names.checkDescriptorName file.descriptorName = .ok ()) :
  names.putDescriptors files = .ok (files.flatMap descriptor)
  := by
  induction files with
  | nil => rfl
  | cons file files ih =>
      rw [List.forall_mem_cons] at h
      rw [putDescriptors, asBin_of_check h.1, ih h.2]
      rfl

theorem length_descriptors {files : List (LocalFile Path)}
    (h : ∀ file ∈ files, names.checkDescriptorName file.descriptorName = .ok ()) :
  (files.flatMap descriptor).length = fileDescriptorSize * files.length
  := by
  induction files with
  | nil => rfl
  | cons file files ih =>
      rw [List.forall_mem_cons] at h
      rw [List.flatMap_cons, List.length_append, length_descriptor h.1, ih h.2, List.length_cons,
        Nat.mul_succ, Nat.add_comm]

/-- The descriptors are read as the entries unless a name has a NUL. -/
theorem parseDescriptors_iff {files : List (LocalFile Path)}
    (h : ∀ file ∈ files, names.Advertised file) :
  names.parseDescriptors connId files.length (files.flatMap descriptor)
      = .ok (files.map (describe connId))
    ↔ ∀ file ∈ files, '\x00' ∉ file.descriptorName.toList
  := by
  induction files with
  | nil => simp [parseDescriptors]
  | cons file files ih =>
      rw [List.forall_mem_cons] at h ⊢
      rw [← ih h.2, ← cutName_eq_iff, List.length_cons, parseDescriptors, List.flatMap_cons,
        parseFileDescriptor_descriptor h.1]
      cases hvalid : names.validateFileName (cutName file.descriptorName) with
      | error err =>
          constructor
          · nofun
          · rintro ⟨hcut, -⟩
            rw [hcut, (checkDescriptorName_ok_iff.mp h.1.name).1] at hvalid
            cases hvalid
      | ok =>
          simp only [Except.map, bind, Except.bind, pure, Except.pure]
          cases names.parseDescriptors connId files.length (files.flatMap descriptor) with
          | error err => simp
          | ok descs => simp [describe]

/-- The list that is built. -/
theorem buildFileListPdu_of_check {self : ClipFiles Path}
    (h : ∀ file ∈ self.fileList, names.checkDescriptorName file.descriptorName = .ok ()) :
  names.buildFileListPdu self = .ok { self with
    filesPdu := leBytes 4 (BitVec.ofNat 32 self.fileList.length).toNat
      ++ self.fileList.flatMap descriptor }
  := by
  rw [buildFileListPdu, putDescriptors_of_check h]
  rfl

/-- A list that round-trips has fewer entries than the count can tell. -/
theorem length_lt_of_roundTrips {self : ClipFiles Path}
    (h : ∀ file ∈ self.fileList, names.Advertised file) (hround : names.RoundTrips connId self) :
  self.fileList.length < 2 ^ 32
  := by
  by_contra! hlen
  obtain ⟨built, hbuilt, hparse⟩ := hround
  rw [buildFileListPdu_of_check fun file hfile => (h file hfile).name] at hbuilt
  cases hbuilt
  rw [parseFileDescriptors] at hparse
  rw [if_neg (by simp), getLe_append] at hparse
  simp only [length_descriptors fun file hfile => (h file hfile).name, BitVec.toNat_ofNat] at hparse
  rw [fileDescriptorSize] at hparse
  rw [if_neg (by omega), if_pos (by omega)] at hparse
  cases hparse

/-- A list of entries round-trips exactly when it has fewer than 2^32 of them, and no name has a
NUL. -/
theorem roundTrips_iff {self : ClipFiles Path}
    (h : ∀ file ∈ self.fileList, names.Advertised file) :
  names.RoundTrips connId self ↔
    self.fileList.length < 2 ^ 32
      ∧ ∀ file ∈ self.fileList, '\x00' ∉ file.descriptorName.toList
  := by
  have hparse (hlen : self.fileList.length < 2 ^ 32) :
      names.parseFileDescriptors connId
          (leBytes 4 (BitVec.ofNat 32 self.fileList.length).toNat
            ++ self.fileList.flatMap descriptor)
        = names.parseDescriptors connId self.fileList.length
            (self.fileList.flatMap descriptor) := by
    have hcount : (BitVec.ofNat 32 self.fileList.length).toNat % 256 ^ 4
        = self.fileList.length := by
      rw [BitVec.toNat_ofNat]
      omega
    rw [parseFileDescriptors]
    rw [if_neg (by simp), getLe_append, hcount]
    dsimp only
    rw [length_descriptors fun file hfile => (h file hfile).name]
    by_cases hempty : fileDescriptorSize * self.fileList.length = 0 ∧ self.fileList.length = 0
    · rw [if_pos hempty, hempty.2]
      rfl
    · rw [if_neg hempty, if_neg (not_not.mpr rfl)]
  constructor
  · intro hround
    have hlen := length_lt_of_roundTrips h hround
    obtain ⟨built, hbuilt, hback⟩ := hround
    rw [buildFileListPdu_of_check fun file hfile => (h file hfile).name] at hbuilt
    cases hbuilt
    rw [hparse hlen] at hback
    exact ⟨hlen, (parseDescriptors_iff h).mp hback⟩
  · rintro ⟨hlen, hnul⟩
    refine ⟨_, buildFileListPdu_of_check fun file hfile => (h file hfile).name, ?_⟩
    rw [hparse hlen]
    exact (parseDescriptors_iff h).mpr hnul

theorem advertised_smallFile :
  unixNames.Advertised (smallFile ['a'])
  := by
  constructor <;> decide

/-- A directory, a file in it, and a file whose name takes two and four bytes a character. -/
def sampleList : List (LocalFile (List Char)) :=
  [{ smallFile ['a'] with
      name := "d", descriptorName := "d", size := 0, isDir := true, normal := false },
    { smallFile ['a'] with descriptorName := "d/a", readOnly := true },
    { smallFile ['a'] with descriptorName := "ü😀", lastWriteTime := 1700000000000000000 }]

theorem roundTrips_sampleList :
  unixNames.RoundTrips 7 { fileList := sampleList }
  := by
  have hall : ∀ file ∈ sampleList, unixNames.Advertised file := by
    intro file hfile
    simp only [sampleList, List.mem_cons, List.not_mem_nil, or_false] at hfile
    rcases hfile with rfl | rfl | rfl
    · constructor <;> decide
    · constructor <;> decide
    · constructor <;> decide
  apply (roundTrips_iff hall).mpr
  constructor
  · decide
  · decide

/-- A list of 2^32 entries is written with the count zero. -/
theorem not_roundTrips :
  ¬ ∀ (names : Names (List Char)) (connId : BitVec 32) (self : ClipFiles (List Char)),
    (∀ file ∈ self.fileList, names.Advertised file) → names.RoundTrips connId self
  := by
  intro h
  have hall : ∀ file ∈ List.replicate (2 ^ 32) (smallFile ['a']), unixNames.Advertised file := by
    intro file hfile
    rw [List.eq_of_mem_replicate hfile]
    exact advertised_smallFile
  have hlen := length_lt_of_roundTrips hall
    (h unixNames 7 { fileList := List.replicate (2 ^ 32) (smallFile ['a']) } hall)
  rw [List.length_replicate] at hlen
  exact lt_irrefl _ hlen

end Names

end VynxDesk.Clipboard
