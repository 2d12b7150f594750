import Mathlib.Data.List.Nodup
import VynxDesk.Lib.Slice
import VynxDesk.Lib.Utf8

/-!
# The portable payload

`write_blob` of `libs/portable/generate.py` writes a table of files and the name of an executable
into a blob, and `parse` of `libs/portable/src/bin_reader.rs` reads it.  The layout is a list of
records between two identifiers, and the executable behind the second one (`layout`).
-/

namespace VynxDesk.Portable

abbrev Bytes : Type := List UInt8

/-- `LENGTH`, and `length_count` of the writer. -/
def lengthCount : ℕ := 4

/-- `IDENTIFIER`, and what the writer writes before and behind the records. -/
def identifier : Bytes := [114, 117, 115, 116, 100, 101, 115, 107]

/-- `IDENTIFIER_LENGTH`. -/
def identifierLength : ℕ := 8

/-- `MD5_LENGTH`. -/
def md5Length : ℕ := 32

/-- The UTF-8 bytes of a string. -/
def utf8 (s : String) : Bytes := s.toByteArray.data.toList

/-- `std::str::from_utf8`. -/
def fromUtf8 (bytes : Bytes) : Option String := String.fromUTF8? ⟨bytes.toArray⟩

/-- A string is read from its bytes, and from no others. -/
theorem fromUtf8_eq_some_iff {bytes : Bytes} {s : String} :
  fromUtf8 bytes = some s ↔ bytes = utf8 s
  := Utf8.string?_eq_some_iff

/-! ## The writer -/

/-- `md5_table`: for each path the compressed data and the md5 code, in the order of insertion. -/
structure Md5Table where
  items : List (String × Bytes × Bytes)
  nodup : (items.map Prod.fst).Nodup

namespace Md5Table

/-- `md5_table.keys()`. -/
def keys (md5Table : Md5Table) : List String := md5Table.items.map Prod.fst

/-- `md5_table[path]`. -/
def getItem (md5Table : Md5Table) (path : String) : Option (Bytes × Bytes) :=
  (md5Table.items.find? fun item => item.1 = path).map Prod.snd

theorem getItem_of_mem (md5Table : Md5Table) {path : String} {value : Bytes × Bytes}
    (hmem : (path, value) ∈ md5Table.items) :
  md5Table.getItem path = some value
  := by
  obtain ⟨item, hitem⟩ : ∃ item, md5Table.items.find? (fun item => item.1 = path) = some item := by
    apply Option.isSome_iff_exists.mp
    rw [List.find?_isSome]
    exact ⟨(path, value), hmem, by simp⟩
  have hsame : item = (path, value) := by
    apply List.inj_on_of_nodup_map md5Table.nodup (List.mem_of_find?_eq_some hitem) hmem
    simpa using List.find?_some hitem
  rw [getItem, hitem, hsame, Option.map_some]

end Md5Table

/-- `n.to_bytes(length=length_count, byteorder='big')`, which raises `OverflowError` for a number
that does not fit. -/
def toBytes (n : ℕ) : Option Bytes :=
  if n < 256 ^ lengthCount then some (beBytes lengthCount n) else none

/-- One round of the loop of `write_blob`. -/
def writeRecord (md5Table : Md5Table) (path : String) : Option Bytes := do
  let (compressedData, md5Code) ← md5Table.getItem path
  let dataLength := compressedData.length
  let path := utf8 path
  let pathBytes ← toBytes path.length
  let lengthBytes ← toBytes dataLength
  return pathBytes ++ path ++ lengthBytes ++ compressedData ++ md5Code

/-- `write_blob`: the bytes it writes, unless it raises. -/
def writeBlob (md5Table : Md5Table) (exe : String) : Option Bytes := do
  let records ← md5Table.keys.mapM (writeRecord md5Table)
  return identifier ++ records.flatten ++ identifier ++ utf8 exe

/-! ## The reader -/

/-- `BinaryData`. -/
structure BinaryData where
  md5Code : Bytes
  raw : Bytes
  path : String
  deriving DecidableEq

/-- How a reader stops: with the `None` of a `?` or a `return`, or with a panic. -/
inductive Stop where
  | none
  | panic
  deriving DecidableEq, Repr

/-- `?` on an `Option`. -/
def orNone {α : Type} : Option α → Except Stop α
  | some x => .ok x
  | .none => .error .none

section

variable {w : ℕ} {blob : Slice w} {base : ℕ} {rest : Bytes}

/-- `read_u32`. -/
def readU32 (blob : Slice w) (at_ : ℕ) : Except Stop ℕ := do
  let bytes ← orNone (blob.get at_ (blob.add at_ lengthCount))
  match bytes[0]?, bytes[1]?, bytes[2]?, bytes[3]? with
  | some b₀, some b₁, some b₂, some b₃ => .ok (beNat [b₀, b₁, b₂, b₃])
  | _, _, _, _ => .error .panic

/-- The body of the loop of `parse` behind the test for the identifier: the record at `base`, and
the index behind it. -/
def readRecord (blob : Slice w) (base : ℕ) : Except Stop (BinaryData × ℕ) := do
  let pathLength ← readU32 blob base
  let base := blob.add base lengthCount
  let path ← orNone ((blob.get base (blob.add base pathLength)).bind fromUtf8)
  let base := blob.add base pathLength
  let fileLength ← readU32 blob base
  let base := blob.add base lengthCount
  let raw ← orNone (blob.get base (blob.add base fileLength))
  let base := blob.add base fileLength
  let md5Code ← orNone (blob.get base (blob.add base md5Length))
  let base := blob.add base md5Length
  return (⟨md5Code, raw, path⟩, base)

/-- The layout of one record. -/
def record (file : BinaryData) : Bytes :=
  beBytes lengthCount (utf8 file.path).length ++ utf8 file.path
    ++ beBytes lengthCount file.raw.length ++ file.raw ++ file.md5Code

/-- The lengths of a file fit into a record. -/
structure BinaryData.Fits (file : BinaryData) : Prop where
  path : (utf8 file.path).length < 256 ^ lengthCount
  raw : file.raw.length < 256 ^ lengthCount
  md5 : file.md5Code.length = md5Length

theorem length_record {file : BinaryData} (h : file.Fits) :
  (record file).length = (utf8 file.path).length + file.raw.length + 40
  := by
  simp only [record, List.length_append, length_beBytes, h.md5, lengthCount, md5Length]
  omega

/-- A computation returns when its parts do. -/
theorem bind_eq_ok_iff {ε α β : Type} {x : Except ε α} {f : α → Except ε β} {b : β} :
  (x >>= f) = .ok b ↔ ∃ a, x = .ok a ∧ f a = .ok b
  := by
  cases x <;> simp [Bind.bind, Except.bind]

/-- A computation does not raise what its parts do not raise. -/
theorem bind_ne_error {ε α β : Type} {x : Except ε α} {f : α → Except ε β} {e : ε}
    (hx : x ≠ .error e) (hf : ∀ a, f a ≠ .error e) :
  (x >>= f) ≠ .error e
  := by
  cases x with
  | ok a => apply hf
  | error e' =>
      intro h
      apply hx
      injection h with h
      rw [h]

theorem orNone_ne_panic {α : Type} (o : Option α) :
  orNone o ≠ .error .panic
  := by
  cases o <;> simp [orNone]

theorem orNone_eq_ok_iff {α : Type} {o : Option α} {x : α} :
  orNone o = .ok x ↔ o = some x
  := by
  cases o <;> simp [orNone]

/-- A number is read where it is. -/
theorem readU32_of_left {n : ℕ} (hn : n < 256 ^ lengthCount)
    (h : blob.Left base (beBytes lengthCount n ++ rest)) :
  readU32 blob base = .ok n ∧ blob.Left (blob.add base lengthCount) rest
  := by
  obtain ⟨hget, hleft⟩ := h.get (length_beBytes _ _)
  apply And.intro _ hleft
  have hfour := length_beBytes lengthCount n
  have hnat := beNat_beBytes_of_lt hn
  rw [readU32, hget]
  generalize beBytes lengthCount n = bytes at hfour hnat
  match bytes, hfour with
  | [b₀, b₁, b₂, b₃], _ =>
      rw [← hnat]
      rfl

/-- The number that is read is there. -/
theorem left_of_readU32 {n : ℕ} (h : readU32 blob base = .ok n) :
  n < 256 ^ lengthCount ∧ ∃ rest, blob.Left base (beBytes lengthCount n ++ rest)
    ∧ blob.Left (blob.add base lengthCount) rest
  := by
  rw [readU32] at h
  cases hget : blob.get base (blob.add base lengthCount) with
  | none =>
      rw [hget] at h
      cases h
  | some bytes =>
      obtain ⟨hfour, rest, hleft⟩ := Slice.left_of_get (by decide) hget
      rw [hget] at h
      have hbytes : beBytes lengthCount n = bytes ∧ n < 256 ^ lengthCount := by
        match bytes, hfour with
        | [b₀, b₁, b₂, b₃], hfour =>
            obtain rfl : beNat [b₀, b₁, b₂, b₃] = n := Except.ok.inj h
            apply And.intro (beBytes_beNat hfour)
            apply beNat_lt [b₀, b₁, b₂, b₃]
      rw [hbytes.1]
      apply And.intro hbytes.2
      use rest

theorem readU32_ne_panic (blob : Slice w) (base : ℕ) :
  readU32 blob base ≠ .error .panic
  := by
  rw [readU32]
  cases hget : blob.get base (blob.add base lengthCount) with
  | none => simp [orNone, Bind.bind, Except.bind]
  | some bytes =>
      obtain ⟨hfour, -⟩ := Slice.left_of_get (by decide) hget
      match bytes, hfour with
      | [b₀, b₁, b₂, b₃], _ =>
          intro h
          cases h

/-- A record is read where it is. -/
theorem readRecord_of_left {file : BinaryData} (hfits : file.Fits)
    (h : blob.Left base (record file ++ rest)) :
  ∃ base', readRecord blob base = .ok (file, base') ∧ blob.Left base' rest
  := by
  simp only [record, List.append_assoc] at h
  obtain ⟨hpathLength, h⟩ := readU32_of_left hfits.path h
  obtain ⟨hpath, h⟩ := h.get rfl
  obtain ⟨hfileLength, h⟩ := readU32_of_left hfits.raw h
  obtain ⟨hraw, h⟩ := h.get rfl
  obtain ⟨hmd5, h⟩ := h.get hfits.md5
  refine ⟨_, ?_, h⟩
  have hutf8 := fromUtf8_eq_some_iff.mpr (rfl : utf8 file.path = utf8 file.path)
  rw [readRecord]
  refine bind_eq_ok_iff.mpr ⟨_, hpathLength, bind_eq_ok_iff.mpr ⟨file.path, ?_,
    bind_eq_ok_iff.mpr ⟨_, hfileLength, bind_eq_ok_iff.mpr ⟨_, orNone_eq_ok_iff.mpr hraw,
    bind_eq_ok_iff.mpr ⟨_, orNone_eq_ok_iff.mpr hmd5, rfl⟩⟩⟩⟩⟩
  rw [orNone_eq_ok_iff, hpath, Option.bind_some, hutf8]

/-- The record that is read is there. -/
theorem left_of_readRecord {base' : ℕ} {file : BinaryData}
    (h : readRecord blob base = .ok (file, base')) :
  file.Fits ∧ ∃ rest, blob.Left base (record file ++ rest) ∧ blob.Left base' rest
  := by
  rw [readRecord] at h
  obtain ⟨pathLength, hpathLength, h⟩ := bind_eq_ok_iff.mp h
  obtain ⟨path, hpath, h⟩ := bind_eq_ok_iff.mp h
  obtain ⟨fileLength, hfileLength, h⟩ := bind_eq_ok_iff.mp h
  obtain ⟨raw, hraw, h⟩ := bind_eq_ok_iff.mp h
  obtain ⟨md5Code, hmd5, h⟩ := bind_eq_ok_iff.mp h
  obtain ⟨rfl, rfl⟩ := Prod.mk.inj (Except.ok.inj h)
  obtain ⟨pathBytes, hpathBytes, hutf8⟩ := Option.bind_eq_some_iff.mp (orNone_eq_ok_iff.mp hpath)
  obtain rfl := fromUtf8_eq_some_iff.mp hutf8
  obtain ⟨hpathLt, rest₁, hleft, hleft₁⟩ := left_of_readU32 hpathLength
  obtain ⟨hpathLen, rest₂, hleft₁', hleft₂⟩ := Slice.left_of_get hpathLt hpathBytes
  obtain ⟨hfileLt, rest₃, hleft₂', hleft₃⟩ := left_of_readU32 hfileLength
  obtain ⟨hrawLen, rest₄, hleft₃', hleft₄⟩ := Slice.left_of_get hfileLt (orNone_eq_ok_iff.mp hraw)
  obtain ⟨hmd5Len, rest, hleft₄', hend⟩ :=
    Slice.left_of_get (by decide) (orNone_eq_ok_iff.mp hmd5)
  obtain rfl := hleft₁.2.symm.trans hleft₁'.2
  obtain rfl := hleft₂.2.symm.trans hleft₂'.2
  obtain rfl := hleft₃.2.symm.trans hleft₃'.2
  obtain rfl := hleft₄.2.symm.trans hleft₄'.2
  constructor
  · exact ⟨by rwa [hpathLen], by rwa [hrawLen], hmd5Len⟩
  · use rest
    apply And.intro _ hend
    simpa only [record, List.append_assoc, hpathLen, hrawLen] using hleft

theorem readRecord_ne_panic (blob : Slice w) (base : ℕ) :
  readRecord blob base ≠ .error .panic
  := by
  rw [readRecord]
  apply bind_ne_error (readU32_ne_panic _ _)
  intro pathLength
  apply bind_ne_error (orNone_ne_panic _)
  intro path
  apply bind_ne_error (readU32_ne_panic _ _)
  intro fileLength
  apply bind_ne_error (orNone_ne_panic _)
  intro raw
  apply bind_ne_error (orNone_ne_panic _)
  intro md5Code h
  cases h

/-- A record takes the reader forward, within the slice. -/
theorem readRecord_lt {base' : ℕ} {file : BinaryData}
    (h : readRecord blob base = .ok (file, base')) :
  blob.bytes.length - base' < blob.bytes.length - base
  := by
  obtain ⟨hfits, rest, hleft, hleft'⟩ := left_of_readRecord h
  have hlen := hleft.length
  have hlen' := hleft'.length
  have hrecord := length_record hfits
  rw [List.length_append] at hlen
  omega

/-- The loop of `parse` from `base` on, with what was parsed before. -/
def readRecords (blob : Slice w) (base : ℕ) (parsed : List BinaryData) :
    Except Stop (List BinaryData × ℕ) :=
  match orNone (blob.get base (blob.add base identifierLength)) with
  | .error stop => .error stop
  | .ok bytes =>
      if bytes = identifier then .ok (parsed, blob.add base identifierLength)
      else
        match _h : readRecord blob base with
        | .error stop => .error stop
        | .ok (file, base') => readRecords blob base' (parsed ++ [file])
  termination_by blob.bytes.length - base
  decreasing_by exact readRecord_lt _h

/-- `parse`: the files and the executable. -/
def parse (blob : Slice w) : Except Stop (List BinaryData × String) := do
  let base := 0
  let bytes ← orNone (blob.get base (blob.add base identifierLength))
  if bytes ≠ identifier then
    .error .none
  else
    let base := blob.add base identifierLength
    let (parsed, base) ← readRecords blob base []
    let executable ← orNone ((blob.getFrom base).bind fromUtf8)
    return (parsed, executable)

/-- The layout of files and an executable. -/
def layout (files : List BinaryData) (exe : String) : Bytes :=
  identifier ++ files.flatMap record ++ identifier ++ utf8 exe

/-- A file whose path is shorter than `2 ^ 30` bytes. -/
structure BinaryData.Plain (file : BinaryData) : Prop where
  path : (utf8 file.path).length < 2 ^ 30
  raw : file.raw.length < 256 ^ lengthCount
  md5 : file.md5Code.length = md5Length

theorem BinaryData.Plain.fits {file : BinaryData} (h : file.Plain) :
  file.Fits
  := by
  refine ⟨?_, h.raw, h.md5⟩
  have hpath := h.path
  simp only [lengthCount]
  omega

/-- The record of a plain file does not begin like the end mark: the four bytes `rust` would be the
length of a path of more than `2 ^ 30` bytes. -/
theorem ne_identifier_of_plain {file : BinaryData} (hplain : file.Plain) {x rest' : Bytes}
    (hlen : x.length = identifierLength) (h : record file ++ rest = x ++ rest') :
  x ≠ identifier
  := by
  rintro rfl
  have hfour := congrArg (List.take lengthCount) h
  have hpath := hplain.path
  have hlt := hplain.fits.path
  simp only [record, List.append_assoc] at hfour
  rw [List.take_left' (length_beBytes _ _)] at hfour
  have hnat := congrArg beNat hfour
  rw [beNat_beBytes_of_lt hlt] at hnat
  have hrust : beNat (List.take lengthCount (identifier ++ rest')) = 1920299892 := by
    rfl
  omega

/-- Plain files between two identifiers are read, and what is behind is left. -/
theorem readRecords_of_left (files : List BinaryData) :
  ∀ {base : ℕ} (parsed : List BinaryData), (∀ file ∈ files, file.Plain) →
    blob.Left base (files.flatMap record ++ (identifier ++ rest)) →
    ∃ base', readRecords blob base parsed = .ok (parsed ++ files, base') ∧ blob.Left base' rest
  := by
  induction files with
  | nil =>
      intro base parsed _ h
      rw [List.flatMap_nil, List.nil_append] at h
      obtain ⟨hget, hleft⟩ := h.get (n := identifierLength) rfl
      use blob.add base identifierLength
      apply And.intro _ hleft
      rw [readRecords, orNone_eq_ok_iff.mpr hget, List.append_nil]
      exact if_pos rfl
  | cons file files ih =>
      intro base parsed hplain h
      rw [List.forall_mem_cons] at hplain
      obtain ⟨hfile, hfiles⟩ := hplain
      rw [List.flatMap_cons, List.append_assoc] at h
      obtain ⟨x, y, hxy, hx⟩ : ∃ x y,
          record file ++ (files.flatMap record ++ (identifier ++ rest)) = x ++ y
            ∧ x.length = identifierLength := by
        refine ⟨_, _, (List.take_append_drop identifierLength _).symm, ?_⟩
        have hlen := length_record hfile.fits
        simp only [identifierLength, List.length_take, List.length_append]
        omega
      have hne : x ≠ identifier := ne_identifier_of_plain hfile hx hxy
      obtain ⟨base', hrecord, hleft⟩ := readRecord_of_left hfile.fits h
      obtain ⟨base'', hloop, hend⟩ := ih (parsed ++ [file]) hfiles hleft
      use base''
      apply And.intro _ hend
      rw [hxy] at h
      rw [readRecords, orNone_eq_ok_iff.mpr (h.get hx).1]
      simp only [if_neg hne]
      split
      next stop hstop => rw [hrecord] at hstop; cases hstop
      next file' next hnext =>
          rw [hrecord] at hnext
          obtain ⟨rfl, rfl⟩ := Prod.mk.inj (Except.ok.inj hnext)
          rw [hloop, List.append_assoc, List.singleton_append]

/-- The files that are read lie between `base` and an identifier. -/
theorem left_of_readRecords (blob : Slice w) (base : ℕ) (parsed : List BinaryData) :
  ∀ {files : List BinaryData} {base' : ℕ}, readRecords blob base parsed = .ok (files, base') →
    ∃ new rest, files = parsed ++ new ∧ (∀ file ∈ new, file.Fits)
      ∧ blob.Left base (new.flatMap record ++ (identifier ++ rest)) ∧ blob.Left base' rest
  := by
  induction base, parsed using readRecords.induct blob with
  | case1 base parsed stop hget =>
      intro files base' h
      rw [readRecords, hget] at h
      cases h
  | case2 base parsed hget =>
      intro files base' h
      rw [readRecords, hget] at h
      obtain ⟨rfl, rfl⟩ := Prod.mk.inj (Except.ok.inj ((if_pos rfl).symm.trans h))
      obtain ⟨-, rest, hleft, hend⟩ :=
        Slice.left_of_get (by decide) (orNone_eq_ok_iff.mp hget)
      exact ⟨[], rest, (List.append_nil _).symm, nofun, hleft, hend⟩
  | case3 base parsed bytes hget hne stop hrecord =>
      intro files base' h
      rw [readRecords, hget] at h
      simp only [if_neg hne] at h
      split at h
      next => cases h
      next file' next hnext => rw [hrecord] at hnext; cases hnext
  | case4 base parsed bytes hget hne file next hrecord ih =>
      intro files base' h
      rw [readRecords, hget] at h
      simp only [if_neg hne] at h
      split at h
      next => cases h
      next file' next' hnext =>
          rw [hrecord] at hnext
          obtain ⟨rfl, rfl⟩ := Prod.mk.inj (Except.ok.inj hnext)
          obtain ⟨new, rest, rfl, hfits, hleft, hend⟩ := ih h
          obtain ⟨hfile, rest', hleft', hnext'⟩ := left_of_readRecord hrecord
          obtain rfl := hnext'.2.symm.trans hleft.2
          refine ⟨file :: new, rest, by simp, ?_, ?_, hend⟩
          · rw [List.forall_mem_cons]
            exact ⟨hfile, hfits⟩
          · rwa [List.flatMap_cons, List.append_assoc]

theorem readRecords_ne_panic (blob : Slice w) (base : ℕ) (parsed : List BinaryData) :
  readRecords blob base parsed ≠ .error .panic
  := by
  induction base, parsed using readRecords.induct blob with
  | case1 base parsed stop hget =>
      rw [readRecords, hget]
      rintro ⟨⟩
      apply orNone_ne_panic _ hget
  | case2 base parsed hget =>
      rw [readRecords, hget]
      simp
  | case3 base parsed bytes hget hne stop hrecord =>
      rw [readRecords, hget]
      simp only [if_neg hne]
      split
      next hstop =>
          rintro ⟨⟩
          apply readRecord_ne_panic _ _ hstop
      next hnext => rw [hrecord] at hnext; cases hnext
  | case4 base parsed bytes hget hne file next hrecord ih =>
      rw [readRecords, hget]
      simp only [if_neg hne]
      split
      next hstop => rw [hrecord] at hstop; cases hstop
      next hnext =>
          rw [hrecord] at hnext
          obtain ⟨rfl, rfl⟩ := Prod.mk.inj (Except.ok.inj hnext)
          apply ih

/-- A blob with the layout of plain files is read as these files. -/
theorem parse_of_layout {files : List BinaryData} {exe : String}
    (hplain : ∀ file ∈ files, file.Plain) (h : blob.bytes = layout files exe) :
  parse blob = .ok (files, exe)
  := by
  have hleft := blob.left_zero
  rw [h, layout, List.append_assoc, List.append_assoc] at hleft
  obtain ⟨hget, hleft⟩ := hleft.get (n := identifierLength) rfl
  obtain ⟨base', hloop, hend⟩ := readRecords_of_left files [] hplain hleft
  rw [parse]
  refine bind_eq_ok_iff.mpr ⟨_, orNone_eq_ok_iff.mpr hget, ?_⟩
  rw [if_neg (not_not_intro rfl)]
  refine bind_eq_ok_iff.mpr ⟨_, hloop, bind_eq_ok_iff.mpr ⟨exe, ?_, rfl⟩⟩
  rw [orNone_eq_ok_iff, hend.getFrom, Option.bind_some, fromUtf8_eq_some_iff]

/-- What is read has the layout of what it is read as. -/
theorem layout_of_parse {files : List BinaryData} {exe : String}
    (h : parse blob = .ok (files, exe)) :
  (∀ file ∈ files, file.Fits) ∧ blob.bytes = layout files exe
  := by
  rw [parse] at h
  obtain ⟨bytes, hget, h⟩ := bind_eq_ok_iff.mp h
  split at h
  next => cases h
  next hidentifier =>
      obtain rfl := not_not.mp hidentifier
      obtain ⟨⟨files', base'⟩, hloop, h⟩ := bind_eq_ok_iff.mp h
      obtain ⟨exe', hexe, h⟩ := bind_eq_ok_iff.mp h
      obtain ⟨rfl, rfl⟩ := Prod.mk.inj (Except.ok.inj h)
      obtain ⟨-, rest, hzero, hleft⟩ :=
        Slice.left_of_get (by decide) (orNone_eq_ok_iff.mp hget)
      obtain ⟨new, rest', hnew, hfits, hleft', hend⟩ := left_of_readRecords _ _ _ hloop
      obtain ⟨exeBytes, hexeBytes, hutf8⟩ := Option.bind_eq_some_iff.mp (orNone_eq_ok_iff.mp hexe)
      obtain rfl := Option.some.inj (hend.getFrom.symm.trans hexeBytes)
      obtain rfl := fromUtf8_eq_some_iff.mp hutf8
      obtain rfl := hleft.2.symm.trans hleft'.2
      rw [List.nil_append] at hnew
      rw [hnew]
      apply And.intro hfits
      rw [layout, List.append_assoc, List.append_assoc]
      apply blob.left_zero.2.symm.trans hzero.2

theorem parse_ne_panic (blob : Slice w) :
  parse blob ≠ .error .panic
  := by
  rw [parse]
  apply bind_ne_error (orNone_ne_panic _)
  intro bytes
  split
  next => simp
  next =>
      apply bind_ne_error (readRecords_ne_panic _ _ _)
      rintro ⟨parsed, base⟩
      apply bind_ne_error (orNone_ne_panic _)
      intro exe h
      cases h

end

/-! ## The writer and the reader -/

namespace Md5Table

/-- A file of a table. -/
def file (item : String × Bytes × Bytes) : BinaryData :=
  { path := item.1, raw := item.2.1, md5Code := item.2.2 }

/-- The files of a table. -/
def files (md5Table : Md5Table) : List BinaryData := md5Table.items.map file

/-- The table of files with different paths. -/
def ofFiles (files : List BinaryData) (h : (files.map BinaryData.path).Nodup) : Md5Table where
  items := files.map fun file => (file.path, file.raw, file.md5Code)
  nodup := by
    rw [List.map_map]
    exact h

theorem files_ofFiles (files : List BinaryData) (h : (files.map BinaryData.path).Nodup) :
  (ofFiles files h).files = files
  := by
  rw [Md5Table.files, ofFiles, List.map_map]
  apply List.map_id

theorem nodup_files (md5Table : Md5Table) :
  (md5Table.files.map BinaryData.path).Nodup
  := by
  rw [files, List.map_map]
  apply md5Table.nodup

theorem writeRecord_eq (md5Table : Md5Table) {item : String × Bytes × Bytes}
    (hmem : item ∈ md5Table.items) (hfits : (file item).Fits) :
  writeRecord md5Table item.1 = some (record (file item))
  := by
  have hpath : toBytes (utf8 item.1).length = some (beBytes lengthCount (utf8 item.1).length) :=
    if_pos hfits.path
  have hraw : toBytes item.2.1.length = some (beBytes lengthCount item.2.1.length) :=
    if_pos hfits.raw
  rw [writeRecord, md5Table.getItem_of_mem hmem]
  simp only [Option.bind_eq_bind, Option.bind_some, hpath, hraw]
  rfl

/-- The writer writes the layout of its files. -/
theorem writeBlob_eq (md5Table : Md5Table) (exe : String) (hfits : ∀ f ∈ md5Table.files, f.Fits) :
  writeBlob md5Table exe = some (layout md5Table.files exe)
  := by
  have hloop : ∀ items ⊆ md5Table.items,
      (items.map Prod.fst).mapM (writeRecord md5Table)
        = some ((items.map file).map record) := by
    intro items
    induction items with
    | nil =>
        intro _
        rfl
    | cons item items ih =>
        intro hsub
        obtain ⟨hmem, hrest⟩ := List.cons_subset.mp hsub
        have hitem := md5Table.writeRecord_eq hmem (hfits _ (List.mem_map_of_mem hmem))
        rw [List.map_cons, List.mapM_cons, hitem, ih hrest]
        rfl
  rw [writeBlob, keys, hloop _ (List.Subset.refl _)]
  rfl

end Md5Table

/-- What the writer writes is read as it was; the reader stops on every blob without a panic; and
what it accepts is the layout of what it returns, which the writer writes from the table of the
files if their paths are different. -/
theorem parse_writeBlob :
  (∀ (md5Table : Md5Table) (exe : String), (∀ file ∈ md5Table.files, file.Plain) →
      ∃ bytes, writeBlob md5Table exe = some bytes
        ∧ ∀ (w : ℕ) (blob : Slice w), blob.bytes = bytes →
            parse blob = .ok (md5Table.files, exe))
    ∧ (∀ (w : ℕ) (blob : Slice w), parse blob ≠ .error .panic)
    ∧ ∀ (w : ℕ) (blob : Slice w) (files : List BinaryData) (exe : String),
        parse blob = .ok (files, exe) →
          blob.bytes = layout files exe
            ∧ ∀ hpaths : (files.map BinaryData.path).Nodup,
                writeBlob (Md5Table.ofFiles files hpaths) exe = some blob.bytes
  := by
  refine ⟨?_, ?_, ?_⟩
  · intro md5Table exe hplain
    use layout md5Table.files exe
    apply And.intro (md5Table.writeBlob_eq exe fun file hfile => (hplain file hfile).fits)
    intro w blob hblob
    apply parse_of_layout hplain hblob
  · intro w blob
    apply parse_ne_panic
  · intro w blob files exe h
    obtain ⟨hfits, hbytes⟩ := layout_of_parse h
    apply And.intro hbytes
    intro hpaths
    rw [Md5Table.writeBlob_eq, Md5Table.files_ofFiles, hbytes]
    rwa [Md5Table.files_ofFiles]

/-- A file with the path `a`. -/
def sampleFile : BinaryData where
  path := "a"
  raw := [1, 2]
  md5Code := List.replicate 32 48

theorem sampleFile_plain :
  sampleFile.Plain
  := by
  constructor <;> decide

/-- A table of two files, one of them empty. -/
def sampleFiles : List BinaryData := [sampleFile, { sampleFile with path := "b/ü", raw := [] }]

theorem parse_writeBlob_sample :
  ∃ bytes, writeBlob (Md5Table.ofFiles sampleFiles (by decide)) "a" = some bytes
    ∧ ∀ (w : ℕ) (blob : Slice w), blob.bytes = bytes → parse blob = .ok (sampleFiles, "a")
  := by
  apply parse_writeBlob.1
  intro file hfile
  rw [Md5Table.files_ofFiles] at hfile
  rcases List.mem_pair.mp hfile with rfl | rfl
  · apply sampleFile_plain
  · constructor <;> decide

/-- A blob with two records of the same path. -/
def twice : Slice 64 where
  bytes := layout [sampleFile, sampleFile] "a"
  wide := by decide
  fits := by decide

/-- Two records of the same path are accepted, but no table of plain files is written as them: a
table has one entry for each path. -/
theorem twice_not_written :
  parse twice = .ok ([sampleFile, sampleFile], "a")
    ∧ ∀ (md5Table : Md5Table) (exe : String), (∀ file ∈ md5Table.files, file.Plain) →
        writeBlob md5Table exe ≠ some twice.bytes
  := by
  have hparse : parse twice = .ok ([sampleFile, sampleFile], "a") := by
    apply parse_of_layout _ rfl
    intro file hfile
    obtain rfl : file = sampleFile := by simpa using hfile
    apply sampleFile_plain
  apply And.intro hparse
  intro md5Table exe hplain hwritten
  rw [md5Table.writeBlob_eq exe fun file hfile => (hplain file hfile).fits] at hwritten
  have hfiles := parse_of_layout hplain (Option.some.inj hwritten).symm
  rw [hparse] at hfiles
  have hnodup := md5Table.nodup_files
  rw [← (Prod.mk.inj (Except.ok.inj hfiles)).1] at hnodup
  simp at hnodup

end VynxDesk.Portable
