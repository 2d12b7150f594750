import VynxDesk.Clipboard.Message
import VynxDesk.Lib.Utf16
import Mathlib.Data.String.Basic

/-!
# Local files of the clipboard

`LocalFile` of `platform/unix/local_file.rs`, and the check of names it shares with the parser of
`filetype.rs`.  What the code uses of `std::path` and of the check of file transfers is a parameter
(`Names`), and what the file system answers during a call is an argument: the answers of one moment
say nothing about those of another.
-/

namespace VynxDesk.Clipboard

/-- What the code uses of paths: `strip_prefix`, `is_absolute`, `to_string_lossy`, `parent` and the
path of a text; and `validate_file_name_no_traversal`, with the text of its error. -/
structure Names (Path : Type) where
  stripPrefix : Path → Path → Option Path
  isAbsolute : Path → Bool
  toStringLossy : Path → String
  parent : Path → Option Path
  ofString : String → Path
  validateFileNameNoTraversal : String → Option String

/-- The paths of Unix, as their characters. -/
def unixNames : Names (List Char) where
  stripPrefix root path :=
    if path = root then some []
    else path.dropPrefix? (if root.getLast? = some '/' then root else root ++ ['/'])
  isAbsolute path := path.head? = some '/'
  toStringLossy := String.ofList
  parent path :=
    let directory := ((path.reverse.dropWhile (· ≠ '/')).drop 1).reverse
    if path = [] ∨ path = ['/'] then none
    else if directory = [] ∧ path.head? = some '/' then some ['/'] else some directory
  ofString := String.toList
  validateFileNameNoTraversal name :=
    if '\x00' ∈ name.toList then some "file name contains a null byte"
    else if ['.', '.'] ∈ name.toList.splitOn '/' then some "file name leaves its directory"
    else none

/-- `FILE_NAME_CODE_UNITS`. -/
def fileNameCodeUnits : ℕ := 260

/-- `FILE_NAME_FIELD_SIZE`. -/
def fileNameFieldSize : ℕ := fileNameCodeUnits * 2

/-- `MAX_FILE_NAME_CODE_UNITS`. -/
def maxFileNameCodeUnits : ℕ := fileNameCodeUnits - 1

/-- The name starts with the letter of a drive and a root. -/
def startsWithDrive : List Char → Bool
  | letter :: ':' :: '/' :: _ => letter.isAlpha
  | _ => false

/-- What the file system answers about a path: `metadata`. -/
structure Metadata where
  len : BitVec 64
  isDir : Bool
  readonly : Bool
  modified : Option Int
  mode : BitVec 32
  deriving DecidableEq, Repr

/-- `LocalFile`.  `handle` is the position of the reader, when there is one; `lastWriteTime` counts
nanoseconds from the Unix epoch. -/
structure LocalFile (Path : Type) where
  path : Path
  handle : Option ℕ
  offset : BitVec 64
  name : String
  descriptorName : String
  size : BitVec 64
  lastWriteTime : Int
  isDir : Bool
  perm : BitVec 32
  readOnly : Bool
  hidden : Bool
  system : Bool
  archive : Bool
  normal : Bool
  deriving DecidableEq, Repr

/-- What the file system does with the file at a path during a call: the errors of opening it, of
filling the first buffer, of seeking and of reading, and its contents. -/
structure FileState where
  opens : Option IoError := none
  fills : Option IoError := none
  seeks : BitVec 64 → Option IoError := fun _ => none
  reads : Option IoError := none
  contents : Bytes

/-- `read_exact` of a reader at a position: an empty buffer is full without a read. -/
def FileState.readExact (position len : ℕ) (state : FileState) : Except IoError Bytes :=
  if len = 0 then .ok []
  else
    match state.reads with
    | some e => .error e
    | none =>
        if position + len ≤ state.contents.length then
          .ok ((state.contents.drop position).take len)
        else .error .unexpectedEof

namespace Names

variable {Path : Type} (names : Names Path)

/-- `validate_file_name`. -/
def validateFileName (name : String) : Except CliprdrError Unit :=
  if startsWithDrive name.toList
      || (name.toList.splitOn '/').any (fun component => component = [] || component = ['.']) then
    .error (.InvalidRequest "clipboard file name is not a normalized relative path")
  else
    match names.validateFileNameNoTraversal name with
    | some error => .error (.InvalidRequest error)
    | none => .ok ()

/-- `descriptor_name_too_long_error`. -/
def descriptorNameTooLongError : CliprdrError :=
  .InvalidRequest
    ("clipboard file name exceeds " ++ toString maxFileNameCodeUnits ++ " UTF-16 code units")

/-- The name of a descriptor passes the checks of `validated_descriptor_name`. -/
def checkDescriptorName (descriptorName : String) : Except CliprdrError Unit := do
  names.validateFileName descriptorName
  if maxFileNameCodeUnits < (Utf16.encode descriptorName.toList).length then
    .error descriptorNameTooLongError

/-- `validated_descriptor_name`. -/
def validatedDescriptorName (relativeRoot path : Path) : Except CliprdrError String := do
  let descriptorPath ← (names.stripPrefix relativeRoot path).elim
    (.error (.InvalidRequest "clipboard file path is outside its relative root")) .ok
  if names.isAbsolute descriptorPath then
    .error (.InvalidRequest "clipboard file path must be relative")
  let descriptorName := names.toStringLossy descriptorPath
  names.checkDescriptorName descriptorName
  return descriptorName

/-- `path.display().to_string().trim_start_matches('/').replace('/', "\\")`. -/
def displayName (path : Path) : String :=
  String.ofList (((names.toStringLossy path).toList.dropWhile (· = '/')).map fun c =>
    if c = '/' then '\\' else c)

/-- `try_open`, with the answer to `metadata`. -/
def tryOpen (relativeRoot path : Path) (metadata : Except IoError Metadata) :
    Except CliprdrError (LocalFile Path) := do
  let descriptorName ← names.validatedDescriptorName relativeRoot path
  let mt ← metadata.mapError (.FileError (names.toStringLossy path))
  let hidden := (names.toStringLossy path).toList.head? = some '.'
  return {
    path := path
    handle := none
    offset := 0
    name := names.displayName path
    descriptorName := descriptorName
    size := mt.len
    lastWriteTime := mt.modified.getD 0
    isDir := mt.isDir
    perm := mt.mode
    readOnly := mt.readonly
    hidden := hidden
    system := false
    archive := false
    normal := !(mt.isDir || mt.readonly || hidden) }

/-- `load_handle`. -/
def loadHandle (fs : Path → FileState) (file : LocalFile Path) :
    Except CliprdrError (LocalFile Path) :=
  if !file.isDir && file.handle.isNone then
    match (fs file.path).opens, (fs file.path).fills with
    | some err, _ => .error (.FileError (names.toStringLossy file.path) err)
    | none, some err => .error (.FileError (names.toStringLossy file.path) err)
    | none, none => .ok { file with handle := some 0 }
  else .ok file

/-- `invalidate_handle`. -/
def invalidateHandle (err : IoError) (file : LocalFile Path) : CliprdrError × LocalFile Path :=
  (.FileError (names.toStringLossy file.path) err, { file with offset := 0, handle := none })

/-- What is read of a file with a reader at `position`: the reader seeks when it is not known to be
where it should. -/
def readFrom (state : FileState) (len : ℕ) (offset : BitVec 64) (position : ℕ)
    (file : LocalFile Path) : Except IoError (ℕ × Bytes) :=
  if offset ≠ file.offset then
    match state.seeks offset with
    | some err => .error err
    | none => (state.readExact offset.toNat len).map (offset.toNat + len, ·)
  else (state.readExact position len).map (position + len, ·)

/-- `read_exact_at`, for a buffer of `len` bytes. -/
def readExactAt (fs : Path → FileState) (len : ℕ) (offset : BitVec 64) (file : LocalFile Path) :
    Except CliprdrError Bytes × LocalFile Path :=
  match names.loadHandle fs file with
  | .error err => (.error err, file)
  | .ok file =>
      match file.handle with
      | none =>
          (.error (.FileError (names.toStringLossy file.path)
            (.notFound "file handle not found")), file)
      | some position =>
          match readFrom (fs file.path) len offset position file with
          | .error err =>
              let r := names.invalidateHandle err file
              (.error r.1, r.2)
          | .ok (position, bytes) =>
              let newOffset := offset + BitVec.ofNat 64 len
              if file.size ≤ newOffset then
                (.ok bytes, { file with offset := 0, handle := none })
              else (.ok bytes, { file with offset := newOffset, handle := some position })

end Names

end VynxDesk.Clipboard
