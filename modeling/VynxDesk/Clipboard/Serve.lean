import VynxDesk.Clipboard.LocalFile
import VynxDesk.Clipboard.Request

/-!
# Serving the files of the clipboard

`ClipFiles::serve_file_contents` of `platform/unix/serv_files.rs` answers for one file of the cached
list, and opens the next one for the request that is likely to follow.  An error of that opening is
returned in place of the answer: what a request is answered does not depend on the other files
exactly when the following files open alike (`Names.serve_eq_iff`).
-/

namespace VynxDesk.Clipboard

/-- `FileSig`. -/
structure FileSig where
  size : BitVec 64
  mtime : Option Int
  isDir : Bool
  deriving DecidableEq, Repr

/-- `ClipFiles`. -/
structure ClipFiles (Path : Type) where
  files : List String := []
  sigs : List FileSig := []
  fileList : List (LocalFile Path) := []
  firstFileIndex : BitVec 64 := 0
  filesPdu : Bytes := []
  deriving DecidableEq, Repr

namespace FileContentsRequest

/-- The index of the file that is asked for. -/
def fileIdx : FileContentsRequest → BitVec 64
  | .size _ fileIdx => fileIdx
  | .range _ fileIdx _ _ => fileIdx

/-- The offset that is asked for. -/
def offset : FileContentsRequest → BitVec 64
  | .size _ _ => 0
  | .range _ _ offset _ => offset

end FileContentsRequest

/-- The error of an index that is not in the list. -/
def invalidFileIndex (connId : BitVec 32) (fileIdx : BitVec 64) : CliprdrError :=
  .InvalidRequest
    ("invalid file index " ++ toString fileIdx.toNat ++ " requested from conn: "
      ++ toString connId.toInt)

/-- The error of an offset behind the end of the file. -/
def invalidReadingOffset (connId : BitVec 32) : CliprdrError :=
  .InvalidRequest ("invalid reading offset requested from conn: " ++ toString connId.toInt)

/-- How much of a file is read: `offset + length` wraps around, as it does in a release build. -/
def readSize (size offset length : BitVec 64) : BitVec 64 :=
  if size < offset + length then size - offset else length

namespace Names

variable {Path : Type} (names : Names Path) {request : FileContentsRequest}
  {self : ClipFiles Path} {len : ℕ}

/-- What the file at the index answers, and the state its reader is left in; `none` when the buffer
is larger than an allocation may be, and the call panics. -/
def respond (fs : Path → FileState) (connId : BitVec 32) (file : LocalFile Path) :
    FileContentsRequest → Option (Except CliprdrError ClipboardFile) × LocalFile Path
  | .size streamId _ =>
      (some (.ok (.fileContentsResponse 0x1 streamId (leBytes 8 file.size.toNat))), file)
  | .range streamId _ offset length =>
      if file.size < offset then (some (.error (invalidReadingOffset connId)), file)
      else
        let len := (readSize file.size offset length).toNat
        if 2 ^ 63 ≤ len then (none, file)
        else
          let r := names.readExactAt fs len offset file
          (some (r.1.map (.fileContentsResponse 0x1 streamId)), r.2)

/-- `hot reload next file`. -/
def hotReload (fs : Path → FileState) :
    List (LocalFile Path) → Except CliprdrError (List (LocalFile Path))
  | [] => .ok []
  | nextFile :: rest =>
      if !nextFile.isDir then (names.loadHandle fs nextFile).map (· :: rest)
      else (hotReload fs rest).map (nextFile :: ·)

/-- `serve_file_contents`. -/
def serveFileContents (fs : Path → FileState) (connId : BitVec 32) (request : FileContentsRequest)
    (self : ClipFiles Path) : Option (Except CliprdrError ClipboardFile) × ClipFiles Path :=
  let i := request.fileIdx.toNat
  match self.fileList[i]? with
  | none => (some (.error (invalidFileIndex connId request.fileIdx)), self)
  | some file =>
      let r := names.respond fs connId file request
      let self := { self with fileList := self.fileList.set i r.2 }
      match r.1 with
      | some (.ok fileContentsResp) =>
          match names.hotReload fs (self.fileList.drop (i + 1)) with
          | .error err => (some (.error err), self)
          | .ok rest =>
              (some (.ok fileContentsResp),
                { self with fileList := self.fileList.take (i + 1) ++ rest })
      | result => (result, self)

/-- `get_files_for_audit`. -/
def getFilesForAudit (isFile : Path → Bool) (request : FileContentsRequest)
    (self : ClipFiles Path) : Option ClipboardFile :=
  match request with
  | .range _ fileIdx offset _ =>
      if fileIdx = self.firstFileIndex ∧ offset = 0 then
        let files := self.fileList.filterMap fun f =>
          if isFile f.path then some (names.toStringLossy f.path, f.size) else none
        if files = [] then none else some (.files files)
      else none
  | .size _ _ => none

/-- `read_file_contents`. -/
def readFileContents (fs : Path → FileState) (isFile : Path → Bool) (connId streamId listIndex dwFlags
    nPositionLow nPositionHigh cbRequested : BitVec 32) (self : ClipFiles Path) :
    Option (List (Except CliprdrError ClipboardFile)) × ClipFiles Path :=
  match FileContentsRequest.ofFields streamId listIndex dwFlags nPositionLow nPositionHigh
    cbRequested with
  | .error err => (some [.error err], self)
  | .ok fcr =>
      let audit := (names.getFilesForAudit isFile fcr self).toList.map .ok
      let r := names.serveFileContents fs connId fcr self
      (r.1.map fun res => audit ++ [res], r.2)

/-! ### What the request's own file decides -/

/-- The position a request at `offset` is read from. -/
def position (offset : BitVec 64) (file : LocalFile Path) : ℕ :=
  if offset ≠ file.offset then offset.toNat else file.handle.getD 0

/-- A file can be read at an offset: it has a reader, or it is no directory and opens; the reader
can be brought to the offset; and the file holds what is to be read. -/
structure Readable (state : FileState) (len : ℕ) (offset : BitVec 64) (file : LocalFile Path) :
    Prop where
  opens : file.handle = none → file.isDir = false ∧ state.opens = none ∧ state.fills = none
  seeks : offset ≠ file.offset → state.seeks offset = none
  reads : len ≠ 0 → state.reads = none ∧ position offset file + len ≤ state.contents.length

/-- A request can be answered, as far as its own file goes. -/
def Answerable (state : FileState) (file : LocalFile Path) : FileContentsRequest → Prop
  | .size _ _ => True
  | .range _ _ offset length =>
      offset ≤ file.size ∧ (readSize file.size offset length).toNat < 2 ^ 63
        ∧ Readable state (readSize file.size offset length).toNat offset file

/-- The answer to a request: the size of the file, or its bytes from the position on. -/
def answerFrom (state : FileState) (start : ℕ) (file : LocalFile Path) :
    FileContentsRequest → ClipboardFile
  | .size streamId _ => .fileContentsResponse 0x1 streamId (leBytes 8 file.size.toNat)
  | .range streamId _ offset length =>
      .fileContentsResponse 0x1 streamId
        ((state.contents.drop start).take (readSize file.size offset length).toNat)

/-- Why a file has no reader and gets none. -/
def openError (fs : Path → FileState) (file : LocalFile Path) : Option CliprdrError :=
  if file.handle.isSome then none
  else
    ((fs file.path).opens <|> (fs file.path).fills).map
      (.FileError (names.toStringLossy file.path))

/-- Why the first regular file of a list gets no reader. -/
def nextError (fs : Path → FileState) (files : List (LocalFile Path)) : Option CliprdrError :=
  (files.find? (!·.isDir)).bind (names.openError fs)

variable {names} {fs fs' : Path → FileState} {connId : BitVec 32} {file : LocalFile Path}

theorem readExact_ok_iff {state : FileState} {start : ℕ} {bytes : Bytes} :
  state.readExact start len = .ok bytes ↔
    (len ≠ 0 → state.reads = none ∧ start + len ≤ state.contents.length)
      ∧ bytes = (state.contents.drop start).take len
  := by
  rw [FileState.readExact]
  by_cases hempty : len = 0
  · simp [hempty, eq_comm]
  · rw [if_neg hempty]
    cases state.reads with
    | some e => simp [hempty]
    | none =>
        dsimp only
        split_ifs with hlen
        · simp [hlen, eq_comm]
        · simp [hlen, hempty]

/-- The reader is brought to the offset, and reads. -/
theorem readFrom_ok_iff {state : FileState} {offset : BitVec 64} {start : ℕ} {r : ℕ × Bytes} :
  readFrom state len offset start file = .ok r ↔
    (offset ≠ file.offset → state.seeks offset = none)
      ∧ ∃ first, first = (if offset ≠ file.offset then offset.toNat else start)
      ∧ (len ≠ 0 → state.reads = none ∧ first + len ≤ state.contents.length)
      ∧ r = (first + len, (state.contents.drop first).take len)
  := by
  have hmap {first : ℕ} : (state.readExact first len).map (first + len, ·) = .ok r ↔
      (len ≠ 0 → state.reads = none ∧ first + len ≤ state.contents.length)
        ∧ r = (first + len, (state.contents.drop first).take len) := by
    cases hread : state.readExact first len with
    | error e =>
        have hnot (bytes : Bytes) : state.readExact first len ≠ .ok bytes := by
          rw [hread]
          nofun
        constructor
        · nofun
        · rintro ⟨hok, -⟩
          exact (hnot _ (readExact_ok_iff.mpr ⟨hok, rfl⟩)).elim
    | ok bytes =>
        obtain ⟨hok, rfl⟩ := readExact_ok_iff.mp hread
        rw [Except.map, Except.ok.injEq, eq_comm]
        exact (and_iff_right hok).symm
  rw [readFrom]
  split_ifs with hoffset
  · cases hseek : state.seeks offset with
    | some e => simp [hoffset]
    | none =>
        dsimp only
        rw [hmap]
        simp
  · rw [hmap]
    simp [hoffset]

/-- A file that is no directory and has no reader is opened. -/
theorem loadHandle_ok_iff {file' : LocalFile Path} :
  names.loadHandle fs file = .ok file' ↔
    if file.isDir = false ∧ file.handle = none then
      ((fs file.path).opens = none ∧ (fs file.path).fills = none)
        ∧ file' = { file with handle := some 0 }
    else file' = file
  := by
  rw [loadHandle]
  simp only [Bool.and_eq_true, Bool.not_eq_true', Option.isNone_iff_eq_none]
  split_ifs with hload
  · cases (fs file.path).opens with
    | some err => simp
    | none =>
        cases (fs file.path).fills with
        | some err => simp
        | none => simp [eq_comm]
  · simp [eq_comm]

/-- A regular file is not opened for the reason it gets no reader. -/
theorem loadHandle_error_iff {err : CliprdrError} (hdir : file.isDir = false) :
  names.loadHandle fs file = .error err ↔ names.openError fs file = some err
  := by
  rw [loadHandle, openError]
  cases hhandle : file.handle with
  | some start => simp
  | none =>
      cases (fs file.path).opens with
      | some e => simp [hdir]
      | none => cases (fs file.path).fills <;> simp [hdir]

/-- A file whose reader is there once it is loaded is read by the reader. -/
theorem readExactAt_of_loaded {offset : BitVec 64} {bytes : Bytes} {loaded : LocalFile Path}
    {start : ℕ} (hload : names.loadHandle fs file = .ok loaded)
    (hhandle : loaded.handle = some start) :
  (names.readExactAt fs len offset file).1 = .ok bytes ↔
    ∃ last, readFrom (fs loaded.path) len offset start loaded = .ok (last, bytes)
  := by
  rw [readExactAt]
  rw [hload]
  dsimp only
  rw [hhandle]
  dsimp only
  cases readFrom (fs loaded.path) len offset start loaded with
  | error err => simp
  | ok r =>
      obtain ⟨last, read⟩ := r
      dsimp only
      split_ifs <;> simp

/-- A file is read when it can be. -/
theorem readExactAt_ok_iff {offset : BitVec 64} {bytes : Bytes} :
  (names.readExactAt fs len offset file).1 = .ok bytes ↔
    Readable (fs file.path) len offset file
      ∧ bytes = ((fs file.path).contents.drop (position offset file)).take len
  := by
  have hread (start : ℕ) (hstart : start = file.handle.getD 0) :
      (∃ last, readFrom (fs file.path) len offset start { file with handle := some start }
          = .ok (last, bytes)) ↔
        ((offset ≠ file.offset → (fs file.path).seeks offset = none)
          ∧ (len ≠ 0 → (fs file.path).reads = none
            ∧ position offset file + len ≤ (fs file.path).contents.length))
        ∧ bytes = ((fs file.path).contents.drop (position offset file)).take len := by
    simp only [readFrom_ok_iff, position, hstart, Prod.mk.injEq, exists_eq_left, and_assoc]
    simp
  cases hhandle : file.handle with
  | some start =>
      have hload : names.loadHandle fs file = .ok file := by
        rw [loadHandle_ok_iff, if_neg (by simp [hhandle])]
      have hsame : { file with handle := some start } = file := by
        rw [← hhandle]
      have hstart : start = file.handle.getD 0 := by
        rw [hhandle]
        rfl
      have hfrom := hread start hstart
      rw [hsame] at hfrom
      rw [readExactAt_of_loaded hload hhandle, hfrom]
      constructor
      · rintro ⟨⟨hseeks, hreads⟩, hbytes⟩
        refine ⟨⟨?_, hseeks, hreads⟩, hbytes⟩
        rw [hhandle]
        nofun
      · rintro ⟨⟨-, hseeks, hreads⟩, hbytes⟩
        exact ⟨⟨hseeks, hreads⟩, hbytes⟩
  | none =>
      by_cases hopens : file.isDir = false ∧ (fs file.path).opens = none ∧ (fs file.path).fills = none
      · have hload : names.loadHandle fs file = .ok { file with handle := some 0 } := by
          rw [loadHandle_ok_iff, if_pos ⟨hopens.1, hhandle⟩]
          exact ⟨hopens.2, rfl⟩
        have hstart : 0 = file.handle.getD 0 := by
          rw [hhandle]
          rfl
        have hfrom := hread 0 hstart
        rw [readExactAt_of_loaded hload rfl, hfrom]
        constructor
        · rintro ⟨⟨hseeks, hreads⟩, hbytes⟩
          exact ⟨⟨fun _ => hopens, hseeks, hreads⟩, hbytes⟩
        · rintro ⟨⟨-, hseeks, hreads⟩, hbytes⟩
          exact ⟨⟨hseeks, hreads⟩, hbytes⟩
      · constructor
        · intro h
          exfalso
          rw [readExactAt] at h
          cases hload : names.loadHandle fs file with
          | error err =>
              rw [hload] at h
              cases h
          | ok loaded =>
              have hloaded := loadHandle_ok_iff.mp hload
              split_ifs at hloaded with hdir
              · exact hopens ⟨hdir.1, hloaded.1⟩
              · rw [hload, hloaded] at h
                dsimp only at h
                rw [hhandle] at h
                cases h
        · rintro ⟨hreadable, -⟩
          exact (hopens (hreadable.opens hhandle)).elim

/-- A request is answered when it can be: with the size of the file, or with what is read of it. -/
theorem respond_ok_iff {resp : ClipboardFile} :
  (names.respond fs connId file request).1 = some (.ok resp) ↔
    Answerable (fs file.path) file request
      ∧ resp = answerFrom (fs file.path) (position request.offset file) file request
  := by
  cases request with
  | size streamId fileIdx => simp [respond, Answerable, answerFrom, eq_comm]
  | range streamId fileIdx offset length =>
      rw [respond, Answerable, answerFrom, FileContentsRequest.offset]
      dsimp only
      split_ifs with hoffset hlen
      · have hnot : ¬ offset ≤ file.size := by
          rw [BitVec.not_le]
          exact hoffset
        simp [hnot]
      · constructor
        · nofun
        · rintro ⟨⟨-, hlt, -⟩, -⟩
          omega
      · have hle : offset ≤ file.size := BitVec.not_lt.mp hoffset
        have hlt : (readSize file.size offset length).toNat < 2 ^ 63 := by omega
        simp only [Option.some.injEq]
        constructor
        · intro h
          cases hread : (names.readExactAt fs (readSize file.size offset length).toNat offset
              file).1 with
          | error err =>
              rw [hread] at h
              cases h
          | ok bytes =>
              obtain ⟨hreadable, hbytes⟩ := readExactAt_ok_iff.mp hread
              rw [hread] at h
              cases h
              rw [hbytes]
              exact ⟨⟨hle, hlt, hreadable⟩, rfl⟩
        · rintro ⟨⟨-, -, hreadable⟩, rfl⟩
          rw [readExactAt_ok_iff.mpr ⟨hreadable, rfl⟩, Except.map]

/-- The next file is the first regular one. -/
theorem hotReload_error_iff {files : List (LocalFile Path)} {err : CliprdrError} :
  names.hotReload fs files = .error err ↔ names.nextError fs files = some err
  := by
  induction files with
  | nil => simp [hotReload, nextError]
  | cons nextFile rest ih =>
      rw [hotReload, nextError]
      cases hdir : nextFile.isDir with
      | false =>
          rw [List.find?_cons_of_pos (by simp [hdir]), Option.bind_some]
          rw [← loadHandle_error_iff hdir]
          cases names.loadHandle fs nextFile <;> simp [Except.map]
      | true =>
          rw [List.find?_cons_of_neg (by simp [hdir])]
          change _ ↔ names.nextError fs rest = some err
          rw [← ih]
          cases names.hotReload fs rest <;> simp [Except.map]

/-- What a request for a file of the list is answered: what the file answers, unless the next file
does not open. -/
theorem serveFileContents_result (hfile : self.fileList[request.fileIdx.toNat]? = some file) :
  (names.serveFileContents fs connId request self).1
    = match (names.respond fs connId file request).1,
          names.nextError fs (self.fileList.drop (request.fileIdx.toNat + 1)) with
      | some (.ok _), some err => some (.error err)
      | result, _ => result
  := by
  have hdrop {r : LocalFile Path} :
      (self.fileList.set request.fileIdx.toNat r).drop (request.fileIdx.toNat + 1)
        = self.fileList.drop (request.fileIdx.toNat + 1) := by
    rw [List.drop_set_of_lt (by omega)]
  rw [serveFileContents]
  dsimp only
  rw [hfile]
  dsimp only
  rw [hdrop]
  split
  · rename_i resp hresp
    rw [hresp]
    cases hreload : names.hotReload fs (self.fileList.drop (request.fileIdx.toNat + 1)) with
    | error err =>
        rw [hotReload_error_iff.mp hreload]
    | ok rest =>
        cases hnext : names.nextError fs (self.fileList.drop (request.fileIdx.toNat + 1)) with
        | none => rfl
        | some err =>
            rw [hotReload_error_iff.mpr hnext] at hreload
            cases hreload
  · rename_i result hresult
    split
    · rename_i resp err hok _
      exact (hresult resp hok).elim
    · rfl

theorem loadHandle_congr (hstate : fs file.path = fs' file.path) :
  names.loadHandle fs file = names.loadHandle fs' file
  := by
  rw [loadHandle, loadHandle, hstate]

/-- What a file answers depends on the file alone. -/
theorem respond_congr (hstate : fs file.path = fs' file.path) :
  names.respond fs connId file request = names.respond fs' connId file request
  := by
  have hread (len : ℕ) (offset : BitVec 64) :
      names.readExactAt fs len offset file = names.readExactAt fs' len offset file := by
    rw [readExactAt, readExactAt, loadHandle_congr hstate]
    cases hload : names.loadHandle fs' file with
    | error err => rfl
    | ok loaded =>
        have hpath : loaded.path = file.path := by
          have hloaded := loadHandle_ok_iff.mp hload
          split_ifs at hloaded
          · rw [hloaded.2]
          · rw [hloaded]
        dsimp only
        rw [hpath, hstate]
  cases request with
  | size streamId fileIdx => rfl
  | range streamId fileIdx offset length => simp only [respond, hread]

/-- A request that its file answers is answered with that, or with the error of the next file. -/
theorem serveFileContents_of_answerable
    (hfile : self.fileList[request.fileIdx.toNat]? = some file)
    (hanswer : Answerable (fs file.path) file request) :
  (names.serveFileContents fs connId request self).1
    = some (((names.nextError fs (self.fileList.drop (request.fileIdx.toNat + 1))).map
        Except.error).getD
      (.ok (answerFrom (fs file.path) (position request.offset file) file request)))
  := by
  rw [serveFileContents_result hfile, respond_ok_iff.mpr ⟨hanswer, rfl⟩]
  cases names.nextError fs (self.fileList.drop (request.fileIdx.toNat + 1)) <;> rfl

/-- A request that its file does not answer fails as the file does. -/
theorem serveFileContents_of_not_answerable
    (hfile : self.fileList[request.fileIdx.toNat]? = some file)
    (hanswer : ¬ Answerable (fs file.path) file request) :
  (names.serveFileContents fs connId request self).1 = (names.respond fs connId file request).1
  := by
  rw [serveFileContents_result hfile]
  split
  · rename_i resp err hok _
    exact (hanswer (respond_ok_iff.mp hok).1).elim
  · rfl

/-! ### The reader is where it is taken to be -/

/-- The reader of a file stands at the recorded offset, which is zero without a reader. -/
def Coherent (file : LocalFile Path) : Prop :=
  file.offset.toNat = file.handle.getD 0

/-- A coherent file is read from the requested offset. -/
theorem Coherent.position {offset : BitVec 64} (h : Coherent file) :
  position offset file = offset.toNat
  := by
  rw [Names.position]
  split_ifs with hoffset
  · rfl
  · rw [not_not.mp hoffset, h]

/-- A listed file is coherent. -/
theorem coherent_of_tryOpen {relativeRoot path : Path} {metadata : Except IoError Metadata}
    (h : names.tryOpen relativeRoot path metadata = .ok file) :
  Coherent file
  := by
  rw [tryOpen] at h
  cases hname : names.validatedDescriptorName relativeRoot path with
  | error err =>
      rw [hname] at h
      cases h
  | ok descriptorName =>
      rw [hname] at h
      cases metadata with
      | error e => cases h
      | ok mt =>
          cases h
          rfl

/-- Loading a coherent file leaves it coherent. -/
theorem Coherent.loadHandle {file' : LocalFile Path} (h : Coherent file)
    (hload : names.loadHandle fs file = .ok file') :
  Coherent file'
  := by
  have hloaded := loadHandle_ok_iff.mp hload
  split_ifs at hloaded with hdir
  · rw [hloaded.2]
    rw [Coherent] at h ⊢
    rw [h, hdir.2]
    rfl
  · rw [hloaded]
    exact h

/-- Reading a coherent file leaves it coherent: the reader stands behind what was read. -/
theorem Coherent.readExactAt {offset : BitVec 64} (h : Coherent file)
    (hsize : ∀ path, (fs path).contents.length < 2 ^ 64) :
  Coherent (names.readExactAt fs len offset file).2
  := by
  rw [Names.readExactAt]
  cases hload : names.loadHandle fs file with
  | error err => exact h
  | ok loaded =>
      have hloaded := h.loadHandle hload
      dsimp only
      cases hhandle : loaded.handle with
      | none => exact hloaded
      | some start =>
          dsimp only
          cases hread : readFrom (fs loaded.path) len offset start loaded with
          | error err => rfl
          | ok r =>
              obtain ⟨-, first, hfirst, hholds, rfl⟩ := readFrom_ok_iff.mp hread
              have hstart : first = offset.toNat := by
                have hposition : Names.position offset loaded = offset.toNat := hloaded.position
                rw [Names.position] at hposition
                rw [hhandle] at hposition
                rw [hfirst]
                exact hposition
              have hlt : first + len < 2 ^ 64 := by
                by_cases hempty : len = 0
                · rw [hempty, hstart]
                  exact offset.isLt
                · exact (hholds hempty).2.trans_lt (hsize loaded.path)
              dsimp only
              split_ifs
              · rfl
              · change (offset + BitVec.ofNat 64 len).toNat = first + len
                rw [BitVec.toNat_add, BitVec.toNat_ofNat, Nat.add_mod_mod, ← hstart,
                  Nat.mod_eq_of_lt hlt]

/-- Answering leaves a coherent file coherent. -/
theorem Coherent.respond (h : Coherent file) (hsize : ∀ path, (fs path).contents.length < 2 ^ 64) :
  Coherent (names.respond fs connId file request).2
  := by
  cases request with
  | size streamId fileIdx => exact h
  | range streamId fileIdx offset length =>
      rw [Names.respond]
      dsimp only
      split_ifs
      · exact h
      · exact h
      · exact h.readExactAt hsize

/-- Opening the next file leaves the files coherent. -/
theorem coherent_of_hotReload {files files' : List (LocalFile Path)}
    (h : ∀ file ∈ files, Coherent file) (hreload : names.hotReload fs files = .ok files') :
  ∀ file ∈ files', Coherent file
  := by
  induction files generalizing files' with
  | nil =>
      cases hreload
      exact h
  | cons nextFile rest ih =>
      rw [List.forall_mem_cons] at h
      rw [hotReload] at hreload
      split_ifs at hreload
      · cases hload : names.loadHandle fs nextFile with
        | error err =>
            rw [hload] at hreload
            cases hreload
        | ok loaded =>
            rw [hload] at hreload
            cases hreload
            rw [List.forall_mem_cons]
            exact ⟨h.1.loadHandle hload, h.2⟩
      · cases hrest : names.hotReload fs rest with
        | error err =>
            rw [hrest] at hreload
            cases hreload
        | ok rest' =>
            rw [hrest] at hreload
            cases hreload
            rw [List.forall_mem_cons]
            exact ⟨h.1, ih h.2 hrest⟩

/-- Serving a request leaves the files coherent. -/
theorem coherent_of_serve (hsize : ∀ path, (fs path).contents.length < 2 ^ 64)
    (h : ∀ file ∈ self.fileList, Coherent file) :
  ∀ file ∈ (names.serveFileContents fs connId request self).2.fileList, Coherent file
  := by
  rw [serveFileContents]
  dsimp only
  cases hfile : self.fileList[request.fileIdx.toNat]? with
  | none => exact h
  | some file =>
      have hset : ∀ f ∈ self.fileList.set request.fileIdx.toNat
          (names.respond fs connId file request).2, Coherent f := by
        intro f hf
        rcases List.mem_or_eq_of_mem_set hf with hf | rfl
        · exact h f hf
        · exact (h file (List.mem_of_getElem? hfile)).respond hsize
      dsimp only
      split
      · cases hreload : names.hotReload fs ((self.fileList.set request.fileIdx.toNat
            (names.respond fs connId file request).2).drop (request.fileIdx.toNat + 1)) with
        | error err => exact hset
        | ok rest =>
            intro f hf
            rcases List.mem_append.mp hf with hf | hf
            · exact hset f (List.mem_of_mem_take hf)
            · exact coherent_of_hotReload (fun g hg => hset g (List.mem_of_mem_drop hg)) hreload f hf
      · exact hset

/-! ### What a request is answered depends on the following files -/

/-- Over two lists with the same file at the requested index, a request is answered alike exactly
when its own file cannot answer it, or the first regular files behind it fail to open for the same
reason, if they do; and a request that its file can answer is answered with the bytes of that file
exactly when the first regular file behind it opens. -/
theorem serve_eq_iff {self self' : ClipFiles Path} {request : FileContentsRequest}
    (hentry : self.fileList[request.fileIdx.toNat]? = self'.fileList[request.fileIdx.toNat]?)
    (hstate : ∀ file ∈ self.fileList[request.fileIdx.toNat]?, fs file.path = fs' file.path) :
  ((names.serveFileContents fs connId request self).1
      = (names.serveFileContents fs' connId request self').1
    ↔ ∀ file ∈ self.fileList[request.fileIdx.toNat]?, Answerable (fs file.path) file request →
      names.nextError fs (self.fileList.drop (request.fileIdx.toNat + 1))
        = names.nextError fs' (self'.fileList.drop (request.fileIdx.toNat + 1)))
  ∧ ∀ file ∈ self.fileList[request.fileIdx.toNat]?, Coherent file →
    Answerable (fs file.path) file request →
      ((names.serveFileContents fs connId request self).1
          = some (.ok (answerFrom (fs file.path) request.offset.toNat file request))
        ↔ names.nextError fs (self.fileList.drop (request.fileIdx.toNat + 1)) = none)
  := by
  cases hfile : self.fileList[request.fileIdx.toNat]? with
  | none =>
      rw [hfile] at hentry
      constructor
      · simp [serveFileContents, hfile, ← hentry]
      · nofun
  | some file =>
      rw [hfile] at hentry hstate
      have hsame := hstate file rfl
      simp only [Option.mem_some_iff, forall_eq']
      constructor
      · by_cases hanswer : Answerable (fs file.path) file request
        · have hanswer' := hanswer
          rw [hsame] at hanswer'
          rw [serveFileContents_of_answerable hfile hanswer,
            serveFileContents_of_answerable hentry.symm hanswer', hsame]
          cases names.nextError fs (self.fileList.drop (request.fileIdx.toNat + 1)) <;>
            cases names.nextError fs' (self'.fileList.drop (request.fileIdx.toNat + 1)) <;>
            simp [hanswer']
        · have hanswer' := hanswer
          rw [hsame] at hanswer'
          rw [serveFileContents_of_not_answerable hfile hanswer,
            serveFileContents_of_not_answerable hentry.symm hanswer', respond_congr hsame]
          simp [hanswer]
      · intro hcoherent hanswer
        rw [serveFileContents_of_answerable hfile hanswer, hcoherent.position]
        cases names.nextError fs (self.fileList.drop (request.fileIdx.toNat + 1)) <;> simp

/-- A regular file of three bytes below the root that is not open. -/
def smallFile (name : List Char) : LocalFile (List Char) where
  path := '/' :: name
  handle := none
  offset := 0
  name := String.ofList name
  descriptorName := String.ofList name
  size := 3
  lastWriteTime := 0
  isDir := false
  perm := 0o644
  readOnly := false
  hidden := false
  system := false
  archive := false
  normal := true

/-- The files at two paths, of which the second one may not be opened. -/
def secondDenied (path : List Char) : FileState where
  opens := if path = "/b".toList then some (.os 13) else none
  contents := [1, 2, 3]

/-- What stands behind the file is of no matter as long as it may be opened: nothing in one list, and
another file in the other. -/
theorem serve_eq_readable :
  let alone : ClipFiles (List Char) := { fileList := [smallFile "a".toList] }
  let followed : ClipFiles (List Char) :=
    { fileList := [smallFile "a".toList, smallFile "c".toList] }
  (unixNames.serveFileContents secondDenied 7 (.range 5 0 1 2) alone).1
      = (unixNames.serveFileContents secondDenied 7 (.range 5 0 1 2) followed).1
    ∧ (unixNames.serveFileContents secondDenied 7 (.range 5 0 1 2) followed).1
      = some (.ok (.fileContentsResponse 1 5 [2, 3]))
  := by
  have hiff := @serve_eq_iff _ unixNames secondDenied secondDenied 7
    { fileList := [smallFile "a".toList, smallFile "c".toList] }
    { fileList := [smallFile "a".toList] } (.range 5 0 1 2) rfl fun _ _ => rfl
  have hanswer : Answerable (secondDenied (smallFile "a".toList).path) (smallFile "a".toList)
      (.range 5 0 1 2) :=
    ⟨by decide, by decide, ⟨fun _ => by decide, fun _ => rfl, fun _ => by decide⟩⟩
  constructor
  · apply (hiff.1.mpr _).symm
    intro _ _ _
    decide
  · apply (hiff.2 (smallFile "a".toList) rfl rfl hanswer).mpr
    decide

/-- A readable file is not served because the next one may not be opened. -/
theorem not_serve_eq :
  ¬ ∀ (names : Names (List Char)) (fs fs' : List Char → FileState) (connId : BitVec 32)
      (self self' : ClipFiles (List Char)) (request : FileContentsRequest),
    self.fileList[request.fileIdx.toNat]? = self'.fileList[request.fileIdx.toNat]? →
    (∀ file ∈ self.fileList[request.fileIdx.toNat]?, fs file.path = fs' file.path) →
    (names.serveFileContents fs connId request self).1
      = (names.serveFileContents fs' connId request self').1
  := by
  intro h
  have hsame := h unixNames secondDenied secondDenied 7 { fileList := [smallFile "a".toList] }
    { fileList := [smallFile "a".toList, smallFile "b".toList] } (.range 5 0 1 2) rfl
    (fun _ _ => rfl)
  revert hsame
  decide +kernel

end Names

end VynxDesk.Clipboard
