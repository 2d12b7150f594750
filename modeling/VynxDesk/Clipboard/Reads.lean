import VynxDesk.Clipboard.Serve
import VynxDesk.Lib.Run

/-!
# What is read of the files of the clipboard

The reader of a `LocalFile` is kept between the calls and seeks only when it is not known to be
where it should: of a file that does not change every read is a plain read all the same
(`Names.reads_of_run`).  What a request has read of its file is what the file has of the range it
asks for, and nothing wraps around or is allocated beyond the file, exactly when the end of the
range is a number of 64 bits (`Names.exact_iff`).
-/

namespace VynxDesk.Clipboard

/-! ### The reader that is kept -/

/-- What is done with a file. -/
inductive FileCall where
  | loadHandle
  | readExactAt (len : ℕ) (offset : BitVec 64)
  deriving DecidableEq, Repr

/-- An addition or a subtraction of two numbers of 64 bits. -/
inductive Operation where
  | add (a b : BitVec 64)
  | sub (a b : BitVec 64)
  deriving DecidableEq, Repr

/-- The result is no number of 64 bits. -/
def Operation.Overflows : Operation → Prop
  | .add a b => 2 ^ 64 ≤ a.toNat + b.toNat
  | .sub a b => a.toNat < b.toNat

/-- What a call computes, in its order, and the size of the buffer it allocates, if it does. -/
structure Work where
  operations : List Operation := []
  buffer : Option ℕ := none
  deriving DecidableEq, Repr

namespace Names

variable {Path : Type} (names : Names Path)

/-- A call, with what the file system does with the file meanwhile: the state it leaves the file in.
-/
def afterCall (file : LocalFile Path) (state : FileState) : FileCall → LocalFile Path
  | .loadHandle =>
      match names.loadHandle (fun _ => state) file with
      | .ok loaded => loaded
      | .error _ => file
  | .readExactAt len offset => (names.readExactAt (fun _ => state) len offset file).2

/-- A call while the file has these contents. -/
def Calls (content : Bytes) (file : LocalFile Path) (i : FileState × FileCall)
    (file' : LocalFile Path) : Prop :=
  i.1.contents = content ∧ names.afterCall file i.1 i.2 = file'

variable {names} {content : Bytes}

/-- Every call leaves the reader where the file says. -/
theorem Coherent.afterCall {file : LocalFile Path} {state : FileState} (h : Coherent file)
    (hsize : state.contents.length < 2 ^ 64) (call : FileCall) :
  Coherent (names.afterCall file state call)
  := by
  cases call with
  | loadHandle =>
      rw [Names.afterCall]
      cases hload : names.loadHandle (fun _ => state) file with
      | ok loaded => apply h.loadHandle hload
      | error err => exact h
  | readExactAt len offset =>
      rw [Names.afterCall]
      apply h.readExactAt
      intro _
      exact hsize

/-- A read of a coherent file that succeeds is a plain read. -/
theorem Coherent.read {file : LocalFile Path} {state : FileState} {len : ℕ} {offset : BitVec 64}
    {bytes : Bytes} (h : Coherent file)
    (hread : (names.readExactAt (fun _ => state) len offset file).1 = .ok bytes) :
  bytes = (state.contents.drop offset.toNat).take len ∧ bytes.length = len
  := by
  obtain ⟨hreadable, hbytes⟩ := readExactAt_ok_iff.mp hread
  rw [h.position] at hbytes
  refine ⟨hbytes, ?_⟩
  by_cases hempty : len = 0
  · rw [hbytes, hempty]
    rfl
  · have hwithin := (hreadable.reads hempty).2
    rw [h.position] at hwithin
    rw [hbytes, List.length_take, List.length_drop]
    omega

/-- Whatever is done with a file that does not change, every read that succeeds is a plain read. -/
theorem reads_of_run {relativeRoot path : Path} {metadata : Except IoError Metadata}
    {file file' : LocalFile Path} {h : List (LocalFile Path × FileState × FileCall)}
    (hopen : names.tryOpen relativeRoot path metadata = .ok file)
    (hsize : content.length < 2 ^ 64) (hrun : Run (names.Calls content) file h file') :
  ∀ x ∈ h, ∀ len offset, x.2.2 = .readExactAt len offset →
    ∀ bytes, (names.readExactAt (fun _ => x.2.1) len offset x.1).1 = .ok bytes →
      bytes = (content.drop offset.toNat).take len ∧ bytes.length = len
  := by
  have hcoherent : (∀ x ∈ h, Coherent x.1 ∧ x.2.1.contents = content) ∧ Coherent file' := by
    apply hrun.history_invariant
      (fun h file' => (∀ x ∈ h, Coherent x.1 ∧ x.2.1.contents = content) ∧ Coherent file')
    · exact ⟨List.forall_mem_nil _, coherent_of_tryOpen hopen⟩
    · rintro h file ⟨state, call⟩ file' - ⟨hbefore, hfile⟩ ⟨hcontents, rfl⟩
      constructor
      · rw [List.forall_mem_append, List.forall_mem_singleton]
        exact ⟨hbefore, hfile, hcontents⟩
      · apply hfile.afterCall
        rw [hcontents]
        exact hsize
  rintro x hx len offset - bytes hread
  obtain ⟨hfile, hcontents⟩ := hcoherent.1 x hx
  rw [← hcontents]
  apply hfile.read hread

/-- A file of three bytes that opens and is read. -/
def threeBytes : FileState where
  contents := [1, 2, 3]

/-- The second byte is read without a seek. -/
theorem reads_skipped :
  (unixNames.readExactAt (fun _ => threeBytes) 1 1
      (unixNames.afterCall (smallFile "a".toList) threeBytes (.readExactAt 1 0))).1 = .ok [2] ∧
    [2] = (threeBytes.contents.drop 1).take 1
  := by
  have hopen : unixNames.tryOpen "/".toList "/a".toList
      (.ok ⟨3, false, false, none, 0o644⟩) = .ok (smallFile "a".toList) := by
    decide +kernel
  have hrun : Run (unixNames.Calls [1, 2, 3]) (smallFile "a".toList)
      [(smallFile "a".toList, threeBytes, .readExactAt 1 0),
        (unixNames.afterCall (smallFile "a".toList) threeBytes (.readExactAt 1 0), threeBytes,
          .readExactAt 1 1)] _ :=
    (Run.nil.snoc ⟨rfl, rfl⟩).snoc ⟨rfl, rfl⟩
  have hread : (unixNames.readExactAt (fun _ => threeBytes) 1 1
      (unixNames.afterCall (smallFile "a".toList) threeBytes (.readExactAt 1 0))).1 = .ok [2] := by
    decide +kernel
  use hread
  apply (reads_of_run hopen (by decide) hrun _ (List.mem_of_getLast? rfl) 1 1 rfl [2] hread).1

/-! ### What a request has read -/

variable (names)

/-- What a file computes and allocates to answer a request. -/
def respondWork (fs : Path → FileState) (connId : BitVec 32) (file : LocalFile Path) :
    FileContentsRequest → Work
  | .size _ _ => {}
  | .range streamId fileIdx offset length =>
      if file.size < offset then {}
      else
        let len := readSize file.size offset length
        let resp := (names.respond fs connId file (.range streamId fileIdx offset length)).1
        { operations :=
            .add offset length
              :: (if file.size < offset + length then [.sub file.size offset] else [])
              ++ (if resp matches some (.ok _) then [.add offset len] else [])
          buffer := some len.toNat }

/-- What `serve_file_contents` computes and allocates. -/
def serveWork (fs : Path → FileState) (connId : BitVec 32) (request : FileContentsRequest)
    (self : ClipFiles Path) : Work :=
  match self.fileList[request.fileIdx.toNat]? with
  | none => {}
  | some file =>
      let work := names.respondWork fs connId file request
      match (names.respond fs connId file request).1 with
      | some (.ok _) =>
          { work with operations := work.operations ++ [.add request.fileIdx 1] }
      | _ => work

/-- What `read_file_contents` computes and allocates. -/
def readWork (fs : Path → FileState) (connId streamId listIndex dwFlags nPositionLow nPositionHigh
    cbRequested : BitVec 32) (self : ClipFiles Path) : Work :=
  match FileContentsRequest.ofFields streamId listIndex dwFlags nPositionLow nPositionHigh
    cbRequested with
  | .error _ => {}
  | .ok fcr => names.serveWork fs connId fcr self

/-- How much of a range a file of this size has. -/
def available (size offset length : BitVec 64) : ℕ := min length.toNat (size.toNat - offset.toNat)

/-- A call of `read_file_contents` does not overflow, allocates no more than the file's size, and
reads of a range what the file has of it. -/
structure Exact (fs : Path → FileState) (isFile : Path → Bool) (connId streamId listIndex dwFlags
    nPositionLow nPositionHigh cbRequested : BitVec 32) (files : ClipFiles Path) : Prop where
  arithmetic : ∀ operation ∈ (names.readWork fs connId streamId listIndex dwFlags nPositionLow
    nPositionHigh cbRequested files).operations, ¬ operation.Overflows
  buffer : ∀ stream fileIdx offset length,
    FileContentsRequest.ofFields streamId listIndex dwFlags nPositionLow nPositionHigh cbRequested
      = .ok (.range stream fileIdx offset length) →
    ∀ file ∈ files.fileList[fileIdx.toNat]?, ∀ size ∈ (names.readWork fs connId streamId listIndex
        dwFlags nPositionLow nPositionHigh cbRequested files).buffer,
      size ≤ file.size.toNat ∧ size = available file.size offset length
  answer : ∀ stream fileIdx offset length,
    FileContentsRequest.ofFields streamId listIndex dwFlags nPositionLow nPositionHigh cbRequested
      = .ok (.range stream fileIdx offset length) →
    ∀ file ∈ files.fileList[fileIdx.toNat]?, ∀ results ∈ (names.readFileContents fs isFile connId
        streamId listIndex dwFlags nPositionLow nPositionHigh cbRequested files).1,
      ∀ msgFlags streamId' data, .ok (.fileContentsResponse msgFlags streamId' data) ∈ results →
        data.length = available file.size offset length

/-- The end of the range that is asked for is a number of 64 bits, or the offset is behind the end
of the file. -/
def EndsWithin (streamId listIndex dwFlags nPositionLow nPositionHigh cbRequested : BitVec 32)
    (self : ClipFiles Path) : Prop :=
  ∀ stream fileIdx offset length,
    FileContentsRequest.ofFields streamId listIndex dwFlags nPositionLow nPositionHigh cbRequested
      = .ok (.range stream fileIdx offset length) →
    ∀ file ∈ self.fileList[fileIdx.toNat]?, offset ≤ file.size →
      offset.toNat + length.toNat < 2 ^ 64

variable {names} {fs : Path → FileState} {isFile : Path → Bool}
  {connId streamId listIndex dwFlags nPositionLow nPositionHigh cbRequested : BitVec 32}
  {self : ClipFiles Path} {file : LocalFile Path}

/-- What is read of a range that ends within 64 bits is what the file has of it. -/
theorem readSize_toNat {size offset length : BitVec 64} (hoffset : offset ≤ size)
    (hend : offset.toNat + length.toNat < 2 ^ 64) :
  (readSize size offset length).toNat = available size offset length
  := by
  have hadd : (offset + length).toNat = offset.toNat + length.toNat :=
    BitVec.toNat_add_of_lt hend
  rw [BitVec.le_def] at hoffset
  rw [readSize, available]
  split_ifs with hmore
  · rw [BitVec.lt_def, hadd] at hmore
    rw [BitVec.toNat_sub_of_le hoffset]
    omega
  · rw [BitVec.lt_def, hadd] at hmore
    omega

/-- What a range is answered is as long as what is to be read. -/
theorem length_of_respond {stream : BitVec 32} {fileIdx offset length : BitVec 64}
    {resp : ClipboardFile}
    (h : (names.respond fs connId file (.range stream fileIdx offset length)).1
      = some (.ok resp)) :
  ∃ data, resp = .fileContentsResponse 1 stream data ∧
    data.length = (readSize file.size offset length).toNat
  := by
  obtain ⟨⟨-, -, hreadable⟩, rfl⟩ := respond_ok_iff.mp h
  refine ⟨_, rfl, ?_⟩
  rw [List.length_take, List.length_drop, FileContentsRequest.offset]
  by_cases hempty : (readSize file.size offset length).toNat = 0
  · omega
  · have hwithin := (hreadable.reads hempty).2
    omega

/-- A file that is asked for a range that ends within 64 bits computes no more than that, and
allocates what it has of the range. -/
theorem respondWork_of_end {stream : BitVec 32} {fileIdx offset length : BitVec 64}
    (hend : offset ≤ file.size → offset.toNat + length.toNat < 2 ^ 64) :
  (∀ operation ∈ (names.respondWork fs connId file
      (.range stream fileIdx offset length)).operations, ¬ operation.Overflows) ∧
    ∀ size ∈ (names.respondWork fs connId file (.range stream fileIdx offset length)).buffer,
      size ≤ file.size.toNat ∧ size = available file.size offset length
  := by
  rw [respondWork]
  by_cases hoffset : file.size < offset
  · rw [if_pos hoffset]
    exact ⟨List.forall_mem_nil _, nofun⟩
  · rw [if_neg hoffset]
    have hle : offset ≤ file.size := BitVec.not_lt.mp hoffset
    have hsize := readSize_toNat hle (hend hle)
    have hnat : offset.toNat ≤ file.size.toNat := BitVec.le_def.mp hle
    have havailable : available file.size offset length ≤ file.size.toNat - offset.toNat :=
      Nat.min_le_right _ _
    have hlt := file.size.isLt
    constructor
    · simp only [List.cons_append, List.forall_mem_cons, List.forall_mem_append]
      refine ⟨?_, ?_, ?_⟩
      · apply Nat.not_le_of_lt (hend hle)
      · split_ifs
        · rw [List.forall_mem_singleton]
          apply Nat.not_lt_of_le hnat
        · apply List.forall_mem_nil
      · split_ifs
        · rw [List.forall_mem_singleton, Operation.Overflows, hsize]
          omega
        · apply List.forall_mem_nil
    · intro size hmem
      rw [Option.mem_some] at hmem
      rw [← hmem, hsize]
      exact ⟨by omega, rfl⟩

/-- A request that is answered is answered by its file. -/
theorem respond_of_serve {request : FileContentsRequest} {resp : ClipboardFile}
    (hfile : self.fileList[request.fileIdx.toNat]? = some file)
    (h : (names.serveFileContents fs connId request self).1 = some (.ok resp)) :
  (names.respond fs connId file request).1 = some (.ok resp)
  := by
  rw [serveFileContents_result hfile] at h
  split at h
  · cases h
  · exact h

/-- What `read_file_contents` returns of a file is what the request is answered. -/
theorem serve_of_read {request : FileContentsRequest}
    {results : List (Except CliprdrError ClipboardFile)} {msgFlags stream : BitVec 32}
    {data : Bytes}
    (hfields : FileContentsRequest.ofFields streamId listIndex dwFlags nPositionLow nPositionHigh
      cbRequested = .ok request)
    (hresults : results ∈ (names.readFileContents fs isFile connId streamId listIndex dwFlags
      nPositionLow nPositionHigh cbRequested self).1)
    (hmem : .ok (.fileContentsResponse msgFlags stream data) ∈ results) :
  (names.serveFileContents fs connId request self).1
    = some (.ok (.fileContentsResponse msgFlags stream data))
  := by
  rw [readFileContents, hfields] at hresults
  obtain ⟨res, hres, rfl⟩ := Option.map_eq_some_iff.mp hresults
  rw [List.mem_append, List.mem_singleton] at hmem
  rcases hmem with haudit | rfl
  · obtain ⟨files, hfiles, heq⟩ := List.mem_map.mp haudit
    rw [Option.mem_toList, Except.ok.inj heq, getFilesForAudit.eq_def] at hfiles
    split at hfiles
    · dsimp only at hfiles
      split_ifs at hfiles
      cases hfiles
    · cases hfiles
  · exact hres

/-- A call of `read_file_contents` is exact exactly when the range ends within 64 bits. -/
theorem exact_iff (hlist : self.fileList.length < 2 ^ 64) :
  names.Exact fs isFile connId streamId listIndex dwFlags nPositionLow nPositionHigh cbRequested
      self
    ↔ EndsWithin streamId listIndex dwFlags nPositionLow nPositionHigh cbRequested self
  := by
  constructor
  · intro hexact stream fileIdx offset length hfields file hfile hoffset
    have hfirst : .add offset length ∈ (names.readWork fs connId streamId listIndex dwFlags
        nPositionLow nPositionHigh cbRequested self).operations := by
      have hwork : .add offset length ∈ (names.respondWork fs connId file
          (.range stream fileIdx offset length)).operations := by
        rw [respondWork, if_neg (BitVec.not_lt.mpr hoffset)]
        apply List.mem_cons_self
      rw [readWork, hfields]
      dsimp only
      rw [serveWork, FileContentsRequest.fileIdx, Option.mem_def.mp hfile]
      dsimp only
      split
      · apply List.mem_append_left _ hwork
      · exact hwork
    have h := hexact.arithmetic _ hfirst
    rw [Operation.Overflows] at h
    omega
  · intro hends
    constructor
    · rw [readWork]
      cases hfields : FileContentsRequest.ofFields streamId listIndex dwFlags nPositionLow
          nPositionHigh cbRequested with
      | error err => apply List.forall_mem_nil
      | ok request =>
          dsimp only
          rw [serveWork]
          cases hfile : self.fileList[request.fileIdx.toNat]? with
          | none => apply List.forall_mem_nil
          | some file =>
              have hindex : ¬ (Operation.add request.fileIdx 1).Overflows := by
                have hlt := (List.getElem?_eq_some_iff.mp hfile).1
                have hone : (1 : BitVec 64).toNat = 1 := rfl
                rw [Operation.Overflows, hone]
                omega
              have hwork : ∀ operation ∈ (names.respondWork fs connId file request).operations,
                  ¬ operation.Overflows := by
                cases request with
                | size => apply List.forall_mem_nil
                | range stream fileIdx offset length =>
                    apply (respondWork_of_end _).1
                    apply hends _ _ _ _ hfields file hfile
              dsimp only
              split
              · rw [List.forall_mem_append, List.forall_mem_singleton]
                exact ⟨hwork, hindex⟩
              · exact hwork
    · intro stream fileIdx offset length hfields file hfile
      rw [readWork, hfields]
      dsimp only
      rw [serveWork, FileContentsRequest.fileIdx, Option.mem_def.mp hfile]
      have hwork := hends stream fileIdx offset length hfields file hfile
      dsimp only
      split
      · apply (respondWork_of_end hwork).2
      · apply (respondWork_of_end hwork).2
    · intro stream fileIdx offset length hfields file hfile results hresults msgFlags stream' data
        hmem
      have hserve := serve_of_read hfields hresults hmem
      have hrespond := respond_of_serve (Option.mem_def.mp hfile) hserve
      have hoffset := (respond_ok_iff.mp hrespond).1.1
      obtain ⟨bytes, hbytes, hlength⟩ := length_of_respond hrespond
      cases hbytes
      have hend := hends stream fileIdx offset length hfields file hfile hoffset
      rw [hlength, readSize_toNat hoffset hend]

/-- Two bytes at offset 1 are read of a file of three. -/
theorem exact_small :
  unixNames.Exact secondDenied (fun _ => true) 7 5 0 2 1 0 2 { fileList := [smallFile "a".toList] }
  := by
  apply (exact_iff (by decide)).mpr
  intro stream fileIdx offset length hfields file hfile hoffset
  have hrange : FileContentsRequest.ofFields 5 0 2 1 0 2 = .ok (.range 5 0 1 2) := rfl
  rw [hrange] at hfields
  cases hfields
  decide

/-- A length of -1 at offset 1 wraps around: the end of the range is offset 0. -/
theorem not_exact :
  ¬ unixNames.Exact secondDenied (fun _ => true) 7 5 0 2 1 0 0xFFFFFFFF
    { fileList := [smallFile "a".toList] }
  := by
  intro hexact
  have hends := (exact_iff (by decide)).mp hexact 5 0 1 0xFFFFFFFFFFFFFFFF rfl _ rfl (by decide)
  revert hends
  decide

end Names

end VynxDesk.Clipboard
