import VynxDesk.Clipboard.Descriptor

/-!
# Caching the files of the clipboard

`sync_files` of `platform/unix/serv_files.rs` lists the selected files and the directories below
them, caches the list in two steps, and skips this while the selection looks the same.  What the
file system answers during a call is an argument: the visit of a path is a tree of answers
(`Answers`).
-/

namespace VynxDesk.Clipboard

mutual

/-- What the file system answers during the visit of a path: `metadata` in `try_open` and after it,
and `read_dir` with the entries it goes through. -/
inductive Answers (Path : Type) where
  | answers (opened stat : Except IoError Metadata) (readDir : Option IoError)
      (entries : Entries Path)

/-- The entries of a directory, each with the visit of its path. -/
inductive Entries (Path : Type) where
  | done
  | failed (e : IoError)
  | entry (path : Path) (answers : Answers Path) (rest : Entries Path)

end

/-- What the file system answers during a call of `sync_files`: `metadata` of the selected paths,
the visit of each of them, and `is_dir` of the files of the list. -/
structure SyncAnswers (Path : Type) where
  stats : ℕ → Except IoError Metadata
  visits : ℕ → Answers Path
  isDir : ℕ → Bool

/-- `fingerprint`. -/
def fingerprint (stats : ℕ → Except IoError Metadata) (files : List String) : List FileSig :=
  files.mapIdx fun i _ =>
    match stats i with
    | .ok mt => { size := mt.len, mtime := mt.modified, isDir := mt.isDir }
    | .error _ => { size := 0, mtime := none, isDir := false }

/-- `clear`. -/
def ClipFiles.clear {Path : Type} (_self : ClipFiles Path) : ClipFiles Path where
  files := []
  sigs := []
  fileList := []
  firstFileIndex := BitVec.allOnes 64
  filesPdu := []

namespace Names

variable {Path : Type} [DecidableEq Path] (names : Names Path)

/-- The error of the file system at a path. -/
def fileError (path : Path) (e : IoError) : CliprdrError :=
  .FileError (names.toStringLossy path) e

mutual

/-- `constr_file_lst`. -/
def constrFileLst (relativeRoot : Path) :
    Answers Path → Path → List (LocalFile Path) → List Path →
      Except CliprdrError (List (LocalFile Path) × List Path)
  | .answers opened stat readDir entries, path, fileList, visited =>
      if path ∈ visited then .ok (fileList, visited)
      else
        match names.tryOpen relativeRoot path opened with
        | .error err => .error err
        | .ok localFile =>
            match stat with
            | .error e => .error (names.fileError path e)
            | .ok mt =>
                if mt.isDir then
                  match readDir with
                  | some e => .error (names.fileError path e)
                  | none =>
                      constrEntries relativeRoot path entries (fileList ++ [localFile])
                        (path :: visited)
                else .ok (fileList ++ [localFile], path :: visited)

/-- The loop of `constr_file_lst` over the entries of a directory. -/
def constrEntries (relativeRoot path : Path) :
    Entries Path → List (LocalFile Path) → List Path →
      Except CliprdrError (List (LocalFile Path) × List Path)
  | .done, fileList, visited => .ok (fileList, visited)
  | .failed e, _, _ => .error (names.fileError path e)
  | .entry entryPath answers rest, fileList, visited =>
      match constrFileLst relativeRoot answers entryPath fileList visited with
      | .error err => .error err
      | .ok (fileList, visited) => constrEntries relativeRoot path rest fileList visited

end

/-- The loop of `construct_file_list` over the selected paths. -/
def constructPaths (visits : ℕ → Answers Path) :
    List Path → List (LocalFile Path) → Except CliprdrError (List (LocalFile Path))
  | [], fileList => .ok fileList
  | path :: paths, fileList =>
      match names.parent path with
      | none => .error (.InvalidRequest "empty parent")
      | some relativeRoot =>
          match names.constrFileLst relativeRoot (visits 0) path fileList [] with
          | .error err => .error err
          | .ok (fileList, _) => constructPaths (fun i => visits (i + 1)) paths fileList

/-- `construct_file_list`. -/
def constructFileList (visits : ℕ → Answers Path) (paths : List Path) :
    Except CliprdrError (List (LocalFile Path)) :=
  if paths = [] then .error (.InvalidRequest "empty file list")
  else names.constructPaths visits paths []

/-- `ClipFiles::sync_files`. -/
def syncClipFiles (clipboardFiles : List String) (sigs : List FileSig) (answers : SyncAnswers Path)
    (self : ClipFiles Path) : Except CliprdrError (ClipFiles Path) :=
  match names.constructFileList answers.visits (clipboardFiles.map names.ofString) with
  | .error err => .error err
  | .ok fileList =>
      .ok { self with
        fileList := fileList
        firstFileIndex :=
          (((List.range fileList.length).find? (!answers.isDir ·)).map (BitVec.ofNat 64)).getD
            (BitVec.allOnes 64)
        files := clipboardFiles
        sigs := sigs }

/-- `sync_files`: what it returns, and what it leaves in the cache. -/
def syncFiles (files : List String) (answers : SyncAnswers Path) (filesLock : ClipFiles Path) :
    Except CliprdrError Unit × ClipFiles Path :=
  let current := fingerprint answers.stats files
  if filesLock.files = files ∧ filesLock.sigs = current ∧ !current.any (·.isDir) then
    (.ok (), filesLock)
  else
    match names.syncClipFiles files current answers filesLock with
    | .error err => (.error err, filesLock)
    | .ok filesLock =>
        match names.buildFileListPdu filesLock with
        | .error err => (.error err, filesLock)
        | .ok filesLock => (.ok (), filesLock)

/-- The calls on the cache. -/
inductive Call (Path : Type) where
  | clearFiles
  | syncFiles (files : List String) (answers : SyncAnswers Path)
  | serveFileContents (connId : BitVec 32) (request : FileContentsRequest)
      (fs : Path → FileState)

/-- The cache after a call. -/
def call (self : ClipFiles Path) : Call Path → ClipFiles Path
  | .clearFiles => self.clear
  | .syncFiles files answers => (names.syncFiles files answers self).2
  | .serveFileContents connId request fs => (names.serveFileContents fs connId request self).2

/-! ### What is listed -/

variable {names}

mutual

/-- What holds of every file that `try_open` returns holds of every file of a list. -/
theorem forall_of_constrFileLst {P : LocalFile Path → Prop} {relativeRoot : Path}
    (hopen : ∀ path metadata file, names.tryOpen relativeRoot path metadata = .ok file → P file) :
  ∀ (answers : Answers Path) (path : Path) (fileList : List (LocalFile Path))
    (visited : List Path) (listed : List (LocalFile Path) × List Path),
    (∀ file ∈ fileList, P file) →
    names.constrFileLst relativeRoot answers path fileList visited = .ok listed →
    ∀ file ∈ listed.1, P file
  := by
  rintro ⟨opened, stat, readDir, entries⟩ path fileList visited listed hlist hlisted
  rw [constrFileLst] at hlisted
  by_cases hvisited : path ∈ visited
  · rw [if_pos hvisited] at hlisted
    cases hlisted
    exact hlist
  · rw [if_neg hvisited] at hlisted
    cases hfile : names.tryOpen relativeRoot path opened with
    | error err =>
        rw [hfile] at hlisted
        cases hlisted
    | ok localFile =>
        have hlist' : ∀ file ∈ fileList ++ [localFile], P file := by
          rw [List.forall_mem_append, List.forall_mem_singleton]
          exact ⟨hlist, hopen _ _ _ hfile⟩
        rw [hfile] at hlisted
        cases stat with
        | error e => cases hlisted
        | ok mt =>
            dsimp only at hlisted
            split_ifs at hlisted with hdir
            · cases readDir with
              | some e => cases hlisted
              | none => exact forall_of_constrEntries hopen entries path _ _ _ hlist' hlisted
            · cases hlisted
              exact hlist'

/-- What holds of every file that `try_open` returns holds of every file below a directory. -/
theorem forall_of_constrEntries {P : LocalFile Path → Prop} {relativeRoot : Path}
    (hopen : ∀ path metadata file, names.tryOpen relativeRoot path metadata = .ok file → P file) :
  ∀ (entries : Entries Path) (path : Path) (fileList : List (LocalFile Path))
    (visited : List Path) (listed : List (LocalFile Path) × List Path),
    (∀ file ∈ fileList, P file) →
    names.constrEntries relativeRoot path entries fileList visited = .ok listed →
    ∀ file ∈ listed.1, P file
  := by
  rintro (_ | ⟨e⟩ | ⟨entryPath, answers, rest⟩) path fileList visited listed hlist hlisted
  · cases hlisted
    exact hlist
  · cases hlisted
  · rw [constrEntries] at hlisted
    cases hentry : names.constrFileLst relativeRoot answers entryPath fileList visited with
    | error err =>
        rw [hentry] at hlisted
        cases hlisted
    | ok listed' =>
        rw [hentry] at hlisted
        have hlist' := forall_of_constrFileLst hopen answers entryPath _ _ _ hlist hentry
        exact forall_of_constrEntries hopen rest path _ _ _ hlist' hlisted

end

/-- What holds of every file that `try_open` returns holds of every file of a selection. -/
theorem forall_of_constructFileList {P : LocalFile Path → Prop} {visits : ℕ → Answers Path}
    {paths : List Path} {files : List (LocalFile Path)}
    (hopen : ∀ relativeRoot path metadata file,
      names.tryOpen relativeRoot path metadata = .ok file → P file)
    (hfiles : names.constructFileList visits paths = .ok files) :
  ∀ file ∈ files, P file
  := by
  have hpaths (paths : List Path) : ∀ (visits : ℕ → Answers Path)
      (fileList : List (LocalFile Path)), (∀ file ∈ fileList, P file) →
      names.constructPaths visits paths fileList = .ok files → ∀ file ∈ files, P file := by
    induction paths with
    | nil =>
        intro visits fileList hlist hconstruct
        cases hconstruct
        exact hlist
    | cons path paths ih =>
        intro visits fileList hlist hconstruct
        rw [constructPaths] at hconstruct
        cases hparent : names.parent path with
        | none =>
            rw [hparent] at hconstruct
            cases hconstruct
        | some relativeRoot =>
            rw [hparent] at hconstruct
            dsimp only at hconstruct
            cases hvisit : names.constrFileLst relativeRoot (visits 0) path fileList [] with
            | error err =>
                rw [hvisit] at hconstruct
                cases hconstruct
            | ok listed =>
                rw [hvisit] at hconstruct
                have hlisted := forall_of_constrFileLst (hopen relativeRoot) (visits 0) path _ _ _
                  hlist hvisit
                exact ih _ _ hlisted hconstruct
  rw [constructFileList] at hfiles
  split_ifs at hfiles
  exact hpaths paths visits [] (by simp) hfiles

end Names

/-! ### Readers come and go -/

/-- A file as it is listed: without its reader. -/
def LocalFile.entry {Path : Type} (file : LocalFile Path) : LocalFile Path :=
  { file with handle := none, offset := 0 }

namespace Names

variable {Path : Type} {names : Names Path} {fs : Path → FileState} {file : LocalFile Path}

/-- A listed file has a name that passes its check. -/
theorem check_of_tryOpen {relativeRoot path : Path} {metadata : Except IoError Metadata}
    (h : names.tryOpen relativeRoot path metadata = .ok file) :
  names.checkDescriptorName file.descriptorName = .ok ()
  := by
  rw [tryOpen, validatedDescriptorName] at h
  cases hstrip : names.stripPrefix relativeRoot path with
  | none =>
      rw [hstrip] at h
      cases h
  | some descriptorPath =>
      rw [hstrip] at h
      simp only [Option.elim, bind, Except.bind, pure, Except.pure] at h
      split_ifs at h
      cases hcheck : names.checkDescriptorName (names.toStringLossy descriptorPath) with
      | error err =>
          rw [hcheck] at h
          cases h
      | ok =>
          rw [hcheck] at h
          cases metadata with
          | error e => cases h
          | ok mt =>
              cases h
              exact hcheck

theorem entry_of_loadHandle {file' : LocalFile Path} (h : names.loadHandle fs file = .ok file') :
  file'.entry = file.entry
  := by
  have hloaded := loadHandle_ok_iff.mp h
  split_ifs at hloaded
  · rw [hloaded.2]
    rfl
  · rw [hloaded]

theorem entry_readExactAt (len : ℕ) (offset : BitVec 64) :
  (names.readExactAt fs len offset file).2.entry = file.entry
  := by
  rw [readExactAt]
  cases hload : names.loadHandle fs file with
  | error err => rfl
  | ok loaded =>
      rw [← entry_of_loadHandle hload]
      dsimp only
      cases loaded.handle with
      | none => rfl
      | some position =>
          dsimp only
          cases readFrom (fs loaded.path) len offset position loaded with
          | error err => rfl
          | ok r =>
              dsimp only
              split_ifs <;> rfl

theorem entry_respond (connId : BitVec 32) (request : FileContentsRequest) :
  (names.respond fs connId file request).2.entry = file.entry
  := by
  cases request with
  | size streamId fileIdx => rfl
  | range streamId fileIdx offset length =>
      rw [respond]
      dsimp only
      split_ifs
      · rfl
      · rfl
      · apply entry_readExactAt

theorem entries_of_hotReload {files files' : List (LocalFile Path)}
    (h : names.hotReload fs files = .ok files') :
  files'.map LocalFile.entry = files.map LocalFile.entry
  := by
  induction files generalizing files' with
  | nil =>
      cases h
      rfl
  | cons nextFile rest ih =>
      rw [hotReload] at h
      split_ifs at h
      · cases hload : names.loadHandle fs nextFile with
        | error err =>
            rw [hload] at h
            cases h
        | ok loaded =>
            rw [hload] at h
            cases h
            rw [List.map_cons, List.map_cons, entry_of_loadHandle hload]
      · cases hrest : names.hotReload fs rest with
        | error err =>
            rw [hrest] at h
            cases h
        | ok rest' =>
            rw [hrest] at h
            cases h
            rw [List.map_cons, List.map_cons, ih hrest]

/-- Serving a request changes the readers of the list only. -/
theorem serveFileContents_entries (connId : BitVec 32) (request : FileContentsRequest)
    (self : ClipFiles Path) :
  (names.serveFileContents fs connId request self).2.fileList.map LocalFile.entry
      = self.fileList.map LocalFile.entry
    ∧ (names.serveFileContents fs connId request self).2.filesPdu = self.filesPdu
  := by
  rw [serveFileContents]
  dsimp only
  cases hfile : self.fileList[request.fileIdx.toNat]? with
  | none => exact ⟨rfl, rfl⟩
  | some file =>
      have hset : (self.fileList.set request.fileIdx.toNat
          (names.respond fs connId file request).2).map LocalFile.entry
            = self.fileList.map LocalFile.entry := by
        have hentry : (self.fileList.map LocalFile.entry)[request.fileIdx.toNat]?
            = some file.entry := by
          rw [List.getElem?_map, hfile]
          rfl
        obtain ⟨hlt, heq⟩ := List.getElem?_eq_some_iff.mp hentry
        rw [List.map_set, entry_respond, ← heq, List.set_getElem_self]
      dsimp only
      split
      · cases hreload : names.hotReload fs ((self.fileList.set request.fileIdx.toNat
            (names.respond fs connId file request).2).drop (request.fileIdx.toNat + 1)) with
        | error err => exact ⟨hset, rfl⟩
        | ok rest =>
            refine ⟨?_, rfl⟩
            dsimp only
            rw [List.map_append, entries_of_hotReload hreload, ← List.map_append,
              List.take_append_drop, hset]
      · exact ⟨hset, rfl⟩

/-! ### The list that is advertised is the list that is served -/

variable (names) in
/-- The advertised list is the served one: the number of its files, and at the place of each index
the descriptor of the file of that index. -/
structure Encodes (cache : ClipFiles Path) : Prop where
  count : cache.filesPdu.take 4 = leBytes 4 (BitVec.ofNat 32 cache.fileList.length).toNat
  length : cache.filesPdu.length = 4 + fileDescriptorSize * cache.fileList.length
  entry : ∀ (i : ℕ) (file : LocalFile Path), cache.fileList[i]? = some file →
    names.asBin file
      = .ok ((cache.filesPdu.drop (4 + fileDescriptorSize * i)).take fileDescriptorSize)

variable (names) in
/-- Both lists are empty, or the advertised one encodes the served one. -/
def Agrees (self : ClipFiles Path) : Prop :=
  (self.fileList = [] ∧ self.filesPdu = []) ∨ names.Encodes self

/-- At the place of an index stands the descriptor of its file. -/
theorem take_drop_descriptors {files : List (LocalFile Path)}
    (h : ∀ file ∈ files, names.checkDescriptorName file.descriptorName = .ok ()) {i : ℕ}
    (hfile : files[i]? = some file) :
  ((files.flatMap descriptor).drop (fileDescriptorSize * i)).take fileDescriptorSize
    = descriptor file
  := by
  induction files generalizing i with
  | nil => cases hfile
  | cons first files ih =>
      rw [List.forall_mem_cons] at h
      rw [List.flatMap_cons]
      cases i with
      | zero =>
          cases hfile
          rw [Nat.mul_zero, List.drop_zero, List.take_left' (length_descriptor h.1)]
      | succ i =>
          rw [Nat.mul_succ, Nat.add_comm, ← List.drop_drop,
            List.drop_left' (length_descriptor h.1)]
          exact ih h.2 hfile

/-- A list of files whose names pass their check is built, and encodes them. -/
theorem encodes_of_buildFileListPdu {self : ClipFiles Path}
    (h : ∀ file ∈ self.fileList, names.checkDescriptorName file.descriptorName = .ok ()) :
  ∃ built, names.buildFileListPdu self = .ok built ∧ names.Encodes built
  := by
  refine ⟨_, buildFileListPdu_of_check h, ?_, ?_, ?_⟩
  · apply List.take_left' (length_leBytes _ _)
  · rw [List.length_append, length_leBytes, length_descriptors h]
  · intro i file hfile
    rw [← List.drop_drop, List.drop_left' (length_leBytes _ _), take_drop_descriptors h hfile,
      asBin_of_check (h file (List.mem_of_getElem? hfile))]
    rfl

/-- An advertised list encodes every list with the same entries. -/
theorem Agrees.of_entries {self self' : ClipFiles Path} (h : names.Agrees self)
    (hentries : self'.fileList.map LocalFile.entry = self.fileList.map LocalFile.entry)
    (hpdu : self'.filesPdu = self.filesPdu) :
  names.Agrees self'
  := by
  have hlength : self'.fileList.length = self.fileList.length := by
    rw [← List.length_map LocalFile.entry, hentries, List.length_map]
  rcases h with ⟨hempty, hnone⟩ | hencodes
  · left
    rw [← List.length_eq_zero_iff, hlength, hempty, hpdu]
    exact ⟨rfl, hnone⟩
  · right
    constructor
    · rw [hpdu, hlength, hencodes.count]
    · rw [hpdu, hlength, hencodes.length]
    · intro i file' hfile'
      have hentry : (self.fileList.map LocalFile.entry)[i]? = some file'.entry := by
        rw [← hentries, List.getElem?_map, hfile']
        rfl
      rw [List.getElem?_map, Option.map_eq_some_iff] at hentry
      obtain ⟨file, hfile, hsame⟩ := hentry
      rw [hpdu, ← hencodes.entry i file hfile]
      change names.asBin file'.entry = names.asBin file.entry
      rw [hsame]

variable [DecidableEq Path]

/-- A synchronisation that fails leaves the cache alone; one that succeeds leaves it alone or with
an advertised list that encodes the served one. -/
theorem syncFiles_cases (files : List String) (answers : SyncAnswers Path)
    (filesLock : ClipFiles Path) :
  (names.syncFiles files answers filesLock).2 = filesLock
    ∨ (names.syncFiles files answers filesLock).1 = .ok ()
      ∧ names.Encodes (names.syncFiles files answers filesLock).2
  := by
  unfold syncFiles
  dsimp only
  by_cases hsame : filesLock.files = files ∧ filesLock.sigs = fingerprint answers.stats files
      ∧ !(fingerprint answers.stats files).any (·.isDir)
  · rw [if_pos hsame]
    left
    rfl
  · rw [if_neg hsame]
    cases hsync : names.syncClipFiles files (fingerprint answers.stats files) answers filesLock with
    | error err =>
        left
        rfl
    | ok synced =>
        have hcheck : ∀ file ∈ synced.fileList,
            names.checkDescriptorName file.descriptorName = .ok () := by
          unfold syncClipFiles at hsync
          cases hlist : names.constructFileList answers.visits (files.map names.ofString) with
          | error err =>
              rw [hlist] at hsync
              cases hsync
          | ok fileList =>
              rw [hlist] at hsync
              cases hsync
              exact forall_of_constructFileList (fun _ _ _ _ => check_of_tryOpen) hlist
        obtain ⟨built, hbuilt, hencodes⟩ := encodes_of_buildFileListPdu hcheck
        right
        dsimp only
        rw [hbuilt]
        exact ⟨rfl, hencodes⟩

/-- Every call keeps the two lists in agreement. -/
theorem Agrees.call {self : ClipFiles Path} (h : names.Agrees self) (c : Call Path) :
  names.Agrees (names.call self c)
  := by
  cases c with
  | clearFiles =>
      left
      exact ⟨rfl, rfl⟩
  | syncFiles files answers =>
      change names.Agrees (names.syncFiles files answers self).2
      rcases syncFiles_cases files answers self with hsame | ⟨-, hencodes⟩
      · rw [hsame]
        exact h
      · right
        exact hencodes
  | serveFileContents connId request fs =>
      obtain ⟨hentries, hpdu⟩ := serveFileContents_entries connId request self
      exact h.of_entries hentries hpdu

/-- What holds of every file that `try_open` returns is kept by a synchronisation. -/
theorem forall_of_syncFiles {P : LocalFile Path → Prop} {files : List String}
    {answers : SyncAnswers Path} {filesLock : ClipFiles Path}
    (hopen : ∀ relativeRoot path metadata file,
      names.tryOpen relativeRoot path metadata = .ok file → P file)
    (h : ∀ file ∈ filesLock.fileList, P file) :
  ∀ file ∈ (names.syncFiles files answers filesLock).2.fileList, P file
  := by
  unfold syncFiles syncClipFiles
  dsimp only
  split_ifs
  · exact h
  · cases hlist : names.constructFileList answers.visits (files.map names.ofString) with
    | error err => exact h
    | ok fileList =>
        have hall := forall_of_constructFileList hopen hlist
        dsimp only
        unfold buildFileListPdu
        cases names.putDescriptors fileList with
        | error err => exact hall
        | ok descriptors => exact hall

/-- After every sequence of calls every reader stands where it is taken to be. -/
theorem coherent_after {calls : List (Call Path)}
    (hsize : ∀ connId request fs, .serveFileContents connId request fs ∈ calls →
      ∀ path, (fs path).contents.length < 2 ^ 64) :
  ∀ file ∈ (calls.foldl names.call {}).fileList, Coherent file
  := by
  apply List.foldlRecOn (motive := fun self : ClipFiles Path =>
    ∀ file ∈ self.fileList, Coherent file)
  · nofun
  · intro self h c hc
    cases c with
    | clearFiles => nofun
    | syncFiles files answers =>
        exact forall_of_syncFiles (fun _ _ _ _ => coherent_of_tryOpen) h
    | serveFileContents connId request fs =>
        exact coherent_of_serve (hsize connId request fs hc) h

/-- After every sequence of calls the advertised list is the served one, and a synchronisation that
fails leaves the cache as it was. -/
theorem agrees_after (calls : List (Call Path)) :
  names.Agrees (calls.foldl names.call {})
    ∧ ∀ (files : List String) (answers : SyncAnswers Path) (err : CliprdrError),
      (names.syncFiles files answers (calls.foldl names.call {})).1 = .error err →
        (names.syncFiles files answers (calls.foldl names.call {})).2
          = calls.foldl names.call {}
  := by
  constructor
  · apply List.foldlRecOn
    · left
      exact ⟨rfl, rfl⟩
    · intro self h c _
      exact h.call c
  · intro files answers err herr
    rcases syncFiles_cases files answers (calls.foldl names.call {}) with hsame | ⟨hok, -⟩
    · exact hsame
    · rw [hok] at herr
      cases herr

end Names

end VynxDesk.Clipboard
