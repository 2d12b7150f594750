import Mathlib.Data.List.Nodup
import VynxDesk.Clipboard.Tree
import VynxDesk.Lib.BinarySearch
import VynxDesk.Lib.Paging
import VynxDesk.Lib.Run

/-!
# The file system of a file list

`FuseServer` of `platform/unix/fuse/cs.rs` shows the peer's list as files, and reads them from the
peer.  Along a run a handle is good for the file it was opened for, until it is released or another
list comes, and is never handed out again (`System.handles_of_run`); the peer is asked for a file
through such a handle only (`System.read_of_run`).  A directory is listed whole, however it is paged
(`System.listed_of_run`).
-/

namespace VynxDesk.Clipboard.Fuse

open UnixPath
open BinarySearch (binarySearch)

/-- `MAX_NAME_LEN`. -/
def maxNameLen : ℕ := 255

/-- `READ_RETRY`. -/
def readRetry : ℕ := 3

/-- The errors that the kernel is told. -/
inductive Errno where
  | eio
  | ebadf
  | enoent
  | ebusy
  | enotdir
  | enfile
  | enametoolong
  deriving DecidableEq, Repr

/-! ### Handles -/

/-- `FileHandles`. -/
structure FileHandles where
  handlers : List ℕ := []
  gc : Bool := false
  deriving DecidableEq, Repr

namespace FileHandles

def marked (self : FileHandles) : Bool := self.gc

def addHandler (self : FileHandles) (fh : ℕ) : FileHandles :=
  if self.marked then self else { self with handlers := self.handlers ++ [fh] }

def haveHandler (self : FileHandles) (handler : ℕ) : Bool :=
  (binarySearch self.handlers handler).isSome

/-- `unregister`, for its `Ok`. -/
def unregister (self : FileHandles) (handler : ℕ) : Option FileHandles :=
  (binarySearch self.handlers handler).map fun idx =>
    { self with handlers := self.handlers.eraseIdx idx }

end FileHandles

/-- A `FuseNode` with its `file_handlers`. -/
structure Entry extends FuseNode where
  fileHandlers : FileHandles := {}
  deriving DecidableEq

/-! ### The server -/

/-- `FuseServer`, but for its timeout and its channel. -/
structure FuseServer where
  generation : ℕ := 0
  files : List Entry := []
  fileHandleCounter : ℕ := 0
  deriving DecidableEq

/-- What `ReplyDirectory::add` is told of an entry, but for its offset. -/
structure DirEntry where
  inode : ℕ
  kind : FileType
  name : String
  deriving DecidableEq

/-- An answer. -/
inductive Reply where
  | error (errno : Errno)
  | entry (attributes : InodeAttributes) (generation : ℕ)
  | opened (fh : ℕ)
  | directory (entries : List (DirEntry × ℕ))
  | data (bytes : Bytes)
  | attr (attributes : InodeAttributes)
  | ok
  | failed (err : CliprdrError)
  deriving DecidableEq

/-- What is behind an inode; there is nothing behind 0. -/
def entryAt {α : Type*} (files : List α) : ℕ → Option α
  | 0 => none
  | i + 1 => files[i]?

/-- `u64::fetch_add` of 1. -/
def fetchAdd (counter : ℕ) : ℕ := (counter + 1) % 2 ^ 64

namespace FuseServer

/-- `load_file_list`, with the times at which the nodes are made. -/
def loadFileList (self : FuseServer) (now : ℕ → Int) (files : List FileDescription) :
    Except CliprdrError FuseServer :=
  (FuseNode.buildTree now files).map fun tree =>
    { self with
      files := tree.map fun node => { toFuseNode := node }
      generation := fetchAdd self.generation }

/-- `init`. -/
def init (self : FuseServer) (now : Int) : FuseServer :=
  if self.files.isEmpty then
    { self with files := [{ toFuseNode := FuseNode.newRoot now }] }
  else self

/-- The loop of `lookup`: the first child with the name; a child that is not there is a panic. -/
def findChild (files : List Entry) (name : String) : List ℕ → Option (Option Entry)
  | [] => some none
  | inode :: inodes =>
      (entryAt files inode).bind fun child =>
        if child.name = name then some (some child) else findChild files name inodes

def lookup (self : FuseServer) (parent : ℕ) (name : String) : Option Reply :=
  if maxNameLen < name.utf8ByteSize then some (.error .enametoolong)
  else
    match entryAt self.files parent with
    | none => some (.error .enoent)
    | some parentEntry =>
        if parentEntry.attributes.kind ≠ .Directory then some (.error .enotdir)
        else
          (findChild self.files name parentEntry.children).map fun found =>
            match found with
            | some child => .entry child.attributes self.generation
            | none => .error .enoent

/-- The handles of an inode change. -/
def setHandlers (self : FuseServer) (ino : ℕ) (handles : FileHandles) : FuseServer :=
  { self with
    files := self.files.modify (ino - 1) fun entry => { entry with fileHandlers := handles } }

/-- `open` of a kind of files, and the error for the others. -/
def openAs (kind : FileType) (errno : Errno) (self : FuseServer) (ino : ℕ) : Reply × FuseServer :=
  match entryAt self.files ino with
  | none => (.error .enoent, self)
  | some entry =>
      if entry.attributes.kind ≠ kind then (.error errno, self)
      else if entry.fileHandlers.marked then (.error .ebusy, self)
      else
        -- `alloc_fd`
        let fh := self.fileHandleCounter
        let self := { self with fileHandleCounter := fetchAdd self.fileHandleCounter }
        (.opened fh, self.setHandlers ino (entry.fileHandlers.addHandler fh))

def opendir : FuseServer → ℕ → Reply × FuseServer := openAs .Directory .enotdir

/-- `open`. -/
def openFile : FuseServer → ℕ → Reply × FuseServer := openAs .File .enfile

/-- The loop of `readdir` over the children; a child that is not there is a panic. -/
def childEntries (files : List Entry) : List ℕ → Option (List DirEntry)
  | [] => some []
  | inode :: inodes =>
      (entryAt files inode).bind fun child =>
        (childEntries files inodes).map (⟨inode, child.attributes.kind, child.name⟩ :: ·)

/-- The entries of a directory. -/
def dirEntries (self : FuseServer) (ino : ℕ) (entry : Entry) : Option (List DirEntry) :=
  (childEntries self.files entry.children).map fun children =>
    ⟨ino, .Directory, "."⟩ :: (entry.parent.toList.map fun p => ⟨p, .Directory, ".."⟩) ++ children

/-- `readdir`, when the buffer of the kernel has room for so many entries. -/
def readdir (self : FuseServer) (ino fh offset room : ℕ) : Option Reply :=
  match entryAt self.files ino with
  | none => some (.error .enoent)
  | some entry =>
      if ¬entry.fileHandlers.haveHandler fh then some (.error .ebadf)
      else if entry.attributes.kind ≠ .Directory then some (.error .enotdir)
      else
        (self.dirEntries ino entry).map fun entries => .directory (Paging.page entries offset room)

def releasedir (self : FuseServer) (ino fh : ℕ) : Reply × FuseServer :=
  match entryAt self.files ino with
  | none => (.error .enoent, self)
  | some entry =>
      if entry.attributes.kind ≠ .Directory then (.error .enotdir, self)
      else if ¬entry.fileHandlers.haveHandler fh then (.error .ebadf, self)
      else
        match entry.fileHandlers.unregister fh with
        | none => (.ok, self)
        | some handles => (.ok, self.setHandlers ino handles)

def release (self : FuseServer) (ino fh : ℕ) : Reply × FuseServer :=
  match entryAt self.files ino with
  | none => (.error .enoent, self)
  | some entry =>
      match entry.fileHandlers.unregister fh with
      | none => (.error .ebadf, self)
      | some handles => (.ok, self.setHandlers ino handles)

def getattr (self : FuseServer) (ino : ℕ) : Reply :=
  match entryAt self.files ino with
  | none => .error .enoent
  | some entry => .attr entry.attributes

/-- The loop of `read_node` over what comes in until the timeout: the bytes, and how often the
request was sent again.  `takes` tells of each `send_data` whether it is `Ok`. -/
def receive (streamId : BitVec 32) (takes : ℕ → Bool) : List ClipboardFile → ℕ → Option Bytes × ℕ
  | [], retryTimes => (none, retryTimes)
  | .fileContentsResponse msgFlags id requestedData :: replies, retryTimes =>
      if id ≠ streamId then receive streamId takes replies retryTimes
      else if msgFlags &&& 1 = 0 then
        if readRetry < retryTimes + 1 then (none, retryTimes)
        else if takes (retryTimes + 1) then receive streamId takes replies (retryTimes + 1)
        else (none, retryTimes)
      else (some requestedData, retryTimes)
  | _ :: _, retryTimes => (none, retryTimes)

/-- `read_node`, with the requests it sends. -/
def readNode (entry : Entry) (offset : BitVec 64) (size streamId : BitVec 32) (takes : ℕ → Bool)
    (replies : List ClipboardFile) : Option Bytes × List ClipboardFile :=
  let node : FileNode := ⟨entry.connId, BitVec.ofNat 64 entry.index⟩
  if takes 0 then
    let (bytes, retryTimes) := receive streamId takes replies 0
    (bytes, List.replicate (retryTimes + 1) (node.readNode streamId offset size))
  else (none, [])

/-- `read`, with the requests it sends. -/
def read (self : FuseServer) (ino fh : ℕ) (offset : BitVec 64) (size streamId : BitVec 32)
    (takes : ℕ → Bool) (replies : List ClipboardFile) : Reply × List ClipboardFile :=
  match entryAt self.files ino with
  | none => (.error .enoent, [])
  | some entry =>
      if ¬entry.fileHandlers.haveHandler fh then (.error .ebadf, [])
      else if entry.attributes.kind ≠ .File then (.error .enfile, [])
      else if entry.fileHandlers.marked then (.error .ebusy, [])
      else
        let (bytes, sent) := readNode entry offset size streamId takes replies
        ((bytes.map Reply.data).getD (.error .eio), sent)

end FuseServer

/-- A request of the kernel, or a list that comes.  `statfs`, which touches no handle, is left
out. -/
inductive Request where
  | init (now : Int)
  | loadFileList (now : ℕ → Int) (files : List FileDescription)
  | lookup (parent : ℕ) (name : String)
  | opendir (ino : ℕ)
  | readdir (ino fh offset room : ℕ)
  | releasedir (ino fh : ℕ)
  | openFile (ino : ℕ)
  | read (ino fh : ℕ) (offset : BitVec 64) (size streamId : BitVec 32) (takes : ℕ → Bool)
      (replies : List ClipboardFile)
  | release (ino fh : ℕ)
  | getattr (ino : ℕ)

/-- What the server answers to a request, unless it panics. -/
def FuseServer.handle (self : FuseServer) : Request → Option (Reply × FuseServer)
  | .init now => some (.ok, self.init now)
  | .loadFileList now files =>
      match self.loadFileList now files with
      | .error err => some (.failed err, self)
      | .ok self => some (.ok, self)
  | .lookup parent name => (self.lookup parent name).map fun reply => (reply, self)
  | .opendir ino => some (self.opendir ino)
  | .readdir ino fh offset room => (self.readdir ino fh offset room).map fun reply => (reply, self)
  | .releasedir ino fh => some (self.releasedir ino fh)
  | .openFile ino => some (self.openFile ino)
  | .read ino fh offset size streamId takes replies =>
      some ((self.read ino fh offset size streamId takes replies).1, self)
  | .release ino fh => some (self.release ino fh)
  | .getattr ino => some (self.getattr ino, self)

/-! ### Runs -/

/-- The server, how many lists came, the handles in use with their inodes, and all that were handed
out with the number of lists that had come then. -/
structure System where
  server : FuseServer := {}
  lists : ℕ := 0
  live : List (ℕ × ℕ) := []
  handed : List (ℕ × ℕ) := []
  deriving DecidableEq

/-- What an answer tells of the handles. -/
def System.answered (s : System) (server : FuseServer) : Request → Reply → System
  | .opendir ino, .opened fh | .openFile ino, .opened fh =>
      { s with server, live := s.live ++ [(ino, fh)], handed := s.handed ++ [(s.lists, fh)] }
  | .releasedir ino fh, .ok | .release ino fh, .ok =>
      { s with server, live := s.live.erase (ino, fh) }
  | .loadFileList _ _, .ok => { s with server, live := [], lists := s.lists + 1 }
  | _, _ => { s with server }

def System.step (s : System) (request : Request) : Option System :=
  (s.server.handle request).map fun x => s.answered x.2 request x.1

variable {s s' : System} {request : Request} {h : List (System × Request)} {entry : Entry}
  {ino : ℕ} {files : List Entry} {server : FuseServer} {live : List (ℕ × ℕ)}

/-- What a step does. -/
inductive Effect (s : System) : Request → System → Prop where
  | same (request : Request) : Effect s request s
  | init (now : Int) : s.server.files = [] → Effect s (.init now)
      { s with server := { s.server with files := [{ toFuseNode := FuseNode.newRoot now }] } }
  | load {now : ℕ → Int} {files : List FileDescription} {server : FuseServer} :
      s.server.loadFileList now files = .ok server → Effect s (.loadFileList now files)
        { s with server, live := [], lists := s.lists + 1 }
  | opened {request : Request} {ino : ℕ} {entry : Entry} :
      entryAt s.server.files ino = some entry → entry.fileHandlers.marked = false →
        Effect s request
          { s with
            server :=
              { s.server with
                fileHandleCounter := fetchAdd s.server.fileHandleCounter }.setHandlers ino
                (entry.fileHandlers.addHandler s.server.fileHandleCounter)
            live := s.live ++ [(ino, s.server.fileHandleCounter)]
            handed := s.handed ++ [(s.lists, s.server.fileHandleCounter)] }
  | released {request : Request} {ino fh : ℕ} {entry : Entry} {handles : FileHandles} :
      entryAt s.server.files ino = some entry → entry.fileHandlers.unregister fh = some handles →
        Effect s request
          { s with server := s.server.setHandlers ino handles, live := s.live.erase (ino, fh) }

theorem openAs_cases (kind : FileType) (errno : Errno) (server : FuseServer) (ino : ℕ) :
  (∃ err, FuseServer.openAs kind errno server ino = (.error err, server)) ∨
    ∃ entry, entryAt server.files ino = some entry ∧ entry.fileHandlers.marked = false ∧
      FuseServer.openAs kind errno server ino = (.opened server.fileHandleCounter,
        { server with fileHandleCounter := fetchAdd server.fileHandleCounter }.setHandlers ino
          (entry.fileHandlers.addHandler server.fileHandleCounter))
  := by
  rw [FuseServer.openAs]
  split
  · exact .inl ⟨_, rfl⟩
  · rename_i entry hentry
    split_ifs with hkind hmarked
    · exact .inl ⟨_, rfl⟩
    · exact .inl ⟨_, rfl⟩
    · exact .inr ⟨entry, hentry, eq_false_of_ne_true hmarked, rfl⟩

theorem release_cases (server : FuseServer) (ino fh : ℕ) :
  (∃ err, server.release ino fh = (.error err, server)) ∨
    ∃ entry handles, entryAt server.files ino = some entry ∧
      entry.fileHandlers.unregister fh = some handles ∧
      server.release ino fh = (.ok, server.setHandlers ino handles)
  := by
  rw [FuseServer.release]
  split
  · exact .inl ⟨_, rfl⟩
  · rename_i entry hentry
    split
    · exact .inl ⟨_, rfl⟩
    · rename_i handles hhandles
      exact .inr ⟨entry, handles, hentry, hhandles, rfl⟩

theorem releasedir_cases (server : FuseServer) (ino fh : ℕ) :
  (∃ err, server.releasedir ino fh = (.error err, server)) ∨
    ∃ entry handles, entryAt server.files ino = some entry ∧
      entry.fileHandlers.unregister fh = some handles ∧
      server.releasedir ino fh = (.ok, server.setHandlers ino handles)
  := by
  rw [FuseServer.releasedir]
  split
  · exact .inl ⟨_, rfl⟩
  · rename_i entry hentry
    split_ifs with hkind hhave
    · exact .inl ⟨_, rfl⟩
    · rw [FileHandles.haveHandler, Option.isSome_iff_exists] at hhave
      obtain ⟨idx, hidx⟩ := hhave
      have hunregister : entry.fileHandlers.unregister fh =
          some { entry.fileHandlers with
            handlers := entry.fileHandlers.handlers.eraseIdx idx } := by
        rw [FileHandles.unregister, hidx, Option.map_some]
      refine .inr ⟨entry, _, hentry, hunregister, ?_⟩
      rw [hunregister]
    · exact .inl ⟨_, rfl⟩

/-- A step has one of the effects. -/
theorem step_effect (hstep : s.step request = some s') :
  Effect s request s'
  := by
  obtain ⟨⟨reply, server⟩, hhandle, rfl⟩ := Option.map_eq_some_iff.mp hstep
  cases request with
  | init now =>
      cases hhandle
      rw [FuseServer.init]
      split_ifs with hempty
      · exact .init now (List.isEmpty_iff.mp hempty)
      · exact .same _
  | loadFileList now files =>
      rw [FuseServer.handle] at hhandle
      split at hhandle
      · cases hhandle
        exact .same _
      · rename_i server hload
        cases hhandle
        exact .load hload
  | opendir ino =>
      rw [FuseServer.handle, FuseServer.opendir] at hhandle
      rcases openAs_cases .Directory .enotdir s.server ino with
        ⟨err, herr⟩ | ⟨entry, hentry, hmarked, hopened⟩
      · rw [herr] at hhandle
        cases hhandle
        exact .same _
      · rw [hopened] at hhandle
        cases hhandle
        exact .opened hentry hmarked
  | openFile ino =>
      rw [FuseServer.handle, FuseServer.openFile] at hhandle
      rcases openAs_cases .File .enfile s.server ino with
        ⟨err, herr⟩ | ⟨entry, hentry, hmarked, hopened⟩
      · rw [herr] at hhandle
        cases hhandle
        exact .same _
      · rw [hopened] at hhandle
        cases hhandle
        exact .opened hentry hmarked
  | releasedir ino fh =>
      rw [FuseServer.handle] at hhandle
      rcases releasedir_cases s.server ino fh with
        ⟨err, herr⟩ | ⟨entry, handles, hentry, hhandles, hreleased⟩
      · rw [herr] at hhandle
        cases hhandle
        exact .same _
      · rw [hreleased] at hhandle
        cases hhandle
        exact .released hentry hhandles
  | release ino fh =>
      rw [FuseServer.handle] at hhandle
      rcases release_cases s.server ino fh with
        ⟨err, herr⟩ | ⟨entry, handles, hentry, hhandles, hreleased⟩
      · rw [herr] at hhandle
        cases hhandle
        exact .same _
      · rw [hreleased] at hhandle
        cases hhandle
        exact .released hentry hhandles
  | lookup parent name =>
      obtain ⟨_, -, hreply⟩ := Option.map_eq_some_iff.mp hhandle
      cases hreply
      exact .same _
  | readdir ino fh offset room =>
      obtain ⟨_, -, hreply⟩ := Option.map_eq_some_iff.mp hhandle
      cases hreply
      exact .same _
  | read ino fh offset size streamId takes replies =>
      cases hhandle
      exact .same _
  | getattr ino =>
      cases hhandle
      exact .same _

/-! ### The tree along a run -/

/-- The nodes are those of a list. -/
def Shown (files : List Entry) : Prop :=
  files = [] ∨ ∃ list map, FuseNode.Built list (files.map Entry.toFuseNode) map

theorem entryAt_eq_some {α : Type*} {files : List α} {x : α} :
  entryAt files ino = some x ↔ 1 ≤ ino ∧ files[ino - 1]? = some x
  := by
  cases ino with
  | zero => simp [entryAt]
  | succ i => simp [entryAt]

/-- What a change of an element leaves as it is. -/
theorem map_modify {α β : Type*} {f : α → α} {g : α → β} (hfg : ∀ x, g (f x) = g x) (xs : List α)
    (i : ℕ) :
  (xs.modify i f).map g = xs.map g
  := by
  apply List.ext_getElem?
  intro j
  rw [List.getElem?_map, List.getElem?_map, List.getElem?_modify]
  cases xs[j]? with
  | none => rfl
  | some x =>
      simp only [Option.map_eq_map, Option.map_some]
      split_ifs
      · rw [hfg]
      · rfl

/-- Handles are no part of the nodes. -/
theorem map_setHandlers (server : FuseServer) (ino : ℕ) (handles : FileHandles) :
  (server.setHandlers ino handles).files.map Entry.toFuseNode
    = server.files.map Entry.toFuseNode
  := by
  rw [FuseServer.setHandlers]
  apply map_modify
  intro entry
  rfl

/-- Only the inode's own handles change. -/
theorem entryAt_setHandlers (hentry : entryAt server.files ino = some entry)
    (handles : FileHandles) (ino' : ℕ) :
  entryAt (server.setHandlers ino handles).files ino' =
    if ino' = ino then some { entry with fileHandlers := handles } else entryAt server.files ino'
  := by
  obtain ⟨hpos, hget⟩ := entryAt_eq_some.mp hentry
  cases ino' with
  | zero =>
      rw [if_neg (by omega)]
      rfl
  | succ i =>
      change (server.setHandlers ino handles).files[i]? = _
      rw [FuseServer.setHandlers, List.getElem?_modify]
      by_cases hi : i + 1 = ino
      · have hat : ino - 1 = i := by omega
        rw [hat] at hget
        simp only [if_pos hi, if_pos hat, hget]
        rfl
      · have hat : ino - 1 ≠ i := by omega
        simp only [if_neg hi, if_neg hat, Option.map_eq_map, Option.map_id_fun', entryAt]
        rfl

theorem shown_setHandlers (hshown : Shown server.files) (ino : ℕ) (handles : FileHandles) :
  Shown (server.setHandlers ino handles).files
  := by
  rcases hshown with hnil | hbuilt
  · left
    rw [FuseServer.setHandlers, hnil, List.modify_nil]
  · right
    rw [map_setHandlers]
    exact hbuilt

/-- The tree and the map that `build_tree` begins with. -/
abbrev FuseNode.start (now : ℕ → Int) : List FuseNode × FuseNode.SubRootMap :=
  ([newRoot (now fuseRootId)], [(components "", fuseRootId), (components "/", fuseRootId)])

/-- What a list is shown as. -/
theorem loadFileList_ok {server' : FuseServer} {now : ℕ → Int} {files : List FileDescription}
    (hload : server.loadFileList now files = .ok server') :
  ∃ state, files.foldlM (FuseNode.addFile now) (FuseNode.start now) = .ok state ∧
    server' = { server with
      files := state.1.map fun node => { toFuseNode := node }
      generation := fetchAdd server.generation }
  := by
  rw [FuseServer.loadFileList, FuseNode.buildTree] at hload
  cases hfold : files.foldlM (FuseNode.addFile now) (FuseNode.start now) with
  | error err =>
      rw [hfold] at hload
      cases hload
  | ok state =>
      rw [hfold] at hload
      cases hload
      exact ⟨state, rfl, rfl⟩

theorem map_toFuseNode (tree : List FuseNode) :
  (tree.map fun node => ({ toFuseNode := node } : Entry)).map Entry.toFuseNode = tree
  := by
  rw [List.map_map]
  exact List.map_id tree

theorem Shown.step (hshown : Shown s.server.files) (hstep : s.step request = some s') :
  Shown s'.server.files
  := by
  cases step_effect hstep with
  | same => exact hshown
  | init now _ => exact .inr ⟨[], _, @FuseNode.built_nil fun _ => now⟩
  | load hload =>
      obtain ⟨state, hfold, rfl⟩ := loadFileList_ok hload
      have hbuilt := FuseNode.built_of_foldlM hfold
      rw [← map_toFuseNode state.1] at hbuilt
      exact .inr ⟨_, _, hbuilt⟩
  | opened hentry _ => exact shown_setHandlers hshown _ _
  | released hentry _ => exact shown_setHandlers hshown _ _

theorem tree_of_run (hrun : Run (fun s request s' => System.step s request = some s') {} h s) :
  Shown s.server.files
  := hrun.invariant (fun s => Shown s.server.files) (.inl rfl) fun _ _ _ hshown hstep =>
    hshown.step hstep

/-- A node that is there is one of the tree of a list. -/
theorem Shown.node (hshown : Shown files) (hentry : entryAt files ino = some entry) :
  ∃ list map, FuseNode.Built list (files.map Entry.toFuseNode) map ∧
    files.length = list.length + 1 ∧
    (files.map Entry.toFuseNode)[ino - 1]? = some entry.toFuseNode
  := by
  obtain ⟨-, hget⟩ := entryAt_eq_some.mp hentry
  rcases hshown with rfl | ⟨list, map, hbuilt⟩
  · cases hget
  refine ⟨list, map, hbuilt, ?_, ?_⟩
  · rw [← hbuilt.length, List.length_map]
  · rw [List.getElem?_map, hget]
    rfl

/-- The children of a node are the inodes whose parent it is. -/
theorem Shown.mem_children (hshown : Shown files) (hentry : entryAt files ino = some entry)
    (inode : ℕ) :
  inode ∈ entry.children ↔ ∃ child, entryAt files inode = some child ∧ child.parent = some ino
  := by
  obtain ⟨hpos, -⟩ := entryAt_eq_some.mp hentry
  obtain ⟨list, map, hbuilt, hlength, hnode⟩ := hshown.node hentry
  rw [hbuilt.children _ _ hnode, List.mem_filter, List.mem_range'_1, decide_eq_true_eq,
    Nat.sub_add_cancel hpos, FuseNode.parentOf, List.getElem?_map]
  constructor
  · rintro ⟨hrange, hparent⟩
    obtain ⟨node, hnode, hparent⟩ := Option.bind_eq_some_iff.mp hparent
    obtain ⟨child, hchild, rfl⟩ := Option.map_eq_some_iff.mp hnode
    exact ⟨child, entryAt_eq_some.mpr ⟨by omega, hchild⟩, hparent⟩
  · rintro ⟨child, hchild, hparent⟩
    obtain ⟨hinode, hchild⟩ := entryAt_eq_some.mp hchild
    have hlt := (List.getElem?_eq_some_iff.mp hchild).1
    refine ⟨?_, ?_⟩
    · have hroot : inode ≠ 1 := by
        rintro rfl
        obtain ⟨root, hroot, -, hnone, -⟩ := hbuilt.root
        rw [List.getElem?_map, hchild] at hroot
        obtain rfl := Option.some.inj hroot
        rw [hnone] at hparent
        cases hparent
      omega
    · rw [hchild]
      exact hparent

theorem Shown.pairwise_children (hshown : Shown files) (hentry : entryAt files ino = some entry) :
  entry.children.Pairwise (· < ·)
  := by
  obtain ⟨list, map, hbuilt, -, hnode⟩ := hshown.node hentry
  rw [hbuilt.children _ _ hnode]
  exact List.Pairwise.filter _ List.pairwise_lt_range'

/-- The root is no child. -/
theorem Shown.length_children (hshown : Shown files) (hentry : entryAt files ino = some entry) :
  entry.children.length < files.length
  := by
  obtain ⟨list, map, hbuilt, hlength, hnode⟩ := hshown.node hentry
  have hle : entry.children.length ≤ (List.range' 2 list.length).length := by
    rw [hbuilt.children _ _ hnode]
    exact List.length_filter_le _ _
  rw [List.length_range'] at hle
  omega

/-- Behind inodes that are there the loop of `readdir` has all of them. -/
theorem childEntries_eq {inodes : List ℕ}
    (hthere : ∀ inode ∈ inodes, ∃ child, entryAt files inode = some child) :
  ∃ entries, FuseServer.childEntries files inodes = some entries ∧
    entries.map DirEntry.inode = inodes ∧
    ∀ e ∈ entries, ∃ child, entryAt files e.inode = some child ∧
      e.kind = child.attributes.kind ∧ e.name = child.name
  := by
  induction inodes with
  | nil => exact ⟨[], rfl, rfl, List.forall_mem_nil _⟩
  | cons inode inodes ih =>
      obtain ⟨⟨child, hchild⟩, hrest⟩ := List.forall_mem_cons.mp hthere
      obtain ⟨entries, hentries, hinodes, hall⟩ := ih hrest
      refine ⟨⟨inode, child.attributes.kind, child.name⟩ :: entries, ?_, ?_, ?_⟩
      · rw [FuseServer.childEntries, hchild, Option.bind_some, hentries, Option.map_some]
      · rw [List.map_cons, hinodes]
      · exact List.forall_mem_cons.mpr ⟨⟨child, hchild, rfl, rfl⟩, hall⟩

/-- Behind inodes that are there the loop of `lookup` ends with the first one with the name. -/
theorem findChild_eq (name : String) {inodes : List ℕ}
    (hthere : ∀ inode ∈ inodes, ∃ child, entryAt files inode = some child) :
  (FuseServer.findChild files name inodes = some none ∧
      ∀ inode ∈ inodes, ∀ child, entryAt files inode = some child → child.name ≠ name) ∨
    ∃ inode ∈ inodes, ∃ child, entryAt files inode = some child ∧ child.name = name ∧
      FuseServer.findChild files name inodes = some (some child)
  := by
  induction inodes with
  | nil => exact .inl ⟨rfl, List.forall_mem_nil _⟩
  | cons inode inodes ih =>
      obtain ⟨⟨child, hchild⟩, hrest⟩ := List.forall_mem_cons.mp hthere
      rw [FuseServer.findChild, hchild, Option.bind_some]
      by_cases hname : child.name = name
      · rw [if_pos hname]
        exact .inr ⟨inode, List.mem_cons_self, child, hchild, hname, rfl⟩
      · rw [if_neg hname]
        rcases ih hrest with ⟨hnone, hall⟩ | ⟨inode', hmem, hfound⟩
        · refine .inl ⟨hnone, List.forall_mem_cons.mpr ⟨?_, hall⟩⟩
          intro child' hchild'
          rw [hchild] at hchild'
          obtain rfl := Option.some.inj hchild'
          exact hname
        · exact .inr ⟨inode', List.mem_cons_of_mem _ hmem, hfound⟩

theorem Shown.child (hshown : Shown files) (hentry : entryAt files ino = some entry) :
  ∀ inode ∈ entry.children, ∃ child, entryAt files inode = some child
  := by
  intro inode hmem
  obtain ⟨child, hchild, -⟩ := (hshown.mem_children hentry inode).mp hmem
  exact ⟨child, hchild⟩

/-- No request makes the server panic. -/
theorem Shown.handle (hshown : Shown server.files) (request : Request) :
  ∃ reply server', server.handle request = some (reply, server')
  := by
  cases request with
  | lookup parent name =>
      rw [FuseServer.handle, FuseServer.lookup]
      split_ifs
      · exact ⟨_, _, rfl⟩
      · split
        · exact ⟨_, _, rfl⟩
        · rename_i entry hentry
          split_ifs
          · exact ⟨_, _, rfl⟩
          · rcases findChild_eq name (hshown.child hentry) with
              ⟨hnone, -⟩ | ⟨_, _, _, _, _, hfound⟩
            · rw [hnone]
              exact ⟨_, _, rfl⟩
            · rw [hfound]
              exact ⟨_, _, rfl⟩
  | readdir ino fh offset room =>
      rw [FuseServer.handle, FuseServer.readdir]
      split
      · exact ⟨_, _, rfl⟩
      · rename_i entry hentry
        split_ifs
        · exact ⟨_, _, rfl⟩
        · obtain ⟨entries, hentries, -, -⟩ := childEntries_eq (hshown.child hentry)
          rw [FuseServer.dirEntries, hentries]
          exact ⟨_, _, rfl⟩
        · exact ⟨_, _, rfl⟩
  | loadFileList now files =>
      rw [FuseServer.handle]
      split <;> exact ⟨_, _, rfl⟩
  | init => exact ⟨_, _, rfl⟩
  | opendir => exact ⟨_, _, rfl⟩
  | releasedir => exact ⟨_, _, rfl⟩
  | openFile => exact ⟨_, _, rfl⟩
  | read => exact ⟨_, _, rfl⟩
  | release => exact ⟨_, _, rfl⟩
  | getattr => exact ⟨_, _, rfl⟩

/-! ### The handles along a run -/

/-- The handles in use of an inode. -/
def handlesOf (live : List (ℕ × ℕ)) (ino : ℕ) : List ℕ :=
  (live.filter (·.1 = ino)).map Prod.snd

/-- While there are not too many handles, they are counted up, every node has those in use of its
inode, and those in use were handed out since the last list. -/
structure Inv (s : System) : Prop where
  counter : s.server.fileHandleCounter = s.handed.length % 2 ^ 64
  handed : s.handed.map Prod.snd = List.range s.handed.length
  handlers : ∀ ino entry, entryAt s.server.files ino = some entry →
    entry.fileHandlers = ⟨handlesOf s.live ino, false⟩
  sorted : (s.live.map Prod.snd).Pairwise (· < ·)
  fresh : ∀ x ∈ s.live, (s.lists, x.2) ∈ s.handed
  empty : s.server.files = [] → s.live = []

theorem mem_handlesOf {fh : ℕ} :
  fh ∈ handlesOf live ino ↔ (ino, fh) ∈ live
  := by
  rw [handlesOf, List.mem_map]
  constructor
  · rintro ⟨⟨ino', fh'⟩, hmem, rfl⟩
    obtain ⟨hlive, hino⟩ := List.mem_filter.mp hmem
    obtain rfl : ino' = ino := of_decide_eq_true hino
    exact hlive
  · intro hmem
    exact ⟨(ino, fh), List.mem_filter.mpr ⟨hmem, decide_eq_true rfl⟩, rfl⟩

theorem handlesOf_append (live : List (ℕ × ℕ)) (ino fh ino' : ℕ) :
  handlesOf (live ++ [(ino, fh)]) ino' =
    if ino' = ino then handlesOf live ino' ++ [fh] else handlesOf live ino'
  := by
  rw [handlesOf, handlesOf, List.filter_append, List.map_append]
  split_ifs with hino
  · rw [List.filter_cons_of_pos (by simp [hino])]
    rfl
  · rw [List.filter_cons_of_neg (by simp [Ne.symm hino])]
    exact List.append_nil _

theorem sorted_handlesOf (hsorted : (live.map Prod.snd).Pairwise (· < ·)) (ino : ℕ) :
  (handlesOf live ino).Pairwise (· < ·)
  := by
  rw [List.pairwise_map] at hsorted
  rw [handlesOf, List.pairwise_map]
  exact hsorted.filter _

/-- Handles in use are different. -/
theorem nodup_live (hsorted : (live.map Prod.snd).Pairwise (· < ·)) :
  live.Nodup
  := List.Nodup.of_map Prod.snd (hsorted.imp ne_of_lt)

theorem handlesOf_erase (hsorted : (live.map Prod.snd).Pairwise (· < ·)) (ino fh ino' : ℕ) :
  handlesOf (live.erase (ino, fh)) ino' =
    if ino' = ino then (handlesOf live ino').erase fh else handlesOf live ino'
  := by
  have hnodup := nodup_live hsorted
  have hhandles : (handlesOf live ino').Nodup := (sorted_handlesOf hsorted ino').imp ne_of_lt
  rw [hnodup.erase_eq_filter]
  split_ifs with hino
  · subst hino
    rw [hhandles.erase_eq_filter, handlesOf, handlesOf, List.filter_map, List.filter_filter,
      List.filter_filter]
    congr 1
    apply List.filter_congr
    rintro ⟨ino, handle⟩ -
    rw [Bool.eq_iff_iff]
    by_cases hino : ino = ino' <;> simp [hino]
  · rw [handlesOf, handlesOf, List.filter_filter]
    congr 1
    apply List.filter_congr
    rintro ⟨ino₁, handle⟩ -
    by_cases hino₁ : ino₁ = ino'
    · simp [hino₁, hino]
    · simp [hino₁]

theorem inv_start :
  Inv {}
  := by
  refine ⟨rfl, rfl, ?_, List.Pairwise.nil, List.forall_mem_nil _, fun _ => rfl⟩
  intro ino entry hentry
  obtain ⟨-, hget⟩ := entryAt_eq_some.mp hentry
  cases hget

theorem setHandlers_ne_nil (hentry : entryAt server.files ino = some entry)
    (handles : FileHandles) :
  (server.setHandlers ino handles).files ≠ []
  := by
  obtain ⟨-, hget⟩ := entryAt_eq_some.mp hentry
  have hlt := (List.getElem?_eq_some_iff.mp hget).1
  rw [← List.length_pos_iff, FuseServer.setHandlers, List.length_modify]
  exact Nat.zero_lt_of_lt hlt

/-- A handle that is handed out is a new one. -/
theorem Inv.opened (hinv : Inv s) (hentry : entryAt s.server.files ino = some entry)
    (hfew : s.handed.length < 2 ^ 64) :
  Inv
    { s with
      server :=
        { s.server with
          fileHandleCounter := fetchAdd s.server.fileHandleCounter }.setHandlers ino
          (entry.fileHandlers.addHandler s.server.fileHandleCounter)
      live := s.live ++ [(ino, s.server.fileHandleCounter)]
      handed := s.handed ++ [(s.lists, s.server.fileHandleCounter)] }
  := by
  have hcounter : s.server.fileHandleCounter = s.handed.length := by
    rw [hinv.counter, Nat.mod_eq_of_lt hfew]
  constructor
  · change fetchAdd s.server.fileHandleCounter = _
    rw [fetchAdd, hcounter, List.length_append, List.length_singleton]
  · rw [List.map_append, hinv.handed, List.length_append, List.length_singleton, List.range_succ,
      List.map_singleton, hcounter]
  · intro ino' entry' hentry'
    have hset := @entryAt_setHandlers entry ino
      { s.server with fileHandleCounter := fetchAdd s.server.fileHandleCounter } hentry
    rw [hset] at hentry'
    rw [handlesOf_append]
    split_ifs at hentry' with hino
    · obtain rfl := Option.some.inj hentry'
      rw [if_pos hino, hino, hinv.handlers ino entry hentry]
      rfl
    · rw [if_neg hino]
      exact hinv.handlers ino' entry' hentry'
  · rw [List.map_append, List.pairwise_append]
    refine ⟨hinv.sorted, List.pairwise_singleton _ _, ?_⟩
    intro fh hfh new hnew
    obtain rfl := List.mem_singleton.mp hnew
    obtain ⟨x, hx, rfl⟩ := List.mem_map.mp hfh
    have hmem : x.2 ∈ s.handed.map Prod.snd :=
      List.mem_map.mpr ⟨(s.lists, x.2), hinv.fresh x hx, rfl⟩
    rw [hinv.handed, List.mem_range] at hmem
    rwa [hcounter]
  · rw [List.forall_mem_append, List.forall_mem_singleton]
    refine ⟨?_, List.mem_append_right _ List.mem_cons_self⟩
    intro x hx
    exact List.mem_append_left _ (hinv.fresh x hx)
  · intro hnil
    exact (setHandlers_ne_nil hentry _ hnil).elim

/-- A handle that is released is no longer in use. -/
theorem Inv.released (hinv : Inv s) {fh : ℕ} {handles : FileHandles}
    (hentry : entryAt s.server.files ino = some entry)
    (hhandles : entry.fileHandlers.unregister fh = some handles) :
  Inv { s with server := s.server.setHandlers ino handles, live := s.live.erase (ino, fh) }
  := by
  have hof := hinv.handlers ino entry hentry
  constructor
  · exact hinv.counter
  · exact hinv.handed
  · intro ino' entry' hentry'
    rw [entryAt_setHandlers hentry] at hentry'
    rw [handlesOf_erase hinv.sorted]
    split_ifs at hentry' with hino
    · obtain rfl := Option.some.inj hentry'
      rw [FileHandles.unregister, hof] at hhandles
      obtain ⟨idx, hidx, rfl⟩ := Option.map_eq_some_iff.mp hhandles
      have hsorted := sorted_handlesOf hinv.sorted ino
      rw [if_pos hino, hino, ← BinarySearch.eraseIdx_binarySearch hsorted hidx]
    · rw [if_neg hino]
      exact hinv.handlers ino' entry' hentry'
  · exact hinv.sorted.sublist (List.erase_sublist.map Prod.snd)
  · intro x hx
    exact hinv.fresh x (List.mem_of_mem_erase hx)
  · intro hnil
    exact (setHandlers_ne_nil hentry _ hnil).elim

/-- A list has no handles in use. -/
theorem Inv.load (hinv : Inv s) {now : ℕ → Int} {files : List FileDescription}
    (hload : s.server.loadFileList now files = .ok server) :
  Inv { s with server, live := [], lists := s.lists + 1 }
  := by
  obtain ⟨state, -, rfl⟩ := loadFileList_ok hload
  refine ⟨hinv.counter, hinv.handed, ?_, List.Pairwise.nil, List.forall_mem_nil _, fun _ => rfl⟩
  intro ino entry hentry
  obtain ⟨-, hget⟩ := entryAt_eq_some.mp hentry
  rw [List.getElem?_map] at hget
  obtain ⟨node, -, rfl⟩ := Option.map_eq_some_iff.mp hget
  rfl

/-- The handles that were handed out are never fewer. -/
theorem handed_le (hstep : s.step request = some s') :
  s.handed.length ≤ s'.handed.length
  := by
  cases step_effect hstep with
  | same => exact le_rfl
  | init => exact le_rfl
  | load => exact le_rfl
  | opened =>
      rw [List.length_append]
      exact Nat.le_add_right _ _
  | released => exact le_rfl

theorem Inv.step (hinv : Inv s) (hstep : s.step request = some s')
    (hfew : s'.handed.length ≤ 2 ^ 64) :
  Inv s'
  := by
  cases step_effect hstep with
  | same => exact hinv
  | init now hnil =>
      refine ⟨hinv.counter, hinv.handed, ?_, hinv.sorted, hinv.fresh, fun _ => hinv.empty hnil⟩
      intro ino entry hentry
      obtain ⟨-, hget⟩ := entryAt_eq_some.mp hentry
      change entry.fileHandlers = ⟨handlesOf s.live ino, false⟩
      rw [hinv.empty hnil]
      obtain rfl := List.mem_singleton.mp (List.mem_of_getElem? hget)
      rfl
  | load hload => exact hinv.load hload
  | opened hentry _ =>
      rw [List.length_append] at hfew
      exact hinv.opened hentry hfew
  | released hentry hhandles => exact hinv.released hentry hhandles

theorem inv_of_run (hrun : Run (fun s request s' => System.step s request = some s') {} h s)
    (hfew : s.handed.length ≤ 2 ^ 64) :
  Inv s
  := by
  have hall := hrun.invariant (fun s => s.handed.length ≤ 2 ^ 64 → Inv s) (fun _ => inv_start) ?_
  · exact hall hfew
  · intro s request s' hinv hstep hfew
    exact (hinv ((handed_le hstep).trans hfew)).step hstep hfew

/-- A handle is good for an inode exactly when it is in use for it. -/
theorem Inv.haveHandler_iff (hinv : Inv s) (hentry : entryAt s.server.files ino = some entry)
    (fh : ℕ) :
  entry.fileHandlers.haveHandler fh = true ↔ (ino, fh) ∈ s.live
  := by
  rw [FileHandles.haveHandler, hinv.handlers ino entry hentry,
    BinarySearch.isSome_binarySearch_iff (sorted_handlesOf hinv.sorted ino), mem_handlesOf]

/-- No request makes the server panic, and no handle is handed out twice in the first `2 ^ 64` ones.
The handles of an inode grow, so that the search finds those that are in use for it.  These were
handed out after the last list came. -/
theorem System.handles_of_run
    (hrun : Run (fun s request s' => System.step s request = some s') {} h s)
    (hfew : s.handed.length ≤ 2 ^ 64) :
  (∀ request, ∃ s', s.step request = some s') ∧ (s.handed.map Prod.snd).Nodup ∧
    (∀ ino entry, entryAt s.server.files ino = some entry →
      entry.fileHandlers.handlers.Pairwise (· < ·) ∧
        ∀ fh, entry.fileHandlers.haveHandler fh = true ↔ (ino, fh) ∈ s.live) ∧
    ∀ x ∈ s.live, (s.lists, x.2) ∈ s.handed
  := by
  have hinv := inv_of_run hrun hfew
  refine ⟨?_, ?_, ?_, hinv.fresh⟩
  · intro request
    obtain ⟨reply, server, hhandle⟩ := (tree_of_run hrun).handle request
    exact ⟨_, by rw [System.step, hhandle, Option.map_some]⟩
  · rw [hinv.handed]
    exact List.nodup_range
  · intro ino entry hentry
    refine ⟨?_, hinv.haveHandler_iff hentry⟩
    rw [hinv.handlers ino entry hentry]
    exact sorted_handlesOf hinv.sorted ino

/-- Two handles are in use when another list comes; one of them is released afterwards. -/
def sampleRequests : List Request :=
  [.init 0, .loadFileList (fun _ => 0) FuseNode.twoDirectories, .openFile 4, .opendir 1,
    .openFile 4, .release 4 0, .loadFileList (fun _ => 0) FuseNode.twoDirectories, .openFile 4,
    .release 4 2]

/-- What comes in while a file is read: the answer to another reader, a failure and the bytes. -/
def sampleReplies : List ClipboardFile :=
  [.fileContentsResponse 1 6 [9], .fileContentsResponse 2 7 [], .fileContentsResponse 1 7 [1, 2, 3]]

theorem System.handles_of_run_sample :
  ∃ h s, Run (fun s request s' => System.step s request = some s') {} h s ∧
    s.live = [(4, 3)] ∧ s.handed = [(1, 0), (1, 1), (1, 2), (2, 3)] ∧
    (s.handed.map Prod.snd).Nodup
  := by
  obtain ⟨h, s, hrun, htest⟩ := Run.exists_of_traceM System.step {} sampleRequests
    (fun _ s => s.live = [(4, 3)] ∧ s.handed = [(1, 0), (1, 1), (1, 2), (2, 3)])
    (by decide +kernel)
  obtain ⟨hlive, hhanded⟩ := of_decide_eq_true htest
  have hfew : s.handed.length ≤ 2 ^ 64 := by
    rw [hhanded]
    decide
  exact ⟨h, s, hrun, hlive, hhanded, (System.handles_of_run hrun hfew).2.1⟩

/-- What is received is what the peer answers to the request; the request is sent again three times
at most. -/
theorem receive_cases (streamId : BitVec 32) (takes : ℕ → Bool) (replies : List ClipboardFile)
    {retryTimes : ℕ} (hretry : retryTimes ≤ readRetry) :
  (FuseServer.receive streamId takes replies retryTimes).2 ≤ readRetry ∧
    ∀ bytes, (FuseServer.receive streamId takes replies retryTimes).1 = some bytes →
      ∃ msgFlags, ClipboardFile.fileContentsResponse msgFlags streamId bytes ∈ replies ∧
        msgFlags &&& 1 ≠ 0
  := by
  induction replies generalizing retryTimes with
  | nil =>
      refine ⟨hretry, ?_⟩
      intro bytes hbytes
      cases hbytes
  | cons reply replies ih =>
      cases reply with
      | fileContentsResponse msgFlags id requestedData =>
          rw [FuseServer.receive]
          split_ifs with hid hfailed hlast htakes
          · refine ⟨(ih hretry).1, ?_⟩
            intro bytes hbytes
            obtain ⟨flags, hmem, hflags⟩ := (ih hretry).2 bytes hbytes
            exact ⟨flags, List.mem_cons_of_mem _ hmem, hflags⟩
          · refine ⟨hretry, ?_⟩
            intro bytes hbytes
            cases hbytes
          · have hnext : retryTimes + 1 ≤ readRetry := Nat.le_of_not_lt hlast
            refine ⟨(ih hnext).1, ?_⟩
            intro bytes hbytes
            obtain ⟨flags, hmem, hflags⟩ := (ih hnext).2 bytes hbytes
            exact ⟨flags, List.mem_cons_of_mem _ hmem, hflags⟩
          · refine ⟨hretry, ?_⟩
            intro bytes hbytes
            cases hbytes
          · refine ⟨hretry, ?_⟩
            intro bytes hbytes
            obtain rfl := Option.some.inj hbytes
            rw [not_not] at hid
            exact ⟨msgFlags, hid ▸ List.mem_cons_self, hfailed⟩
      | fileContentsRequest =>
          refine ⟨hretry, ?_⟩
          intro bytes hbytes
          cases hbytes
      | files =>
          refine ⟨hretry, ?_⟩
          intro bytes hbytes
          cases hbytes

/-- The request that a reader of an entry sends. -/
def requestOf (entry : Entry) (offset : BitVec 64) (size streamId : BitVec 32) : ClipboardFile :=
  (⟨entry.connId, BitVec.ofNat 64 entry.index⟩ : FileNode).readNode streamId offset size

/-- A read asks the peer through a handle that is in use for a file, when the request can be
sent. -/
theorem Inv.read_cases (hinv : Inv s) (ino fh : ℕ) (offset : BitVec 64) (size streamId : BitVec 32)
    (takes : ℕ → Bool) (replies : List ClipboardFile) :
  (∃ errno, s.server.read ino fh offset size streamId takes replies = (.error errno, []) ∧
      ¬((ino, fh) ∈ s.live ∧ takes 0 = true ∧
        ∃ entry, entryAt s.server.files ino = some entry ∧ entry.attributes.kind = .File)) ∨
    ∃ entry, entryAt s.server.files ino = some entry ∧ (ino, fh) ∈ s.live ∧ takes 0 = true ∧
      entry.attributes.kind = .File ∧
      s.server.read ino fh offset size streamId takes replies =
        (((FuseServer.receive streamId takes replies 0).1.map Reply.data).getD (.error .eio),
          List.replicate ((FuseServer.receive streamId takes replies 0).2 + 1)
            (requestOf entry offset size streamId))
  := by
  rw [FuseServer.read]
  split
  · rename_i hnone
    refine .inl ⟨_, rfl, ?_⟩
    rintro ⟨-, -, entry, hentry, -⟩
    rw [hnone] at hentry
    cases hentry
  · rename_i entry hentry
    have hmarked : entry.fileHandlers.marked = false := by
      rw [hinv.handlers ino entry hentry]
      rfl
    split_ifs with hhave hkind hgc
    · refine .inl ⟨_, rfl, ?_⟩
      rintro ⟨-, -, entry', hentry', hfile⟩
      rw [hentry] at hentry'
      obtain rfl := Option.some.inj hentry'
      exact hkind hfile
    · rw [hmarked] at hgc
      cases hgc
    · rw [not_not] at hkind
      have hlive := (hinv.haveHandler_iff hentry fh).mp hhave
      rw [FuseServer.readNode]
      by_cases htakes : takes 0 = true
      · rw [if_pos htakes]
        exact .inr ⟨entry, hentry, hlive, htakes, hkind, rfl⟩
      · rw [if_neg htakes]
        exact .inl ⟨.eio, rfl, fun h => htakes h.2.1⟩
    · refine .inl ⟨_, rfl, ?_⟩
      rintro ⟨hlive, -⟩
      exact hhave ((hinv.haveHandler_iff hentry fh).mpr hlive)

/-- The peer is asked for a file through a handle that is in use for it, when the request can be
sent, and not otherwise: for the range, and four times at most.  A read that does not ask is answered
with an error, and the bytes that are read are the peer's answer. -/
theorem System.read_of_run
    (hrun : Run (fun s request s' => System.step s request = some s') {} h s)
    (hfew : s.handed.length ≤ 2 ^ 64) (ino fh : ℕ) (offset : BitVec 64) (size streamId : BitVec 32)
    (takes : ℕ → Bool) (replies : List ClipboardFile) :
  let (reply, sent) := s.server.read ino fh offset size streamId takes replies
  (sent ≠ [] ↔ (ino, fh) ∈ s.live ∧ takes 0 = true ∧
      ∃ entry, entryAt s.server.files ino = some entry ∧ entry.attributes.kind = .File) ∧
    (sent = [] → ∃ errno, reply = .error errno) ∧
    sent.length ≤ readRetry + 1 ∧
    (∀ entry, entryAt s.server.files ino = some entry →
      ∀ request ∈ sent, request = requestOf entry offset size streamId) ∧
    ∀ bytes, reply = .data bytes →
      ∃ msgFlags, ClipboardFile.fileContentsResponse msgFlags streamId bytes ∈ replies ∧
        msgFlags &&& 1 ≠ 0
  := by
  rcases (inv_of_run hrun hfew).read_cases ino fh offset size streamId takes replies with
    ⟨errno, hread, hnot⟩ | ⟨entry, hentry, hlive, htakes, hfile, hread⟩
  · rw [hread]
    refine ⟨⟨fun hne => (hne rfl).elim, fun h => (hnot h).elim⟩, fun _ => ⟨errno, rfl⟩,
      Nat.zero_le _, ?_, ?_⟩
    · intro _ _ request hrequest
      cases hrequest
    · intro bytes hbytes
      cases hbytes
  · obtain ⟨hsent, hdata⟩ := receive_cases streamId takes replies (Nat.zero_le readRetry)
    rw [hread]
    refine ⟨⟨fun _ => ⟨hlive, htakes, entry, hentry, hfile⟩, fun _ => List.cons_ne_nil _ _⟩,
      fun hnil => absurd hnil (List.cons_ne_nil _ _), ?_, ?_, ?_⟩
    · rw [List.length_replicate]
      exact Nat.succ_le_succ hsent
    · intro entry' hentry' request hrequest
      rw [hentry] at hentry'
      obtain rfl := Option.some.inj hentry'
      exact List.eq_of_mem_replicate hrequest
    · intro bytes hbytes
      cases hreceived : (FuseServer.receive streamId takes replies 0).1 with
      | none =>
          rw [hreceived] at hbytes
          cases hbytes
      | some received =>
          rw [hreceived] at hbytes
          obtain rfl := Reply.data.inj hbytes
          exact hdata received hreceived

/-- A read of an open file: another reader's answer is passed over, and a failure is tried again.
Nothing is asked when the request cannot be sent. -/
theorem System.read_of_run_sample :
  ∃ h s, Run (fun s request s' => System.step s request = some s') {} h s ∧
    (s.server.read 4 0 0 3 7 (fun _ => true) sampleReplies).2.length ≤ 4 ∧
    (∃ msgFlags, ClipboardFile.fileContentsResponse msgFlags 7 [1, 2, 3] ∈ sampleReplies ∧
      msgFlags &&& 1 ≠ 0) ∧
    (s.server.read 4 0 0 3 7 (fun _ => false) sampleReplies).2 = []
  := by
  obtain ⟨h, s, hrun, htest⟩ := Run.exists_of_traceM System.step {} (sampleRequests.take 3)
    (fun _ s => s.handed.length ≤ 2 ^ 64 ∧
      (s.server.read 4 0 0 3 7 (fun _ => true) sampleReplies).1 = .data [1, 2, 3])
    (by decide +kernel)
  obtain ⟨hfew, hdata⟩ := of_decide_eq_true htest
  obtain ⟨-, -, hsent, -, hbytes⟩ :=
    System.read_of_run hrun hfew 4 0 0 3 7 (fun _ => true) sampleReplies
  obtain ⟨hasked, -⟩ := System.read_of_run hrun hfew 4 0 0 3 7 (fun _ => false) sampleReplies
  refine ⟨h, s, hrun, hsent, hbytes _ hdata, not_not.mp fun hne => ?_⟩
  exact Bool.false_ne_true (hasked.mp hne).2.1

/-! ### Directories -/

/-- The entries that `readdir` gives, unless it fails. -/
def FuseServer.listing (self : FuseServer) (ino fh offset room : ℕ) :
    Option (List (DirEntry × ℕ)) :=
  (self.readdir ino fh offset room).bind fun reply =>
    match reply with
    | .directory entries => some entries
    | _ => none

/-- A directory that is open is listed whole, whatever room there is for its pages, which are all
read before anything else happens: itself, its parent, and then the nodes whose parent it is, in the
order of the list and each once. -/
theorem System.listed_of_run
    (hrun : Run (fun s request s' => System.step s request = some s') {} h s)
    (hfew : s.handed.length ≤ 2 ^ 64) {ino fh : ℕ} (hlive : (ino, fh) ∈ s.live) {entry : Entry}
    (hentry : entryAt s.server.files ino = some entry) (hkind : entry.attributes.kind = .Directory)
    {rooms : List ℕ} (hrooms : ∀ room ∈ rooms, 0 < room)
    (hlength : s.server.files.length + 1 < rooms.length) :
  ∃ children : List DirEntry,
    Paging.readPages (s.server.listing ino fh) rooms 0 = some
      (⟨ino, .Directory, "."⟩ :: (entry.parent.toList.map fun p => ⟨p, .Directory, ".."⟩)
        ++ children) ∧
    (children.map DirEntry.inode).Pairwise (· < ·) ∧
    ∀ e, e ∈ children ↔ ∃ child, entryAt s.server.files e.inode = some child ∧
      child.parent = some ino ∧ e.kind = child.attributes.kind ∧ e.name = child.name
  := by
  have hshown := tree_of_run hrun
  obtain ⟨children, hchildren, hinodes, hall⟩ := childEntries_eq (hshown.child hentry)
  have hpairwise := hshown.pairwise_children hentry
  have hpages : ∀ offset room, s.server.listing ino fh offset room = some (Paging.page
      (⟨ino, .Directory, "."⟩ :: (entry.parent.toList.map fun p => ⟨p, .Directory, ".."⟩)
        ++ children) offset room) := by
    intro offset room
    have hhave := ((inv_of_run hrun hfew).haveHandler_iff hentry fh).mpr hlive
    rw [FuseServer.listing, FuseServer.readdir, hentry]
    dsimp only
    rw [if_neg (not_not_intro hhave), if_neg (not_not_intro hkind), FuseServer.dirEntries,
      hchildren]
    rfl
  refine ⟨children, ?_, hinodes ▸ hpairwise, ?_⟩
  · rw [Paging.readPages_eq hpages hrooms, List.drop_zero]
    have hfewer := hshown.length_children hentry
    rw [← hinodes, List.length_map] at hfewer
    have hparent : entry.parent.toList.length ≤ 1 := by
      cases entry.parent with
      | none => exact Nat.zero_le 1
      | some p => exact Nat.le_refl 1
    simp only [List.cons_append, List.length_cons, List.length_append, List.length_map]
    omega
  · intro e
    constructor
    · intro he
      have hmem : e.inode ∈ entry.children := by
        rw [← hinodes]
        exact List.mem_map_of_mem he
      obtain ⟨child, hchild, hparent⟩ := (hshown.mem_children hentry e.inode).mp hmem
      obtain ⟨child', hchild', hkind', hname'⟩ := hall e he
      rw [hchild] at hchild'
      obtain rfl := Option.some.inj hchild'
      exact ⟨child, hchild, hparent, hkind', hname'⟩
    · rintro ⟨child, hchild, hparent, hkind', hname'⟩
      have hmem := (hshown.mem_children hentry e.inode).mpr ⟨child, hchild, hparent⟩
      rw [← hinodes] at hmem
      obtain ⟨e', he', hinode⟩ := List.mem_map.mp hmem
      obtain ⟨child', hchild', hkind₁, hname₁⟩ := hall e' he'
      rw [hinode, hchild] at hchild'
      obtain rfl := Option.some.inj hchild'
      have heq : e = e' := by
        cases e
        cases e'
        simp_all
      rwa [heq]

theorem System.listed_of_run_sample :
  ∃ h s, Run (fun s request s' => System.step s request = some s') {} h s ∧
    ∃ children, Paging.readPages (s.server.listing 1 1) [1, 2, 1, 1, 3, 1] 0 = some
      (⟨1, .Directory, "."⟩ :: children)
  := by
  obtain ⟨h, s, hrun, htest⟩ := Run.exists_of_traceM System.step {} (sampleRequests.take 4)
    (fun _ s => s.handed.length ≤ 2 ^ 64 ∧ (1, 1) ∈ s.live ∧ s.server.files.length = 4 ∧
      (entryAt s.server.files 1).any fun entry => entry.attributes.kind = .Directory)
    (by decide +kernel)
  obtain ⟨hfew, hlive, hlength, hany⟩ := of_decide_eq_true htest
  obtain ⟨entry, hentry, hkind⟩ := (Option.any_eq_true _ _).mp hany
  have hrooms : ∀ room ∈ [1, 2, 1, 1, 3, 1], 0 < room := by
    decide
  have henough : s.server.files.length + 1 < [1, 2, 1, 1, 3, 1].length := by
    rw [hlength]
    decide
  obtain ⟨children, hread, -⟩ := System.listed_of_run hrun hfew hlive hentry
    (of_decide_eq_true hkind) hrooms henough
  exact ⟨h, s, hrun, _, hread⟩

end VynxDesk.Clipboard.Fuse
