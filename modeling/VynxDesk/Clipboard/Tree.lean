import Mathlib.Data.List.Induction
import VynxDesk.Clipboard.Descriptor
import VynxDesk.Lib.UnixPath

/-!
# The tree of a file list

`FuseNode::build_tree` of `platform/unix/fuse/cs.rs` makes a tree of the list of a peer: a node for
every description behind the root, each a child of the directory its path is in.  What it makes is
well formed (`FuseNode.wellFormed_of_buildTree`).
-/

namespace VynxDesk.Clipboard.Fuse

open UnixPath

/-- `FUSE_ROOT_ID`. -/
def fuseRootId : ℕ := 1

/-- `PERM_RWX`. -/
def permRwx : BitVec 16 := 0o755

/-- `InodeAttributes`. -/
structure InodeAttributes where
  inode : ℕ
  size : BitVec 64
  lastAccessed : Int
  lastModified : Int
  lastMetadataChanged : Int
  creationTime : Int
  kind : FileType
  perm : BitVec 16
  deriving DecidableEq, Repr

namespace InodeAttributes

/-- `new`, with the time it is. -/
def new (now : Int) (inode : ℕ) (size : BitVec 64) (perm : BitVec 16) (kind : FileType) :
    InodeAttributes where
  inode := inode
  size := size
  lastAccessed := now
  lastModified := now
  lastMetadataChanged := now
  creationTime := now
  kind := kind
  perm := perm

/-- `from_description`, with the time it is. -/
def fromDescription (now : Int) (inode : ℕ) (desc : FileDescription) : InodeAttributes where
  inode := inode
  size := desc.size
  lastAccessed := now
  lastModified := desc.lastModified
  lastMetadataChanged := desc.lastMetadataChanged
  creationTime := desc.creationTime
  kind := desc.kind
  perm := desc.perm

/-- `new_root`. -/
def newRoot (now : Int) : InodeAttributes := new now fuseRootId 0 permRwx .Directory

end InodeAttributes

/-- `FuseNode`. -/
structure FuseNode where
  connId : BitVec 32
  index : ℕ
  parent : Option ℕ
  name : String
  attributes : InodeAttributes
  children : List ℕ
  deriving DecidableEq, Repr

namespace FuseNode

/-- `from_description`. -/
def fromDescription (now : Int) (inode : ℕ) (desc : FileDescription) : FuseNode where
  connId := desc.connId
  index := inode - 2
  parent := none
  name := desc.name
  attributes := .fromDescription now inode desc
  children := []

/-- `new_root`. -/
def newRoot (now : Int) : FuseNode where
  connId := 0
  index := 0
  parent := none
  name := "/"
  attributes := .newRoot now
  children := []

/-- `add_child`. -/
def addChild (inode : ℕ) (self : FuseNode) : FuseNode :=
  { self with children := self.children ++ [inode] }

/-- The inodes of the directories by their paths, the last one first. -/
abbrev SubRootMap := List (List Component × ℕ)

/-- The error of a path without a name. -/
def invalidFileName (file : FileDescription) : CliprdrError :=
  .FileError file.name (.invalidData ("invalid file name " ++ file.name))

/-- The loop of `build_tree`, for one file. -/
def addFile (now : ℕ → Int) (state : List FuseNode × SubRootMap) (file : FileDescription) :
    Except CliprdrError (List FuseNode × SubRootMap) :=
  let (treeList, subRootMap) := state
  let name := components file.name
  let inode := treeList.length + fuseRootId
  let parentInode :=
    match UnixPath.parent name with
    | some parent => (subRootMap.lookup parent).getD fuseRootId
    | none => fuseRootId
  let treeList := treeList.modify (parentInode - 1) (addChild inode)
  match fileName name with
  | none => .error (invalidFileName file)
  | some baseName =>
      let desc := file
      let subRootMap :=
        if desc.kind = .Directory then (components desc.name, inode) :: subRootMap else subRootMap
      let desc := { desc with name := baseName }
      let fuseNode := fromDescription (now inode) inode desc
      let fuseNode := { fuseNode with parent := some parentInode }
      .ok (treeList ++ [fuseNode], subRootMap)

/-- `build_tree`, with the times at which the nodes are made. -/
def buildTree (now : ℕ → Int) (files : List FileDescription) :
    Except CliprdrError (List FuseNode) :=
  let treeList := [newRoot (now fuseRootId)]
  let subRootMap := [(components "", fuseRootId), (components "/", fuseRootId)]
  (files.foldlM (addFile now) (treeList, subRootMap)).map Prod.fst

/-! ### What the tree is to be -/

/-- A directory at a path. -/
def IsDirectoryAt (path : List Component) (file : FileDescription) : Prop :=
  file.kind = .Directory ∧ components file.name = path

/-- The inode of the last directory of a list at a path, or the root when there is none. -/
def IsLatest (files : List FileDescription) (path : List Component) (inode : ℕ) : Prop :=
  (inode = fuseRootId ∧ ∀ file ∈ files, ¬ IsDirectoryAt path file) ∨
    ∃ before file after, files = before ++ file :: after ∧ IsDirectoryAt path file ∧
      inode = before.length + 2 ∧ ∀ later ∈ after, ¬ IsDirectoryAt path later

/-- The parent of an inode. -/
def parentOf (tree : List FuseNode) (inode : ℕ) : Option ℕ :=
  (tree[inode - 1]?).bind FuseNode.parent

/-- What a node is that is made of a description: `before` are the descriptions before it. -/
structure Describes (before : List FileDescription) (file : FileDescription) (node : FuseNode) :
    Prop where
  inode : node.attributes.inode = before.length + 2
  index : node.index = before.length
  name : fileName (components file.name) = some node.name
  kind : node.attributes.kind = file.kind
  parent : ∃ path inode, UnixPath.parent (components file.name) = some path ∧
    node.parent = some inode ∧ IsLatest before path inode

/-- A well-formed tree of a list: a node for the root and one for every description; every other
inode is a child of its parent and of no other node, once and in the order of the list; a parent has
the smaller inode, and is a directory. -/
structure WellFormed (files : List FileDescription) (tree : List FuseNode) : Prop where
  length : tree.length = files.length + 1
  root : ∃ root, tree[0]? = some root ∧ root.attributes.inode = fuseRootId ∧ root.parent = none
  node : ∀ before file after, files = before ++ file :: after →
    ∃ node, tree[before.length + 1]? = some node ∧ Describes before file node
  child : ∀ inode, 2 ≤ inode → inode ≤ tree.length → ∃ parent, parentOf tree inode = some parent ∧
    ∀ i node, tree[i]? = some node → node.children.count inode = if parent = i + 1 then 1 else 0
  inodes : ∀ node ∈ tree, ∀ inode ∈ node.children, 2 ≤ inode ∧ inode ≤ tree.length
  order : ∀ node ∈ tree, node.children.Pairwise (· < ·)
  smaller : ∀ inode parent, parentOf tree inode = some parent → 1 ≤ parent ∧ parent < inode
  directory : ∀ node ∈ tree, node.children ≠ [] → node.attributes.kind = .Directory

/-! ### A file that is added -/

variable {now : ℕ → Int} {files : List FileDescription} {file : FileDescription}
  {tree : List FuseNode} {map : SubRootMap} {node : FuseNode} {inode parentInode : ℕ}
  {state : List FuseNode × SubRootMap} {path : List Component}

/-- The node of a file. -/
def nodeOf (now : ℕ → Int) (inode parentInode : ℕ) (name : String) (file : FileDescription) :
    FuseNode :=
  { fromDescription (now inode) inode { file with name := name } with parent := some parentInode }

/-- A tree with one node more, a child of a node it has. -/
def grown (tree : List FuseNode) (inode parentInode : ℕ) (node : FuseNode) : List FuseNode :=
  tree.modify (parentInode - 1) (addChild inode) ++ [node]

/-- A file with a name is added as a child of the last directory at the parent of its path. -/
theorem addFile_ok (h : addFile now (tree, map) file = .ok state) :
  ∃ name path inode parentInode, fileName (components file.name) = some name ∧
    UnixPath.parent (components file.name) = some path ∧ inode = tree.length + fuseRootId ∧
    parentInode = (map.lookup path).getD fuseRootId ∧
    state = (grown tree inode parentInode (nodeOf now inode parentInode name file),
      if file.kind = .Directory then (components file.name, inode) :: map else map)
  := by
  rw [addFile] at h
  cases hname : fileName (components file.name) with
  | none =>
      simp only [hname] at h
      cases h
  | some name =>
      obtain ⟨-, hparent⟩ := parent_of_fileName hname
      simp only [hname, hparent] at h
      exact ⟨name, _, _, _, rfl, hparent, rfl, rfl, (Except.ok.inj h).symm⟩

/-- What a map tells of a path, when one more file is added to a list. -/
theorem IsLatest.snoc (h : IsLatest files path inode) (hnot : ¬ IsDirectoryAt path file) :
  IsLatest (files ++ [file]) path inode
  := by
  rcases h with ⟨rfl, hnone⟩ | ⟨before, directory, after, rfl, hdirectory, rfl, hlater⟩
  · left
    rw [List.forall_mem_append, List.forall_mem_singleton]
    exact ⟨rfl, hnone, hnot⟩
  · right
    refine ⟨before, directory, after ++ [file], ?_, hdirectory, rfl, ?_⟩
    · simp
    · rw [List.forall_mem_append, List.forall_mem_singleton]
      exact ⟨hlater, hnot⟩

theorem isLatest_snoc_self (h : IsDirectoryAt path file) :
  IsLatest (files ++ [file]) path (files.length + 2)
  := by
  right
  exact ⟨files, file, [], rfl, h, rfl, List.forall_mem_nil _⟩

/-- A directory is found where its path says, and the others as before. -/
theorem isLatest_map (hmap : ∀ path, IsLatest files path ((map.lookup path).getD fuseRootId))
    (path : List Component) :
  IsLatest (files ++ [file]) path
    (((if file.kind = .Directory then (components file.name, files.length + 2) :: map
      else map).lookup path).getD fuseRootId)
  := by
  split_ifs with hkind
  · by_cases hpath : path = components file.name
    · rw [List.lookup_cons, hpath, beq_self_eq_true, Option.getD_some]
      exact isLatest_snoc_self ⟨hkind, rfl⟩
    · have hne : (path == components file.name) = false := by
        simp [hpath]
      rw [List.lookup_cons, hne]
      apply (hmap path).snoc
      rintro ⟨-, heq⟩
      exact hpath heq.symm
  · apply (hmap path).snoc
    rintro ⟨hdirectory, -⟩
    exact hkind hdirectory

theorem getElem?_grown {i : ℕ} (hi : i < tree.length) :
  (grown tree inode parentInode node)[i]?
    = (tree[i]?).map fun n => if parentInode - 1 = i then addChild inode n else n
  := by
  rw [grown, List.getElem?_append_left (by rwa [List.length_modify]), List.getElem?_modify]
  split_ifs <;> rfl

theorem getElem?_grown_last :
  (grown tree inode parentInode node)[tree.length]? = some node
  := by
  rw [grown, List.getElem?_append_right (by rw [List.length_modify]), List.length_modify,
    Nat.sub_self]
  rfl

/-- The nodes there are keep their parents. -/
theorem parentOf_grown {i : ℕ} (hi : i < tree.length + 1) (hpos : 1 ≤ i) :
  parentOf (grown tree inode parentInode node) i = parentOf tree i
  := by
  rw [parentOf, parentOf, getElem?_grown (by omega)]
  cases tree[i - 1]? with
  | none => rfl
  | some n =>
      rw [Option.map_some]
      split_ifs <;> rfl

theorem parentOf_grown_last :
  parentOf (grown tree inode parentInode node) (tree.length + 1) = node.parent
  := by
  rw [parentOf, Nat.add_sub_cancel, getElem?_grown_last]
  rfl

/-- What holds behind every file: the children of a node are the inodes whose parent it is. -/
structure Built (files : List FileDescription) (tree : List FuseNode) (map : SubRootMap) : Prop where
  length : tree.length = files.length + 1
  root : ∃ root, tree[0]? = some root ∧ root.attributes.inode = fuseRootId ∧ root.parent = none ∧
    root.attributes.kind = .Directory
  node : ∀ before file after, files = before ++ file :: after →
    ∃ node, tree[before.length + 1]? = some node ∧ Describes before file node
  children : ∀ i node, tree[i]? = some node →
    node.children = (List.range' 2 files.length).filter fun inode => parentOf tree inode = some (i + 1)
  parent : ∀ inode ∈ List.range' 2 files.length, ∃ parent, parentOf tree inode = some parent ∧
    1 ≤ parent ∧ parent < inode
  map : ∀ path, IsLatest files path ((map.lookup path).getD fuseRootId)

theorem built_nil :
  Built [] [newRoot (now fuseRootId)] [(components "", fuseRootId), (components "/", fuseRootId)]
  := by
  constructor
  · rfl
  · exact ⟨_, rfl, rfl, rfl, rfl⟩
  · intro before file after h
    simp at h
  · intro i node hnode
    cases i with
    | zero =>
        cases hnode
        rfl
    | succ i => cases hnode
  · nofun
  · intro path
    left
    constructor
    · rw [List.lookup_cons, List.lookup_cons, List.lookup_nil]
      split
      · rfl
      · split <;> rfl
    · apply List.forall_mem_nil

/-- The last directory at a path has an inode of the tree. -/
theorem Built.latest_le (h : IsLatest files path inode) :
  1 ≤ inode ∧ inode ≤ files.length + 1
  := by
  rcases h with ⟨rfl, -⟩ | ⟨before, directory, after, rfl, -, rfl, -⟩
  · exact ⟨Nat.le_refl _, Nat.le_add_left _ _⟩
  · simp only [List.length_append, List.length_cons]
    omega

/-- A node that gets a child still describes its file. -/
theorem Describes.addChild {before : List FileDescription} (h : Describes before file node) :
  Describes before file (addChild inode node)
  := ⟨h.inode, h.index, h.name, h.kind, h.parent⟩

theorem describes_nodeOf {name : String} (hname : fileName (components file.name) = some name)
    (hpath : UnixPath.parent (components file.name) = some path)
    (hparent : IsLatest files path parentInode) :
  Describes files file (nodeOf now (files.length + 2) parentInode name file)
  := ⟨rfl, rfl, hname, rfl, path, parentInode, hpath, rfl, hparent⟩

/-- Every file keeps what holds. -/
theorem Built.addFile (h : Built files tree map) (hadd : addFile now (tree, map) file = .ok state) :
  Built (files ++ [file]) state.1 state.2
  := by
  obtain ⟨name, path, inode, parentInode, hname, hpath, hinode, hparent, rfl⟩ := addFile_ok hadd
  have hlatest : IsLatest files path parentInode := by
    rw [hparent]
    apply h.map
  have hle := latest_le hlatest
  have hlength := h.length
  obtain rfl : inode = files.length + 2 := by
    rw [hinode, hlength, fuseRootId]
  generalize hnode : nodeOf now (files.length + 2) parentInode name file = node
  have hdescribes : Describes files file node := by
    rw [← hnode]
    exact describes_nodeOf hname hpath hlatest
  have hlast : parentOf (grown tree (files.length + 2) parentInode node) (files.length + 2)
      = some parentInode := by
    have heq := @parentOf_grown_last tree node (files.length + 2) parentInode
    rw [hlength] at heq
    rw [heq, ← hnode]
    rfl
  have hold {i : ℕ} (hi : i ∈ List.range' 2 files.length) :
      parentOf (grown tree (files.length + 2) parentInode node) i = parentOf tree i := by
    rw [List.mem_range'_1] at hi
    apply parentOf_grown (by omega) (by omega)
  have hinodes : List.range' 2 (files ++ [file]).length
      = List.range' 2 files.length ++ [files.length + 2] := by
    rw [List.length_append, List.length_singleton, List.range'_concat, Nat.one_mul, Nat.add_comm]
  constructor
  · rw [grown, List.length_append, List.length_modify, hlength, List.length_append]
    rfl
  · obtain ⟨root, hroot, hid, hnone, hkind⟩ := h.root
    use if parentInode - 1 = 0 then addChild (files.length + 2) root else root
    refine ⟨?_, ?_, ?_, ?_⟩
    · rw [getElem?_grown (by omega), hroot]
      rfl
    · split_ifs <;> exact hid
    · split_ifs <;> exact hnone
    · split_ifs <;> exact hkind
  · intro before described after hfiles
    rcases List.eq_nil_or_concat after with rfl | ⟨after, last, rfl⟩
    · obtain ⟨rfl, hfile⟩ := List.append_inj' hfiles rfl
      cases hfile
      refine ⟨node, ?_, hdescribes⟩
      rw [← hlength]
      apply getElem?_grown_last
    · have hsplit : files = before ++ described :: after := by
        rw [List.concat_eq_append, ← List.cons_append, ← List.append_assoc] at hfiles
        exact (List.append_inj' hfiles rfl).1
      obtain ⟨old, hat, hold⟩ := h.node _ _ _ hsplit
      use if parentInode - 1 = before.length + 1 then addChild (files.length + 2) old else old
      constructor
      · have hi : before.length + 1 < tree.length := (List.getElem?_eq_some_iff.mp hat).1
        rw [getElem?_grown hi, hat]
        rfl
      · split_ifs
        · exact hold.addChild
        · exact hold
  · intro i n hn
    have hbefore : (List.range' 2 files.length).filter (fun inode =>
        parentOf (grown tree (files.length + 2) parentInode node) inode = some (i + 1))
        = (List.range' 2 files.length).filter fun inode => parentOf tree inode = some (i + 1) := by
      apply List.filter_congr
      intro inode hmem
      rw [hold hmem]
    rw [hinodes, List.filter_append, hbefore, List.filter_singleton, hlast, Bool.cond_decide]
    rcases Nat.lt_or_ge i tree.length with hi | hi
    · rw [getElem?_grown hi] at hn
      obtain ⟨old, hat, rfl⟩ := Option.map_eq_some_iff.mp hn
      rw [← h.children i old hat]
      by_cases hparent : parentInode - 1 = i
      · rw [if_pos hparent, if_pos]
        · rfl
        · rw [← hparent, Nat.sub_add_cancel hle.1]
      · rw [if_neg hparent, if_neg, List.append_nil]
        rw [Option.some.injEq]
        omega
    · have hend : i = tree.length := by
        have hlt := (List.getElem?_eq_some_iff.mp hn).1
        rw [grown, List.length_append, List.length_modify, List.length_singleton] at hlt
        omega
      rw [hend, getElem?_grown_last, ← hnode] at hn
      cases hn
      have hnone : (List.range' 2 files.length).filter (fun inode =>
          parentOf tree inode = some (i + 1)) = [] := by
        rw [List.filter_eq_nil_iff]
        intro inode hmem
        obtain ⟨parent, hparent, -, hsmaller⟩ := h.parent inode hmem
        rw [List.mem_range'_1] at hmem
        rw [hparent, decide_eq_true_eq, Option.some.injEq]
        omega
      rw [hnone, if_neg]
      · rfl
      · rw [Option.some.injEq]
        omega
  · intro i hi
    rw [hinodes, List.mem_append, List.mem_singleton] at hi
    rcases hi with hi | rfl
    · rw [hold hi]
      apply h.parent i hi
    · exact ⟨parentInode, hlast, hle.1, by omega⟩
  · apply isLatest_map h.map

/-- The loop keeps what holds. -/
theorem built_of_foldlM (h : files.foldlM (addFile now)
      ([newRoot (now fuseRootId)], [(components "", fuseRootId), (components "/", fuseRootId)])
      = .ok state) :
  Built files state.1 state.2
  := by
  induction files using List.reverseRecOn generalizing state with
  | nil =>
      cases h
      apply built_nil
  | append_singleton files file ih =>
      rw [List.foldlM_append] at h
      cases hbefore : files.foldlM (FuseNode.addFile now) ([newRoot (now fuseRootId)],
          [(components "", fuseRootId), (components "/", fuseRootId)]) with
      | error err =>
          rw [hbefore] at h
          cases h
      | ok before =>
          rw [hbefore] at h
          have hadd : FuseNode.addFile now before file = .ok state := by
            cases hfile : FuseNode.addFile now before file with
            | error err =>
                simp only [List.foldlM_cons, bind, Except.bind, hfile] at h
                cases h
            | ok after =>
                simp only [List.foldlM_cons, List.foldlM_nil, bind, Except.bind, hfile, pure,
                  Except.pure] at h
                exact h
          apply (ih hbefore).addFile hadd

/-- Only directories have children. -/
theorem Built.directory (h : Built files tree map) {i : ℕ} (hnode : tree[i]? = some node)
    (hchildren : node.children ≠ []) :
  node.attributes.kind = .Directory
  := by
  obtain ⟨inode, hinode⟩ := List.exists_mem_of_ne_nil _ hchildren
  rw [h.children i node hnode, List.mem_filter, List.mem_range'_1, decide_eq_true_eq] at hinode
  obtain ⟨hrange, hparent⟩ := hinode
  obtain ⟨k, rfl⟩ := Nat.exists_eq_add_of_le hrange.1
  have hk : k < files.length := by omega
  have hsplit : files = files.take k ++ files[k] :: files.drop (k + 1) := by
    rw [List.getElem_cons_drop, List.take_append_drop]
  obtain ⟨child, hchild, hdescribes⟩ := h.node _ _ _ hsplit
  obtain ⟨path, parent, -, hchildParent, hlatest⟩ := hdescribes.parent
  have hat : 2 + k - 1 = (files.take k).length + 1 := by
    rw [List.length_take]
    omega
  rw [parentOf, hat, hchild, Option.bind_some, hchildParent, Option.some.injEq] at hparent
  rw [hparent] at hlatest
  rcases hlatest with ⟨hroot, -⟩ | ⟨before, directory, after, hbefore, hdirectory, hat, -⟩
  · obtain ⟨root, hzero, -, -, hkind⟩ := h.root
    obtain rfl : i = 0 := Nat.succ.inj hroot
    rw [hzero] at hnode
    cases hnode
    exact hkind
  · rw [hbefore, List.append_assoc, List.cons_append] at hsplit
    obtain ⟨found, hfound, hdescribes⟩ := h.node _ _ _ hsplit
    obtain rfl : i = before.length + 1 := Nat.succ.inj hat
    rw [hfound] at hnode
    cases hnode
    rw [hdescribes.kind]
    exact hdirectory.1

/-- The tree that is built of a list is well formed. -/
theorem wellFormed_of_buildTree (h : buildTree now files = .ok tree) :
  WellFormed files tree
  := by
  rw [buildTree] at h
  cases hfold : files.foldlM (FuseNode.addFile now) ([newRoot (now fuseRootId)],
      [(components "", fuseRootId), (components "/", fuseRootId)]) with
  | error err =>
      rw [hfold] at h
      cases h
  | ok state =>
      rw [hfold] at h
      cases h
      have hbuilt := built_of_foldlM hfold
      obtain ⟨root, hroot, hid, hnone, -⟩ := hbuilt.root
      have hlength := hbuilt.length
      constructor
      · exact hlength
      · exact ⟨root, hroot, hid, hnone⟩
      · exact hbuilt.node
      · intro inode hlow hhigh
        have hmem : inode ∈ List.range' 2 files.length := by
          rw [List.mem_range'_1]
          omega
        obtain ⟨parent, hparent, -, -⟩ := hbuilt.parent inode hmem
        refine ⟨parent, hparent, ?_⟩
        intro i node hnode
        have hnodup : ((List.range' 2 files.length).filter fun inode =>
            parentOf state.1 inode = some (i + 1)).Nodup := (List.nodup_range' _).filter _
        rw [hbuilt.children i node hnode, hnodup.count]
        simp only [List.mem_filter, hmem, hparent, true_and, decide_eq_true_eq, Option.some.injEq]
      · intro node hnode inode hmem
        obtain ⟨i, hi⟩ := List.mem_iff_getElem?.mp hnode
        rw [hbuilt.children i node hi, List.mem_filter, List.mem_range'_1] at hmem
        omega
      · intro node hnode
        obtain ⟨i, hi⟩ := List.mem_iff_getElem?.mp hnode
        rw [hbuilt.children i node hi]
        apply List.Pairwise.filter _ (List.pairwise_lt_range' _)
      · intro inode parent hparent
        have hmem : inode ∈ List.range' 2 files.length := by
          obtain ⟨node, hnode, hsome⟩ := Option.bind_eq_some_iff.mp hparent
          have hlt := (List.getElem?_eq_some_iff.mp hnode).1
          rw [List.mem_range'_1]
          by_cases hzero : inode - 1 = 0
          · rw [hzero, hroot] at hnode
            cases hnode
            rw [hnone] at hsome
            cases hsome
          · omega
        obtain ⟨parent', hparent', hle⟩ := hbuilt.parent inode hmem
        rw [hparent] at hparent'
        cases hparent'
        exact hle
      · intro node hnode
        obtain ⟨i, hi⟩ := List.mem_iff_getElem?.mp hnode
        apply hbuilt.directory hi

/-- A description under a name. -/
def described (name : String) (kind : FileType) : FileDescription where
  connId := 1
  name := name
  kind := kind
  atime := 0
  lastModified := 0
  lastMetadataChanged := 0
  creationTime := 0
  size := 3
  perm := 0o644

/-- Two directories at one path, and a file below it. -/
def twoDirectories : List FileDescription :=
  [described "a" .Directory, described "a/" .Directory, described "a/b" .File]

theorem wellFormed_twoDirectories :
  ∃ tree, buildTree (fun _ => 0) twoDirectories = .ok tree ∧ WellFormed twoDirectories tree
  := by
  have hok : (buildTree (fun _ => 0) twoDirectories).isOk = true := by
    decide +kernel
  cases hbuild : buildTree (fun _ => 0) twoDirectories with
  | error err =>
      rw [hbuild] at hok
      cases hok
  | ok tree => exact ⟨tree, rfl, wellFormed_of_buildTree hbuild⟩

/-- The file is a child of the later directory. -/
example :
  (buildTree (fun _ => 0) twoDirectories).map (List.map children) = .ok [[2, 3], [], [4], []]
  := by
  decide +kernel

end FuseNode

end VynxDesk.Clipboard.Fuse
