import VynxDesk.Clipboard.FileSystem

/-!
# The paths of a file list

The kernel looks the names of a path up one after the other in the directories that `FuseServer`
shows.  When the list has every directory before what is in it, and no path twice, the paths that
lead somewhere are those of the list, each to its own file (`FuseServer.walk_iff`).
-/

namespace VynxDesk.Clipboard.Fuse

open UnixPath

/-- The kernel looks the names of a path up one after the other. -/
def FuseServer.walk (self : FuseServer) : ℕ → List String → Option ℕ
  | ino, [] => some ino
  | ino, name :: names =>
      match self.lookup ino name with
      | some (.entry attributes _) => self.walk attributes.inode names
      | _ => none

/-- A list whose paths are relative and different, with every directory before what is in it. -/
structure Nested (files : List FileDescription) : Prop where
  relative : ∀ file ∈ files, ∃ names : List String, names ≠ [] ∧
    components file.name = names.map Component.normal
  parents : ∀ before file after, files = before ++ file :: after →
    ∀ path, UnixPath.parent (components file.name) = some path → path = [] ∨
      ∃ directory ∈ before, FuseNode.IsDirectoryAt path directory
  distinct : (files.map fun file => components file.name).Nodup

/-- An inode is that of a path of a list. -/
def IsAt (files : List FileDescription) (names : List String) (ino : ℕ) : Prop :=
  (names = [] ∧ ino = fuseRootId) ∨ ∃ i file, files[i]? = some file ∧
    components file.name = names.map Component.normal ∧ ino = i + 2

variable {names : List String} {list files : List FileDescription} {map : FuseNode.SubRootMap}
  {ino : ℕ}

theorem map_normal_inj {names' : List String}
    (h : names.map Component.normal = names'.map Component.normal) :
  names = names'
  := by
  refine List.map_injective_iff.mpr ?_ h
  intro name name' heq
  exact Component.normal.inj heq

/-- A path is at one place only. -/
theorem Nested.unique (hnested : Nested files) {ino' : ℕ} (hat : IsAt files names ino)
    (hat' : IsAt files names ino') :
  ino = ino'
  := by
  have hsome : ∀ {i : ℕ} {file : FileDescription}, files[i]? = some file →
      components file.name ≠ [] := by
    intro i file hfile
    obtain ⟨names, hne, heq⟩ := hnested.relative file (List.mem_of_getElem? hfile)
    rw [heq]
    intro hnil
    exact hne (List.map_eq_nil_iff.mp hnil)
  rcases hat with ⟨rfl, rfl⟩ | ⟨i, file, hfile, hpath, rfl⟩
  · rcases hat' with ⟨-, rfl⟩ | ⟨i, file, hfile, hpath, -⟩
    · rfl
    · exact (hsome hfile hpath).elim
  · rcases hat' with ⟨rfl, -⟩ | ⟨i', file', hfile', hpath', rfl⟩
    · exact (hsome hfile hpath).elim
    · have hi := (List.getElem?_eq_some_iff.mp hfile).1
      have hsame : (files.map fun file => components file.name)[i]? =
          (files.map fun file => components file.name)[i']? := by
        rw [List.getElem?_map, List.getElem?_map, hfile, hfile', Option.map_some, Option.map_some,
          hpath, hpath']
      rw [(List.getElem?_inj (by rwa [List.length_map]) hnested.distinct).mp hsame]

/-- At a place there is one path only. -/
theorem IsAt.names_eq {names' : List String} (hat : IsAt files names ino)
    (hat' : IsAt files names' ino) :
  names = names'
  := by
  rcases hat with ⟨rfl, rfl⟩ | ⟨i, file, hfile, hpath, rfl⟩
  · rcases hat' with ⟨rfl, -⟩ | ⟨i, file, -, -, hino⟩
    · rfl
    · rw [fuseRootId] at hino
      omega
  · rcases hat' with ⟨-, hino⟩ | ⟨i', file', hfile', hpath', hino⟩
    · rw [fuseRootId] at hino
      omega
    · obtain rfl : i = i' := by omega
      rw [hfile] at hfile'
      obtain rfl := Option.some.inj hfile'
      rw [hpath] at hpath'
      exact map_normal_inj hpath'

/-- The last directory at a path that is nested is the one at the path. -/
theorem Nested.isAt_of_isLatest {before after : List FileDescription} {file : FileDescription}
    (hnested : Nested (before ++ file :: after))
    (hparent : UnixPath.parent (components file.name) = some (names.map Component.normal))
    (hlatest : FuseNode.IsLatest before (names.map Component.normal) ino) :
  IsAt (before ++ file :: after) names ino
  := by
  rcases hlatest with ⟨rfl, hnone⟩ | ⟨before', directory, after', rfl, hdirectory, rfl, -⟩
  · rcases hnested.parents before file after rfl _ hparent with hnil | ⟨directory, hmem, hdirectory⟩
    · exact .inl ⟨List.map_eq_nil_iff.mp hnil, rfl⟩
    · exact (hnone directory hmem hdirectory).elim
  · refine .inr ⟨before'.length, directory, ?_, hdirectory.2, rfl⟩
    simp

/-- What there is of a list behind an inode. -/
theorem built_entry {files : List Entry}
    (hbuilt : FuseNode.Built list (files.map Entry.toFuseNode) map) {i : ℕ}
    {file : FileDescription} (hfile : list[i]? = some file) :
  ∃ entry before after, entryAt files (i + 2) = some entry ∧ list = before ++ file :: after ∧
    before.length = i ∧ FuseNode.Describes before file entry.toFuseNode
  := by
  obtain ⟨hi, rfl⟩ := List.getElem?_eq_some_iff.mp hfile
  have hsplit : list = list.take i ++ list[i] :: list.drop (i + 1) := by
    rw [List.getElem_cons_drop, List.take_append_drop]
  have hbefore : (list.take i).length = i := by
    rw [List.length_take]
    omega
  obtain ⟨node, hnode, hdescribes⟩ := hbuilt.node _ _ _ hsplit
  rw [hbefore, List.getElem?_map] at hnode
  obtain ⟨entry, hentry, rfl⟩ := Option.map_eq_some_iff.mp hnode
  exact ⟨entry, _, _, hentry, hsplit, hbefore, hdescribes⟩

/-- What is at a path has a parent at the path without its last name. -/
theorem isAt_parent {files : List Entry}
    (hbuilt : FuseNode.Built list (files.map Entry.toFuseNode) map) (hnested : Nested list)
    {name : String} (hat : IsAt list (names ++ [name]) ino) :
  ∃ child parent, entryAt files ino = some child ∧ child.parent = some parent ∧
    child.name = name ∧ IsAt list names parent
  := by
  rcases hat with ⟨hnil, -⟩ | ⟨i, file, hfile, hpath, rfl⟩
  · exact (List.append_ne_nil_of_right_ne_nil _ (List.cons_ne_nil _ _) hnil).elim
  · obtain ⟨entry, before, after, hentry, rfl, -, hdescribes⟩ := built_entry hbuilt hfile
    rw [List.map_append, List.map_singleton] at hpath
    obtain ⟨path, inode, hparent, hsome, hlatest⟩ := hdescribes.parent
    have hname : fileName (components file.name) = some name := by
      rw [hpath, fileName, List.getLast?_concat]
    have hdrop : path = names.map Component.normal := by
      rw [(parent_of_fileName hname).2, hpath, List.dropLast_concat] at hparent
      exact (Option.some.inj hparent).symm
    rw [hdrop] at hparent hlatest
    refine ⟨entry, inode, hentry, hsome, ?_, hnested.isAt_of_isLatest hparent hlatest⟩
    rw [hdescribes.name] at hname
    exact Option.some.inj hname

/-- The children of what is at a path are at the paths with one more name. -/
theorem isAt_child {files : List Entry}
    (hbuilt : FuseNode.Built list (files.map Entry.toFuseNode) map) (hnested : Nested list)
    {name : String} {parent : ℕ} (hat : IsAt list names parent) :
  IsAt list (names ++ [name]) ino ↔
    ∃ child, entryAt files ino = some child ∧ child.parent = some parent ∧ child.name = name
  := by
  constructor
  · intro hchild
    obtain ⟨child, parent', hentry, hparent, hname, hat'⟩ := isAt_parent hbuilt hnested hchild
    obtain rfl := hnested.unique hat hat'
    exact ⟨child, hentry, hparent, hname⟩
  · rintro ⟨child, hchild, hparent, rfl⟩
    obtain ⟨hpos, hget⟩ := entryAt_eq_some.mp hchild
    have hlt := (List.getElem?_eq_some_iff.mp hget).1
    have hlength := hbuilt.length
    rw [List.length_map] at hlength
    have hroot : ino ≠ 1 := by
      rintro rfl
      obtain ⟨root, hroot, -, hnone, -⟩ := hbuilt.root
      rw [List.getElem?_map, hget] at hroot
      obtain rfl := Option.some.inj hroot
      rw [hnone] at hparent
      cases hparent
    obtain ⟨i, rfl⟩ := Nat.exists_eq_add_of_le' (show 2 ≤ ino by omega)
    have hi : i < list.length := by omega
    have hfile : list[i]? = some list[i] := List.getElem?_eq_getElem hi
    generalize list[i] = file at hfile
    obtain ⟨entry, before, after, hentry, rfl, -, hdescribes⟩ := built_entry hbuilt hfile
    rw [hchild] at hentry
    obtain rfl := Option.some.inj hentry
    obtain ⟨hpath, hdrop⟩ := parent_of_fileName hdescribes.name
    obtain ⟨names', -, hnames⟩ := hnested.relative file (List.mem_of_getElem? hfile)
    rw [hnames, ← List.map_dropLast] at hpath hdrop
    obtain ⟨path, inode, hsome, hinode, hlatest⟩ := hdescribes.parent
    rw [hparent] at hinode
    obtain rfl := Option.some.inj hinode
    rw [hnames, hdrop] at hsome
    obtain rfl := Option.some.inj hsome
    rw [← hnames] at hdrop
    obtain rfl := (hnested.isAt_of_isLatest hdrop hlatest).names_eq hat
    refine .inr ⟨i, file, hfile, ?_, rfl⟩
    rw [hnames, hpath, List.map_append, List.map_singleton]

theorem isAt_entry {files : List Entry}
    (hbuilt : FuseNode.Built list (files.map Entry.toFuseNode) map) (hat : IsAt list names ino) :
  ∃ entry, entryAt files ino = some entry ∧ entry.attributes.inode = ino
  := by
  rcases hat with ⟨-, rfl⟩ | ⟨i, file, hfile, -, rfl⟩
  · obtain ⟨root, hroot, hinode, -⟩ := hbuilt.root
    rw [List.getElem?_map] at hroot
    obtain ⟨entry, hentry, rfl⟩ := Option.map_eq_some_iff.mp hroot
    exact ⟨entry, hentry, hinode⟩
  · obtain ⟨entry, before, after, hentry, -, hbefore, hdescribes⟩ := built_entry hbuilt hfile
    exact ⟨entry, hentry, by rw [hdescribes.inode, hbefore]⟩

/-- The connection and the size of what is shown are those of the list. -/
theorem shown_of_foldlM {now : ℕ → Int} {state : List FuseNode × FuseNode.SubRootMap}
    (hfold : files.foldlM (FuseNode.addFile now) (FuseNode.start now) = .ok state) :
  state.1.map (fun node => (node.connId, node.attributes.size)) =
    (0, 0) :: files.map fun file => (file.connId, file.size)
  := by
  induction files using List.reverseRecOn generalizing state with
  | nil =>
      cases hfold
      rfl
  | append_singleton files file ih =>
      rw [List.foldlM_append] at hfold
      cases hbefore : files.foldlM (FuseNode.addFile now) (FuseNode.start now) with
      | error err =>
          rw [hbefore] at hfold
          cases hfold
      | ok before =>
          have hadd : FuseNode.addFile now before file = .ok state := by
            rw [hbefore] at hfold
            cases hfile : FuseNode.addFile now before file with
            | error err =>
                simp only [List.foldlM_cons, bind, Except.bind, hfile] at hfold
                cases hfold
            | ok after =>
                simp only [List.foldlM_cons, List.foldlM_nil, bind, Except.bind, hfile, pure,
                  Except.pure] at hfold
                exact hfold
          obtain ⟨name, path, inode, parentInode, -, -, -, -, rfl⟩ := FuseNode.addFile_ok hadd
          have hsame := map_modify (f := FuseNode.addChild inode)
            (g := fun node => (node.connId, node.attributes.size)) (fun _ => rfl) before.1
            (parentInode - 1)
          rw [FuseNode.grown, List.map_append, hsame, ih hbefore, List.map_append]
          rfl

theorem walk_append (server : FuseServer) (names names' : List String) :
  ∀ ino, server.walk ino (names ++ names') =
    (server.walk ino names).bind fun ino' => server.walk ino' names'
  := by
  induction names with
  | nil =>
      intro ino
      rfl
  | cons name names ih =>
      intro ino
      rw [List.cons_append, FuseServer.walk, FuseServer.walk]
      split
      · apply ih
      · rfl

/-- What the kernel finds at a name of a directory. -/
theorem walk_single {server : FuseServer}
    (hbuilt : FuseNode.Built list (server.files.map Entry.toFuseNode) map) (hnested : Nested list)
    {name : String} (hshort : name.utf8ByteSize ≤ maxNameLen) {parent : ℕ}
    (hat : IsAt list names parent) (ino : ℕ) :
  server.walk parent [name] = some ino ↔ IsAt list (names ++ [name]) ino
  := by
  have hshown : Shown server.files := .inr ⟨list, map, hbuilt⟩
  obtain ⟨entry, hentry, -⟩ := isAt_entry hbuilt hat
  have hchild : ∀ c, IsAt list (names ++ [name]) c ↔ c ∈ entry.children ∧
      ∃ child, entryAt server.files c = some child ∧ child.name = name := by
    intro c
    rw [isAt_child hbuilt hnested hat, hshown.mem_children hentry]
    constructor
    · rintro ⟨child, hc, hparent, hname⟩
      exact ⟨⟨child, hc, hparent⟩, child, hc, hname⟩
    · rintro ⟨⟨child, hc, hparent⟩, child', hc', hname⟩
      rw [hc] at hc'
      obtain rfl := Option.some.inj hc'
      exact ⟨child, hc, hparent, hname⟩
  rw [FuseServer.walk, FuseServer.lookup, if_neg (Nat.not_lt_of_le hshort), hentry]
  dsimp only
  by_cases hkind : entry.attributes.kind = .Directory
  · rw [if_neg (not_not_intro hkind)]
    rcases findChild_eq name (hshown.child hentry) with
      ⟨hnone, hall⟩ | ⟨c, hc, child, hat', hname, hfound⟩
    · rw [hnone]
      constructor
      · intro h
        cases h
      · intro hino
        obtain ⟨hmem, child, hc, hname⟩ := (hchild ino).mp hino
        exact (hall ino hmem child hc hname).elim
    · have hisAt := (hchild c).mpr ⟨hc, child, hat', hname⟩
      obtain ⟨child', hat₁, hinode⟩ := isAt_entry hbuilt hisAt
      rw [hat'] at hat₁
      obtain rfl := Option.some.inj hat₁
      rw [hfound]
      change some child.attributes.inode = some ino ↔ _
      rw [hinode, Option.some.injEq]
      constructor
      · rintro rfl
        exact hisAt
      · exact hnested.unique hisAt
  · rw [if_pos hkind]
    constructor
    · intro h
      cases h
    · intro hino
      obtain ⟨list', map', hbuilt', -, hnode⟩ := hshown.node hentry
      have hne : entry.children ≠ [] := List.ne_nil_of_mem ((hchild ino).mp hino).1
      exact (hkind (hbuilt'.directory hnode hne)).elim

/-- The paths that lead somewhere are those of the list. -/
theorem walk_eq_some_iff {server : FuseServer}
    (hbuilt : FuseNode.Built list (server.files.map Entry.toFuseNode) map) (hnested : Nested list)
    (hshort : ∀ name ∈ names, name.utf8ByteSize ≤ maxNameLen) (ino : ℕ) :
  server.walk fuseRootId names = some ino ↔ IsAt list names ino
  := by
  induction names using List.reverseRecOn generalizing ino with
  | nil =>
      rw [FuseServer.walk, Option.some.injEq]
      constructor
      · rintro rfl
        exact .inl ⟨rfl, rfl⟩
      · intro hat
        exact hnested.unique (.inl ⟨rfl, rfl⟩) hat
  | append_singleton names name ih =>
      rw [List.forall_mem_append, List.forall_mem_singleton] at hshort
      rw [walk_append, Option.bind_eq_some_iff]
      constructor
      · rintro ⟨parent, hparent, hwalk⟩
        exact (walk_single hbuilt hnested hshort.2 ((ih hshort.1 parent).mp hparent) ino).mp hwalk
      · intro hat
        obtain ⟨child, parent, -, -, -, hparent⟩ := isAt_parent hbuilt hnested hat
        exact ⟨parent, (ih hshort.1 parent).mpr hparent,
          (walk_single hbuilt hnested hshort.2 hparent ino).mpr hat⟩

/-- The paths that lead somewhere are those of the list that is shown.  Each leads to its own file:
to the node with its place in the list, its connection, its kind and its size. -/
theorem FuseServer.walk_iff {server server' : FuseServer} {now : ℕ → Int}
    {files : List FileDescription} (hload : server.loadFileList now files = .ok server')
    (hnested : Nested files) {names : List String}
    (hshort : ∀ name ∈ names, name.utf8ByteSize ≤ maxNameLen) (ino : ℕ) :
  server'.walk fuseRootId names = some ino ↔
    (names = [] ∧ ino = fuseRootId) ∨ ∃ i file entry, files[i]? = some file ∧
      components file.name = names.map Component.normal ∧ ino = i + 2 ∧
      entryAt server'.files ino = some entry ∧ entry.index = i ∧ entry.connId = file.connId ∧
      entry.attributes.kind = file.kind ∧ entry.attributes.size = file.size
  := by
  obtain ⟨state, hfold, rfl⟩ := loadFileList_ok hload
  have hbuilt := FuseNode.built_of_foldlM hfold
  rw [← map_toFuseNode state.1] at hbuilt
  rw [walk_eq_some_iff hbuilt hnested hshort, IsAt]
  apply or_congr_right
  constructor
  · rintro ⟨i, file, hfile, hpath, rfl⟩
    obtain ⟨entry, before, after, hentry, -, hbefore, hdescribes⟩ := built_entry hbuilt hfile
    have hshown := congrArg (·[i + 1]?) (shown_of_foldlM hfold)
    obtain ⟨node, hnode, rfl⟩ : ∃ node, state.1[i + 1]? = some node ∧
        ({ toFuseNode := node } : Entry) = entry := by
      rw [← Option.map_eq_some_iff, ← List.getElem?_map]
      exact hentry
    simp only [List.getElem?_map, List.getElem?_cons_succ, hnode, hfile, Option.map_some,
      Option.some.injEq, Prod.mk.injEq] at hshown
    refine ⟨i, file, _, hfile, hpath, rfl, hentry, ?_, hshown.1, hdescribes.kind, hshown.2⟩
    rw [hdescribes.index, hbefore]
  · rintro ⟨i, file, -, hfile, hpath, hino, -⟩
    exact ⟨i, file, hfile, hpath, hino⟩

/-- A directory, and a file in it. -/
def sampleList : List FileDescription :=
  [FuseNode.described "a" .Directory, FuseNode.described "a/b" .File]

theorem nested_sampleList :
  Nested sampleList
  := by
  constructor
  · rw [sampleList, List.forall_mem_cons, List.forall_mem_singleton]
    exact ⟨⟨["a"], by decide, by decide⟩, ⟨["a", "b"], by decide, by decide⟩⟩
  · intro before file after hsplit path hpath
    match before, hsplit with
    | [], hsplit =>
        obtain ⟨rfl, -⟩ := List.cons.inj hsplit
        left
        exact (Option.some.inj hpath).symm
    | [_], hsplit =>
        obtain ⟨rfl, hrest⟩ := List.cons.inj hsplit
        obtain ⟨rfl, -⟩ := List.cons.inj hrest
        obtain rfl := Option.some.inj hpath
        exact .inr ⟨_, List.mem_cons_self, rfl, by decide⟩
    | _ :: _ :: before, hsplit =>
        have hlength := congrArg List.length hsplit
        simp only [sampleList, List.length_cons, List.length_append, List.length_nil] at hlength
        omega
  · decide

theorem FuseServer.walk_iff_sample :
  ∃ server' entry, FuseServer.loadFileList {} (fun _ => 0) sampleList = .ok server' ∧
    server'.walk fuseRootId ["a", "b"] = some 3 ∧ entryAt server'.files 3 = some entry ∧
    entry.index = 1
  := by
  have hfound : (FuseServer.loadFileList {} (fun _ => 0) sampleList).toOption.bind
      (·.walk fuseRootId ["a", "b"]) = some 3 := by
    decide +kernel
  cases hload : FuseServer.loadFileList {} (fun _ => 0) sampleList with
  | error err =>
      rw [hload] at hfound
      cases hfound
  | ok server' =>
      rw [hload] at hfound
      rcases (FuseServer.walk_iff hload nested_sampleList (by decide) 3).mp hfound with
        ⟨hnil, -⟩ | ⟨i, file, entry, -, -, hi, hentry, hindex, -⟩
      · cases hnil
      · exact ⟨server', entry, rfl, hfound, hentry, by omega⟩

end VynxDesk.Clipboard.Fuse
