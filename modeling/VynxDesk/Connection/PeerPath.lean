import VynxDesk.Lib.LinkTree

/-!
# The paths of a peer on Android

A peer may touch nothing but what is in the home directory of the app.  `is_peer_path_allowed` of
`src/common.rs` resolves what is there of a path, appends what is missing as it stands and compares
the result with the home directory, component by component.  This is where the path leads
(`openCreate_cases`), unless its last component is a link that dangles: for the check that is
missing, but a file is created where the link leads, which may be anywhere (`not_confined`).  So
paths are confined just when such links lead into the home directory (`confined_iff`).
-/

namespace VynxDesk.PeerPath

open LinkTree
open UnixPath (Component)

/-- What paths are looked up in: a tree, the directory that relative paths start at, and how many
links the system follows. -/
structure Disk where
  root : Node
  cwd : Location := []
  links : ℕ := 40

namespace Disk

/-- Where a path leads, if it leads anywhere. -/
def lookUp (d : Disk) (create : Bool) (path : PathBuf) : Option Location :=
  if path.components = [] then none
  else (d.root.walk create d.links d.cwd path.steps).map Prod.fst

/-- `canonicalize`. -/
def canonicalize (d : Disk) (path : PathBuf) : Option Location := d.lookUp false path

/-- What is opened, where the last component is created if it is missing. -/
def openCreate (d : Disk) (path : PathBuf) : Option Location := d.lookUp true path

end Disk

/-- The path of a location. -/
def toPath (location : Location) : List Component := .rootDir :: location.map .normal

/-- The loop of `resolve`, for some rounds.  The names that were taken off are in `tail`, the last
one first. -/
def resolveLoop (d : Disk) : ℕ → PathBuf → List String → Option (Option Location)
  | 0, _, _ => none
  | rounds + 1, base, tail =>
      match d.canonicalize base with
      | some resolved => some (some (resolved ++ tail))
      | none =>
          match base.fileName, base.parent with
          | some name, some parent => resolveLoop d rounds parent (name :: tail)
          | _, _ => some none

/-- `resolve`. -/
def resolve (d : Disk) (path : PathBuf) : Option Location :=
  (resolveLoop d (path.components.length + 1) path []).join

/-- `is_peer_path_allowed` with `Config::get_home`. -/
def isPeerPathAllowed (d : Disk) (home path : String) (allowEmpty : Bool) : Bool :=
  if path.isEmpty then allowEmpty
  else
    let path := PathBuf.ofString path
    if path.components.head? ≠ some .rootDir ∨ .parentDir ∈ path.components then false
    else
      let home := PathBuf.ofString home
      let home := (d.canonicalize home).elim home.components toPath
      if home.isEmpty then false
      else (resolve d path).elim false fun target => home.isPrefixOf (toPath target)

/-- The last component of a path is a link to something that is missing, and leads to a location. -/
structure Disk.DanglesTo (d : Disk) (path : PathBuf) (location : Location) : Prop where
  missing : d.canonicalize path = none
  link : ∃ components name directory links target rest,
    path.slash = false ∧ path.components = components ++ [.normal name] ∧
      d.root.walk false d.links d.cwd components = some (directory, links + 1) ∧
      d.root.find directory name = .link target ∧
      d.root.walk true links directory (PathBuf.ofString target).steps = some (location, rest)

/-! ### The loop -/

variable {d : Disk} {path base : PathBuf} {location target : Location} {name : String}

/-- What has a name has a parent, which is shorter. -/
theorem parent_of_fileName (h : path.fileName = some name) :
  ∃ components, path.components = components ++ [.normal name] ∧
    path.parent = some ⟨components, false⟩
  := by
  obtain ⟨hcomponents, hparent⟩ := UnixPath.parent_of_fileName h
  refine ⟨_, hcomponents, ?_⟩
  rw [PathBuf.parent, hparent]
  rfl

theorem resolveLoop_round (d : Disk) (base : PathBuf) (rounds : ℕ) (tail : List String) :
  resolveLoop d (rounds + 1) base tail
    = match d.canonicalize base with
      | some resolved => some (some (resolved ++ tail))
      | none =>
          match base.fileName, base.parent with
          | some name, some parent => resolveLoop d rounds parent (name :: tail)
          | _, _ => some none
  := rfl

/-- A round of the loop that does not return takes the name off. -/
theorem resolveLoop_succ {components : List Component} (hmissing : d.canonicalize base = none)
    (hname : base.fileName = some name) (hparent : base.parent = some ⟨components, false⟩)
    (rounds : ℕ) (tail : List String) :
  resolveLoop d (rounds + 1) base tail = resolveLoop d rounds ⟨components, false⟩ (name :: tail)
  := by
  rw [resolveLoop_round, hmissing, hname, hparent]

/-- The loop returns as soon as there is something. -/
theorem resolveLoop_of_canonicalize {resolved : Location}
    (hresolved : d.canonicalize base = some resolved) (rounds : ℕ) (tail : List String) :
  resolveLoop d (rounds + 1) base tail = some (some (resolved ++ tail))
  := by
  rw [resolveLoop_round, hresolved]

/-- The loop returns when there is no name to take off. -/
theorem resolveLoop_of_fileName (hmissing : d.canonicalize base = none)
    (hname : base.fileName = none) (rounds : ℕ) (tail : List String) :
  resolveLoop d (rounds + 1) base tail = some none
  := by
  rw [resolveLoop_round, hmissing, hname]

/-- The loop returns after as many rounds as there are components, and one. -/
theorem resolveLoop_returns (d : Disk) (base : PathBuf) (tail : List String) :
  ∃ result, ∀ rounds, base.components.length ≤ rounds →
    resolveLoop d (rounds + 1) base tail = some result
  := by
  induction hlength : base.components.length using Nat.strong_induction_on
    generalizing base tail with
  | _ length ih =>
      cases hcanonical : d.canonicalize base with
      | some resolved =>
          use some (resolved ++ tail)
          intro rounds _
          apply resolveLoop_of_canonicalize hcanonical rounds tail
      | none =>
          cases hname : base.fileName with
          | none =>
              use none
              intro rounds _
              apply resolveLoop_of_fileName hcanonical hname rounds tail
          | some name =>
              obtain ⟨components, hcomponents, hparent⟩ := parent_of_fileName hname
              rw [hcomponents, List.length_append, List.length_singleton] at hlength
              obtain ⟨result, hresult⟩ :=
                ih components.length (by omega) ⟨components, false⟩ (name :: tail) rfl
              use result
              intro rounds hrounds
              rw [resolveLoop_succ hcanonical hname hparent]
              obtain ⟨rounds, rfl⟩ := Nat.exists_eq_add_one.mpr (show 0 < rounds by omega)
              apply hresult rounds (by omega)

/-- The loop returns for every path, the same after any number of rounds that is large enough. -/
theorem resolveLoop_eq (d : Disk) (path : PathBuf) {rounds : ℕ}
    (hrounds : path.components.length < rounds) :
  resolveLoop d rounds path [] = some (resolve d path)
  := by
  obtain ⟨result, hresult⟩ := resolveLoop_returns d path []
  obtain ⟨rounds, rfl⟩ := Nat.exists_eq_add_one.mpr (Nat.zero_lt_of_lt hrounds)
  rw [resolve, hresult _ le_rfl, hresult rounds (by omega), Option.join_some]

/-! ### Where a path leads -/

/-- What is there is opened. -/
theorem openCreate_of_canonicalize (h : d.canonicalize path = some location) :
  d.openCreate path = some location
  := by
  rw [Disk.canonicalize, Disk.lookUp] at h
  split_ifs at h with hcomponents
  obtain ⟨r, hr, rfl⟩ := Option.map_eq_some_iff.mp h
  rw [Disk.openCreate, Disk.lookUp, if_neg hcomponents, Node.walk_create hr, Option.map_some]

/-- What is missing and ends with a slash or a dot is not created. -/
theorem openCreate_of_slash (hmissing : d.canonicalize path = none) (hslash : path.slash = true) :
  d.openCreate path = none
  := by
  rw [Disk.canonicalize, Disk.lookUp] at hmissing
  rw [Disk.openCreate, Disk.lookUp]
  rw [PathBuf.steps, if_pos hslash] at hmissing ⊢
  have hdot : [Component.curDir] ≠ [] := by decide
  rw [Node.walk_append hdot] at hmissing ⊢
  simpa only [Node.walk_curDir, Node.walk_nil] using hmissing

/-- A path with a name at its end is looked up in the directory that its parent leads to. -/
theorem lookUp_eq {create : Bool} {components : List Component} (hslash : path.slash = false)
    (hcomponents : path.components = components ++ [.normal name]) :
  d.lookUp create path
    = ((d.root.walk false d.links d.cwd components).bind fun r =>
        d.root.walk create r.2 r.1 [.normal name]).map Prod.fst
  := by
  have hne : components ++ [.normal name] ≠ [] := by simp
  have hname : [Component.normal name] ≠ [] := by simp
  rw [Disk.lookUp, PathBuf.steps, hslash, hcomponents, if_neg hne, if_neg Bool.false_ne_true,
    List.append_nil, Node.walk_append hname]

/-- A file is created where a link leads that dangles. -/
theorem openCreate_of_danglesTo (h : d.DanglesTo path location) :
  d.openCreate path = some location
  := by
  obtain ⟨-, components, name, directory, links, target, rest, hslash, hcomponents, hdirectory,
    hlink, htarget⟩ := h
  rw [Disk.openCreate, lookUp_eq hslash hcomponents, hdirectory, Option.bind_some,
    Node.walk_link_succ hlink, List.append_nil, htarget]
  rfl

/-- What is missing in a directory is resolved to its name there. -/
theorem eq_of_resolve {components : List Component} {directory : Location} {links : ℕ}
    (hmissing : d.canonicalize path = none) (hname : path.fileName = some name)
    (hcomponents : path.components = components ++ [.normal name])
    (hparent : path.parent = some ⟨components, false⟩)
    (hdirectory : d.root.walk false d.links d.cwd components = some (directory, links))
    (hresolve : resolve d path = some target) :
  target = directory ++ [name]
  := by
  rw [resolve, resolveLoop_succ hmissing hname hparent, hcomponents, List.length_append,
    List.length_singleton] at hresolve
  by_cases hempty : components = []
  · subst hempty
    rw [resolveLoop_of_fileName rfl rfl] at hresolve
    cases hresolve
  · have hcanonical : d.canonicalize ⟨components, false⟩ = some directory := by
      rw [Disk.canonicalize, Disk.lookUp, if_neg hempty, PathBuf.steps, if_neg Bool.false_ne_true,
        List.append_nil, hdirectory, Option.map_some]
    rw [resolveLoop_of_canonicalize hcanonical, Option.join_some, Option.some_inj] at hresolve
    exact hresolve.symm

/-- What is opened under a name is what the path was resolved to, unless the name is that of a link
that dangles. -/
theorem openCreate_of_fileName (hslash : path.slash = false)
    (hmissing : d.canonicalize path = none) (hname : path.fileName = some name)
    (hresolve : resolve d path = some target) (hopen : d.openCreate path = some location) :
  location = target ∨ d.DanglesTo path location
  := by
  obtain ⟨components, hcomponents, hparent⟩ := parent_of_fileName hname
  rw [Disk.openCreate, lookUp_eq hslash hcomponents] at hopen
  obtain ⟨⟨location, rest⟩, hr, rfl⟩ := Option.map_eq_some_iff.mp hopen
  obtain ⟨⟨directory, links⟩, hdirectory, hlast⟩ := Option.bind_eq_some_iff.mp hr
  have htarget := eq_of_resolve hmissing hname hcomponents hparent hdirectory hresolve
  cases hfound : d.root.find directory name with
  | noDirectory =>
      rw [Node.walk_noDirectory hfound] at hlast
      cases hlast
  | missing =>
      rw [Node.walk_missing hfound] at hlast
      cases hlast
      left
      exact htarget.symm
  | there =>
      -- what is there could be canonicalized
      rw [Disk.canonicalize, lookUp_eq hslash hcomponents, hdirectory, Option.bind_some,
        Node.walk_there hfound, Node.walk_nil] at hmissing
      cases hmissing
  | link text =>
      cases links with
      | zero =>
          rw [Node.walk_link_zero hfound] at hlast
          cases hlast
      | succ links =>
          rw [Node.walk_link_succ hfound, List.append_nil] at hlast
          right
          exact ⟨hmissing, components, name, directory, links, text, rest, hslash, hcomponents,
            hdirectory, hfound, hlast⟩

/-- What is opened is what the path was resolved to, unless the last component is a link that
dangles. -/
theorem openCreate_cases (hresolve : resolve d path = some target)
    (hopen : d.openCreate path = some location) :
  location = target ∨ d.DanglesTo path location
  := by
  cases hcanonical : d.canonicalize path with
  | some resolved =>
      rw [openCreate_of_canonicalize hcanonical] at hopen
      rw [resolve, resolveLoop_of_canonicalize hcanonical, List.append_nil, Option.join_some]
        at hresolve
      left
      apply Option.some_inj.mp (hopen.symm.trans hresolve)
  | none =>
      cases hslash : path.slash with
      | true =>
          rw [openCreate_of_slash hcanonical hslash] at hopen
          cases hopen
      | false =>
          cases hname : path.fileName with
          | none =>
              rw [resolve, resolveLoop_of_fileName hcanonical hname] at hresolve
              cases hresolve
          | some name => exact openCreate_of_fileName hslash hcanonical hname hresolve hopen

/-! ### What is allowed -/

theorem toPath_prefix_iff {l l' : Location} :
  toPath l <+: toPath l' ↔ l <+: l'
  := by
  have hnormal : Function.Injective Component.normal := fun _ _ => Component.normal.inj
  rw [toPath, toPath, List.cons_prefix_cons, and_iff_right rfl,
    List.prefix_map_iff_of_injective hnormal]

/-- A path that is allowed is resolved to something in the home directory. -/
theorem resolve_of_allowed {home path : String} {allowEmpty : Bool} {root : Location}
    (hpath : path ≠ "") (hallowed : isPeerPathAllowed d home path allowEmpty = true)
    (hhome : d.canonicalize (.ofString home) = some root) :
  ∃ target, resolve d (.ofString path) = some target ∧ root <+: target
  := by
  rw [isPeerPathAllowed, if_neg (by simpa using hpath)] at hallowed
  dsimp only at hallowed
  rw [hhome] at hallowed
  split_ifs at hallowed
  cases hresolve : resolve d (.ofString path) with
  | none =>
      rw [hresolve] at hallowed
      cases hallowed
  | some target =>
      rw [hresolve, Option.elim_some, Option.elim_some, List.isPrefixOf_iff_prefix,
        toPath_prefix_iff] at hallowed
      exact ⟨target, rfl, hallowed⟩

/-- The loop of `resolve` returns for every path.  What is opened under a path that is allowed is in
the home directory just when the path does not end with a link that dangles and leads elsewhere. -/
theorem confined_iff (d : Disk) :
  (∀ (path : PathBuf) (rounds : ℕ), path.components.length < rounds →
      resolveLoop d rounds path [] = some (resolve d path)) ∧
    ∀ (home path : String) (allowEmpty : Bool) (root : Location), path ≠ "" →
      isPeerPathAllowed d home path allowEmpty = true →
      d.canonicalize (.ofString home) = some root →
      ((∀ location, d.openCreate (.ofString path) = some location → root <+: location) ↔
        ∀ location, d.DanglesTo (.ofString path) location → root <+: location)
  := by
  constructor
  · intro path rounds hrounds
    apply resolveLoop_eq d path hrounds
  · intro home path allowEmpty root hpath hallowed hhome
    obtain ⟨target, hresolve, htarget⟩ := resolve_of_allowed hpath hallowed hhome
    constructor
    · intro hopen location hdangles
      apply hopen location (openCreate_of_danglesTo hdangles)
    · intro hdangles location hopen
      rcases openCreate_cases hresolve hopen with rfl | hlink
      · exact htarget
      · apply hdangles location hlink

/-- In the home directory are two links that dangle: one leads to a directory there, and the other
one leads out. -/
def sample : Disk where
  root := .dir [
    ("home", .dir [
      ("sub", .dir []),
      ("in", .link "./sub/../sub/new"),
      ("out", .link "/outside/new")]),
    ("outside", .dir [])]

/-- A file is created where the link leads that dangles and leads to the home directory. -/
theorem confined_sample :
  sample.openCreate (.ofString "/home//in") = some ["home", "sub", "new"] ∧
    ∀ location, sample.openCreate (.ofString "/home//in") = some location → ["home"] <+: location
  := by
  have hopen : sample.openCreate (.ofString "/home//in") = some ["home", "sub", "new"] := by
    decide +kernel
  refine ⟨hopen, ?_⟩
  apply ((confined_iff sample).2 "/home/" _ false _ (by decide) (by decide +kernel)
    (by decide +kernel)).mpr
  intro location hdangles
  rw [openCreate_of_danglesTo hdangles] at hopen
  cases hopen
  decide

/-- The other one is taken for a name that is missing, and a file is created where it leads. -/
theorem not_confined :
  ¬ ∀ (d : Disk) (home path : String) (allowEmpty : Bool) (root location : Location), path ≠ "" →
    isPeerPathAllowed d home path allowEmpty = true →
    d.canonicalize (.ofString home) = some root →
    d.openCreate (.ofString path) = some location → root <+: location
  := by
  intro hall
  have hout := hall sample "/home" "/home/out" false ["home"] ["outside", "new"] (by decide)
    (by decide +kernel) (by decide +kernel) (by decide +kernel)
  revert hout
  decide

end VynxDesk.PeerPath
