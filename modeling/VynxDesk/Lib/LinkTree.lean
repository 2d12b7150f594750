import Mathlib.Data.List.Induction
import VynxDesk.Lib.UnixPath

/-!
# Trees of directories, files and symbolic links

A path leads through a tree as an operating system follows it: component by component, each in a
directory, with the target of a symbolic link in its place.  A link may lead nowhere, or in a
circle; only so many links are followed on one path.  A path may also lead to a name that is
missing, so that a file of this name is created.  `walk_append` takes a path apart, and
`walk_create` says that what is there is found no matter whether missing files are created.
-/

namespace VynxDesk.LinkTree

open UnixPath

/-- The names on the way from the root, none of which is a link. -/
abbrev Location := List String

/-- A directory, a file or a symbolic link. -/
inductive Node where
  | file
  | link (target : String)
  | dir (entries : List (String × Node))

/-- A path as `std::path` has it: its components, and whether a slash or a dot stands behind them,
so that the path leads to a directory. -/
structure PathBuf where
  components : List Component
  slash : Bool
  deriving DecidableEq, Repr

namespace PathBuf

/-- The path that a text is. -/
def ofString (path : String) : PathBuf where
  components := UnixPath.components path
  slash := (path.toList.splitOn '/').getLast? ∈ [some [], some ['.']]

/-- What is followed one after the other. -/
def steps (path : PathBuf) : List Component :=
  path.components ++ if path.slash then [.curDir] else []

/-- `parent`: nothing stands behind it. -/
def parent (path : PathBuf) : Option PathBuf :=
  (UnixPath.parent path.components).map fun components => ⟨components, false⟩

/-- `file_name`. -/
def fileName (path : PathBuf) : Option String := UnixPath.fileName path.components

end PathBuf

namespace Node

/-- What a directory has under a name. -/
def child : Node → String → Option Node
  | dir entries, name => entries.lookup name
  | file, _ | link _, _ => none

/-- What is at a location. -/
def get (root : Node) (location : Location) : Option Node := location.foldlM child root

/-- There is a directory at a location. -/
def isDir (root : Node) (location : Location) : Bool :=
  match root.get location with
  | some (dir _) => true
  | some file | some (link _) | none => false

/-- What is found under a name. -/
inductive Found where
  | noDirectory
  | missing
  | link (target : String)
  | there
  deriving DecidableEq, Repr

/-- What is found at a location under a name.  No name has a zero in it. -/
def find (root : Node) (location : Location) (name : String) : Found :=
  if root.isDir location = false ∨ '\x00' ∈ name.toList then .noDirectory
  else
    match root.get (location ++ [name]) with
    | none => .missing
    | some (link target) => .link target
    | some file | some (dir _) => .there

/-- Components are followed from a location on, and behind a link what `follow` does.  A name that
is missing is created if it is the last one.  The result comes with how many more links may be
followed. -/
def walkWith (root : Node) (create : Bool) (links : ℕ)
    (follow : Location → List Component → Option (Location × ℕ)) :
    Location → List Component → Option (Location × ℕ)
  | location, [] => some (location, links)
  | _, .rootDir :: steps => walkWith root create links follow [] steps
  | location, .curDir :: steps =>
      if root.isDir location then walkWith root create links follow location steps else none
  | location, .parentDir :: steps =>
      if root.isDir location then walkWith root create links follow location.dropLast steps
      else none
  | location, .normal name :: steps =>
      match root.find location name with
      | .noDirectory => none
      | .missing => if create && steps.isEmpty then some (location ++ [name], links) else none
      | .link target => follow location ((PathBuf.ofString target).steps ++ steps)
      | .there => walkWith root create links follow (location ++ [name]) steps

/-- Components are followed from a location on, and at most so many links. -/
def walk (root : Node) (create : Bool) :
    ℕ → Location → List Component → Option (Location × ℕ)
  | 0 => walkWith root create 0 fun _ _ => none
  | links + 1 => walkWith root create (links + 1) (walk root create links)

/-! ### One component -/

section

variable {root : Node} {create : Bool} {links : ℕ} {location : Location} {steps : List Component}
  {name target : String}

@[simp]
theorem walk_nil :
  root.walk create links location [] = some (location, links)
  := by
  cases links <;> rfl

theorem walk_rootDir :
  root.walk create links location (.rootDir :: steps) = root.walk create links [] steps
  := by
  cases links <;> rfl

theorem walk_curDir :
  root.walk create links location (.curDir :: steps)
    = if root.isDir location then root.walk create links location steps else none
  := by
  cases links <;> rfl

theorem walk_parentDir :
  root.walk create links location (.parentDir :: steps)
    = if root.isDir location then root.walk create links location.dropLast steps else none
  := by
  cases links <;> rfl

/-- What is found under a name decides how a walk goes on. -/
theorem walk_normal :
  root.walk create links location (.normal name :: steps)
    = match root.find location name with
      | .noDirectory => none
      | .missing => if create && steps.isEmpty then some (location ++ [name], links) else none
      | .link target =>
          match links with
          | 0 => none
          | links + 1 =>
              root.walk create links location ((PathBuf.ofString target).steps ++ steps)
      | .there => root.walk create links (location ++ [name]) steps
  := by
  cases links <;> rfl

theorem walk_noDirectory (h : root.find location name = .noDirectory) :
  root.walk create links location (.normal name :: steps) = none
  := by
  rw [walk_normal, h]

theorem walk_missing (h : root.find location name = .missing) :
  root.walk create links location (.normal name :: steps)
    = if create && steps.isEmpty then some (location ++ [name], links) else none
  := by
  rw [walk_normal, h]

theorem walk_there (h : root.find location name = .there) :
  root.walk create links location (.normal name :: steps)
    = root.walk create links (location ++ [name]) steps
  := by
  rw [walk_normal, h]

/-- No more links may be followed. -/
theorem walk_link_zero (h : root.find location name = .link target) :
  root.walk create 0 location (.normal name :: steps) = none
  := by
  rw [walk_normal, h]

theorem walk_link_succ (h : root.find location name = .link target) :
  root.walk create (links + 1) location (.normal name :: steps)
    = root.walk create links location ((PathBuf.ofString target).steps ++ steps)
  := by
  rw [walk_normal, h]

/-- A property holds of every walk when it holds of the end of one, and of each component when it
holds of what is followed next. -/
@[elab_as_elim]
theorem walk_induction (root : Node) {P : ℕ → Location → List Component → Prop}
    (nil : ∀ links location, P links location [])
    (rootDir : ∀ links location steps, P links [] steps → P links location (.rootDir :: steps))
    (curDir : ∀ links location steps,
      P links location steps → P links location (.curDir :: steps))
    (parentDir : ∀ links location steps,
      P links location.dropLast steps → P links location (.parentDir :: steps))
    (noDirectory : ∀ links location name steps,
      root.find location name = .noDirectory → P links location (.normal name :: steps))
    (missing : ∀ links location name steps,
      root.find location name = .missing → P links location (.normal name :: steps))
    (there : ∀ links location name steps, root.find location name = .there →
      P links (location ++ [name]) steps → P links location (.normal name :: steps))
    (linkZero : ∀ location name steps target,
      root.find location name = .link target → P 0 location (.normal name :: steps))
    (linkSucc : ∀ links location name steps target, root.find location name = .link target →
      P links location ((PathBuf.ofString target).steps ++ steps) →
      P (links + 1) location (.normal name :: steps))
    (links : ℕ) (location : Location) (steps : List Component) :
  P links location steps
  := by
  induction links using Nat.strong_induction_on generalizing location steps with
  | _ links hlinks =>
      induction steps generalizing location with
      | nil => exact nil links location
      | cons step steps ih =>
          cases step with
          | rootDir => exact rootDir links location steps (ih [])
          | curDir => exact curDir links location steps (ih location)
          | parentDir => exact parentDir links location steps (ih location.dropLast)
          | normal name =>
              cases hfound : root.find location name with
              | noDirectory => exact noDirectory links location name steps hfound
              | missing => exact missing links location name steps hfound
              | there => exact there links location name steps hfound (ih (location ++ [name]))
              | link target =>
                  cases links with
                  | zero => exact linkZero location name steps target hfound
                  | succ links =>
                      apply linkSucc links location name steps target hfound
                      apply hlinks links (Nat.lt_succ_self links) location _

/-- A path is followed up to some component, where nothing is created yet, and from there on. -/
theorem walk_append {steps' : List Component} (hsteps' : steps' ≠ []) :
  root.walk create links location (steps ++ steps')
    = (root.walk false links location steps).bind fun r => root.walk create r.2 r.1 steps'
  := by
  induction links, location, steps using walk_induction root with
  | nil links location => rw [List.nil_append, walk_nil, Option.bind_some]
  | rootDir links location steps ih => rw [List.cons_append, walk_rootDir, walk_rootDir, ih]
  | curDir links location steps ih =>
      rw [List.cons_append, walk_curDir, walk_curDir, ih]
      split_ifs <;> rfl
  | parentDir links location steps ih =>
      rw [List.cons_append, walk_parentDir, walk_parentDir, ih]
      split_ifs <;> rfl
  | noDirectory links location name steps hfound =>
      rw [List.cons_append, walk_noDirectory hfound, walk_noDirectory hfound, Option.bind_none]
  | missing links location name steps hfound =>
      rw [List.cons_append, walk_missing hfound, walk_missing hfound]
      simp [hsteps']
  | there links location name steps hfound ih =>
      rw [List.cons_append, walk_there hfound, walk_there hfound, ih]
  | linkZero location name steps target hfound =>
      rw [List.cons_append, walk_link_zero hfound, walk_link_zero hfound, Option.bind_none]
  | linkSucc links location name steps target hfound ih =>
      rw [List.cons_append, walk_link_succ hfound, walk_link_succ hfound, ← List.append_assoc, ih]

/-- What is there is found also when missing files are created. -/
theorem walk_create {r : Location × ℕ} (h : root.walk false links location steps = some r) :
  root.walk true links location steps = some r
  := by
  induction links, location, steps using walk_induction root with
  | nil links location =>
      rw [walk_nil] at h ⊢
      exact h
  | rootDir links location steps ih =>
      rw [walk_rootDir] at h ⊢
      apply ih h
  | curDir links location steps ih =>
      rw [walk_curDir, Option.ite_none_right_eq_some] at h ⊢
      exact ⟨h.1, ih h.2⟩
  | parentDir links location steps ih =>
      rw [walk_parentDir, Option.ite_none_right_eq_some] at h ⊢
      exact ⟨h.1, ih h.2⟩
  | noDirectory links location name steps hfound =>
      rw [walk_noDirectory hfound] at h
      cases h
  | missing links location name steps hfound =>
      rw [walk_missing hfound] at h
      cases h
  | there links location name steps hfound ih =>
      rw [walk_there hfound] at h ⊢
      apply ih h
  | linkZero location name steps target hfound =>
      rw [walk_link_zero hfound] at h
      cases h
  | linkSucc links location name steps target hfound ih =>
      rw [walk_link_succ hfound] at h ⊢
      apply ih h

end

end Node

end VynxDesk.LinkTree
