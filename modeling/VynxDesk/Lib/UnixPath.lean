import Mathlib.Data.String.Basic

/-!
# Paths of Unix

The components of a path, as `std::path` has them: repeated and trailing slashes do not count, and a
dot counts only at the start of a relative path.  Paths are compared by their components.
-/

namespace VynxDesk.UnixPath

/-- A component of a path. -/
inductive Component where
  | rootDir
  | curDir
  | parentDir
  | normal (name : String)
  deriving DecidableEq, Repr

/-- What a part between slashes is, behind the start of the path. -/
def componentOf : List Char → Option Component
  | [] => none
  | ['.'] => none
  | ['.', '.'] => some .parentDir
  | part => some (.normal (String.ofList part))

/-- `components`. -/
def components (path : String) : List Component :=
  let parts := path.toList.splitOn '/'
  let start :=
    if path.toList.head? = some '/' then [.rootDir]
    else if parts.head? = some ['.'] then [.curDir]
    else []
  start ++ parts.filterMap componentOf

/-- Before its parts a path has a root, a dot, or nothing. -/
theorem components_eq (path : String) :
  ∃ start ∈ [[], [Component.rootDir], [Component.curDir]],
    components path = start ++ (path.toList.splitOn '/').filterMap componentOf
  := by
  refine ⟨_, ?_, rfl⟩
  split_ifs <;> simp

/-- A part is a name, unless it is empty or made of one or two dots. -/
theorem componentOf_eq_normal {part : List Char} {name : String}
    (h : componentOf part = some (.normal name)) :
  part = name.toList ∧ part ≠ [] ∧ part ≠ ['.'] ∧ part ≠ ['.', '.']
  := by
  unfold componentOf at h
  split at h
  · cases h
  · cases h
  · cases h
  · rename_i hnil hdot hdots
    cases h
    exact ⟨(String.toList_ofList).symm, hnil, hdot, hdots⟩

/-- `parent`: all components but the last one, unless that is the root. -/
def parent (path : List Component) : Option (List Component) :=
  match path.getLast? with
  | none => none
  | some .rootDir => none
  | some _ => some path.dropLast

/-- `file_name`: the last component, if it is a name. -/
def fileName (path : List Component) : Option String :=
  match path.getLast? with
  | some (.normal name) => some name
  | _ => none

/-- What has a name has a parent. -/
theorem parent_of_fileName {path : List Component} {name : String} (h : fileName path = some name) :
  path = path.dropLast ++ [.normal name] ∧ parent path = some path.dropLast
  := by
  rw [fileName] at h
  split at h
  next hlast =>
    cases h
    constructor
    · exact (List.dropLast_append_getLast? _ hlast).symm
    · rw [parent, hlast]
  next => cases h

example : components "./a//b/./.." = [.curDir, .normal "a", .normal "b", .parentDir]
  := by
  decide

end VynxDesk.UnixPath
