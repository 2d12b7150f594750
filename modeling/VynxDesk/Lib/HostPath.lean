import VynxDesk.Lib.UnixPath

/-!
# Paths of a host

The components of a path on Unix and on Windows, where a path may start with a prefix.  Windows
paths are taken as they are written without a backslash.
-/

namespace VynxDesk.HostPath

/-- A component of a path. -/
inductive Component where
  | pathPrefix (text : String)
  | rootDir
  | curDir
  | parentDir
  | normal (name : String)
  deriving DecidableEq, Repr

/-- `parent`: all components but the last one, unless that is a root or a prefix. -/
def parent (path : List Component) : Option (List Component) :=
  match path.getLast? with
  | some (.normal _) | some .curDir | some .parentDir => some path.dropLast
  | _ => none

/-- `file_name`: the last component, if it is a name. -/
def fileName (path : List Component) : Option String :=
  match path.getLast? with
  | some (.normal name) => some name
  | _ => none

/-- A path is longer than its parent. -/
theorem length_of_parent {path directory : List Component} (h : parent path = some directory) :
  path.length = directory.length + 1
  := by
  have hdrop (hlast : path.getLast? ≠ none) : path.length = path.dropLast.length + 1 := by
    have hne : path ≠ [] := fun hnil => hlast (by rw [hnil]; rfl)
    have hpos := List.length_pos_iff.mpr hne
    rw [List.length_dropLast]
    omega
  unfold parent at h
  split at h
  · rename_i hlast
    cases h
    apply hdrop (by rw [hlast]; nofun)
  · rename_i hlast
    cases h
    apply hdrop (by rw [hlast]; nofun)
  · rename_i hlast
    cases h
    apply hdrop (by rw [hlast]; nofun)
  · cases h

/-! ### Parsing -/

/-- A component of a path of Unix. -/
def ofUnix : UnixPath.Component → Component
  | .rootDir => .rootDir
  | .curDir => .curDir
  | .parentDir => .parentDir
  | .normal name => .normal name

inductive Host where
  | unix
  | windows
  deriving DecidableEq, Repr

/-- The prefix of a path and the text behind it: a share or a device, with the root that it implies,
or a drive. -/
def splitPrefix : List Char → Option (List Char × List Char)
  | '/' :: '/' :: rest =>
      let server := rest.takeWhile (· ≠ '/')
      let behind := (rest.dropWhile (· ≠ '/')).tail
      let share := behind.takeWhile (· ≠ '/')
      if (server = ['.'] ∧ rest ≠ ['.']) ∨ (server ≠ [] ∧ share ≠ []) then
        some ('/' :: '/' :: server ++ '/' :: share, '/' :: behind.dropWhile (· ≠ '/'))
      else none
  | letter :: ':' :: rest => if letter.isAlpha then some ([letter, ':'], rest) else none
  | _ => none

/-- `components`.  Behind a prefix a dot does not count even at the start. -/
def components (host : Host) (path : String) : List Component :=
  match host, splitPrefix path.toList with
  | .windows, some (start, rest) =>
      .pathPrefix (String.ofList start)
        :: ((UnixPath.components (String.ofList rest)).map ofUnix).filter (· ≠ .curDir)
  | _, _ => (UnixPath.components path).map ofUnix

/-- A path without a prefix has the components of a path of Unix. -/
theorem components_eq_ofUnix {host : Host} {path : String}
    (h : ∀ start, .pathPrefix start ∉ components host path) :
  components host path = (UnixPath.components path).map ofUnix
  := by
  cases host with
  | unix => rfl
  | windows =>
      cases hsplit : splitPrefix path.toList with
      | none =>
          simp only [components, hsplit]
      | some split =>
          simp only [components, hsplit] at h
          exact absurd List.mem_cons_self (h _)

theorem ofUnix_injective : Function.Injective ofUnix
  := by
  intro c d h
  cases c <;> cases d <;> cases h <;> rfl

/-- The parts of a path whose components are names, not counting dots. -/
theorem parts_of_components {host : Host} {path : String} {names : List String}
    (h : (components host path).filter (· ≠ .curDir) = names.map .normal) :
  (path.toList.splitOn '/').filterMap UnixPath.componentOf = names.map .normal
  := by
  have hname {c : Component} (hc : c ∈ components host path) (hne : c ≠ .curDir) :
      ∃ name, c = .normal name := by
    have hmem : c ∈ names.map Component.normal := by
      rw [← h]
      exact List.mem_filter.mpr ⟨hc, decide_eq_true hne⟩
    obtain ⟨name, -, rfl⟩ := List.mem_map.mp hmem
    exact ⟨name, rfl⟩
  have hunix := components_eq_ofUnix fun start hstart => by
    obtain ⟨name, hprefix⟩ := hname hstart nofun
    cases hprefix
  obtain ⟨start, hstart, hcomponents⟩ := UnixPath.components_eq path
  have hparts : ∀ c ∈ ((path.toList.splitOn '/').filterMap UnixPath.componentOf).map ofUnix,
      decide (c ≠ .curDir) = true := by
    intro c hc
    obtain ⟨unix, hunix, rfl⟩ := List.mem_map.mp hc
    obtain ⟨part, -, hpart⟩ := List.mem_filterMap.mp hunix
    unfold UnixPath.componentOf at hpart
    split at hpart <;> cases hpart <;> rfl
  rw [hunix, hcomponents, List.map_append] at hname h
  rw [List.filter_append, List.filter_eq_self.mpr hparts] at h
  have hstart : (start.map ofUnix).filter (· ≠ .curDir) = [] := by
    rcases List.mem_cons.mp hstart with rfl | hstart
    · rfl
    · rcases List.mem_pair.mp hstart with rfl | rfl
      · obtain ⟨name, hroot⟩ := hname List.mem_cons_self nofun
        cases hroot
      · rfl
  rw [hstart, List.nil_append] at h
  apply List.map_injective_iff.mpr ofUnix_injective
  rw [h, List.map_map]
  rfl

example : components .windows "C:x" = [.pathPrefix "C:", .normal "x"]
  := by
  decide

example : components .unix "C:x" = [.normal "C:x"]
  := by
  decide

end VynxDesk.HostPath
