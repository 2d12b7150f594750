import VynxDesk.Lib.HostPath
import VynxDesk.Lib.Lines
import VynxDesk.Lib.Run
import VynxDesk.Lib.SplitOn
import VynxDesk.Lib.Trim
import VynxDesk.Portable.Merge

/-!
# The sweep for dropped files

`setup` of `libs/portable/src/main.rs` records the paths of a package in `meta.toml`, and the next
one deletes the files that its package does not have any more.  The record is a text that a user can
edit.  A path is compared with the package as a normalized text, and deleted as a list of
components.  Whatever the text says, what is deleted is below the directory, and what
cannot be deleted is recorded again (`swept`), except for paths that lead out of the directory,
which are skipped (`not_swept`).
-/

namespace VynxDesk.Portable

open HostPath

/-- `META_LINE_PREFIX_TIMESTAMP`. -/
def metaLinePrefixTimestamp : String := "timestamp = "

/-- `META_LINE_PREFIX_FILE`. -/
def metaLinePrefixFile : String := "file = "

/-- What `write_meta` writes. -/
def writeMeta (ts : ℕ) (packagePaths : List String) : String :=
  packagePaths.foldl (fun content path => content ++ (metaLinePrefixFile ++ path ++ "\n"))
    (metaLinePrefixTimestamp ++ toString ts ++ "\n")

/-- A line without its end, which is a line feed with or without a carriage return before it. -/
def stripEnd (line : List Char) : List Char :=
  match line.getLast? with
  | some '\n' =>
      match line.dropLast.getLast? with
      | some '\r' => line.dropLast.dropLast
      | _ => line.dropLast
  | _ => line

/-- `lines`. -/
def lines (content : String) : List (List Char) := (linesOf '\n' content.toList).map stripEnd

/-- `strip_prefix`. -/
def stripPrefix (start text : List Char) : Option (List Char) :=
  if start <+: text then some (text.drop start.length) else none

/-- `previous_package_files`, of what `meta.toml` has if it can be read. -/
def previousPackageFiles : Option String → List String
  | none => []
  | some content =>
      ((lines content).filterMap (stripPrefix metaLinePrefixFile.toList)).map fun path =>
        trim (String.ofList path)

/-- The loop of `resolve_within`. -/
def resolveLoop (path : List Component) (any : Bool) : List Component → Option (List Component)
  | [] => if any then some path else none
  | .normal part :: rest =>
      if ':' ∈ part.toList then none else resolveLoop (path ++ [.normal part]) true rest
  | .curDir :: rest => resolveLoop path any rest
  | _ :: _ => none

/-- `resolve_within`. -/
def resolveWithin (host : HostPath.Host) (dir : List Component) (relative : String) :
    Option (List Component) :=
  resolveLoop dir false (components host (String.ofList (forwardSlashes relative)))

/-- What the sweep asks of a disk: whether there is a regular file, and its deletion, which may
fail. -/
structure FileSystem (σ : Type*) where
  isFile : σ → List Component → Bool
  removeFile : σ → List Component → Bool × σ
  isFile_removed : ∀ s path, (removeFile s path).1 = true →
    isFile (removeFile s path).2 path = false
  isFile_kept : ∀ s path other, isFile (removeFile s path).2 other = true → isFile s other = true

/-- What the sweep has done: the paths that could not be deleted, the paths handed to
`remove_file`, and the disk. -/
structure Swept (σ : Type*) where
  failed : List String := []
  handed : List (List Component) := []
  disk : σ

section

variable {σ : Type*} (u : Lowercase.Properties) (host : HostPath.Host) (dir : List Component)
  (fs : FileSystem σ)

/-- One round of the loop of `remove_dropped_package_files_with`. -/
def sweepOne (keep : List String) (s : Swept σ) (previous : String) : Swept σ :=
  if normalizePath u previous ∈ keep then s
  else
    match resolveWithin host dir previous with
    | none => s
    | some path =>
        if fs.isFile s.disk path then
          let (ok, disk) := fs.removeFile s.disk path
          { failed := if ok then s.failed else s.failed ++ [previous]
            handed := s.handed ++ [path]
            disk := disk }
        else s

/-- `remove_dropped_package_files_with`. -/
def removeDroppedPackageFilesWith (content : Option String) (current : List String) (disk : σ) :
    Swept σ :=
  let keep := current.map (normalizePath u)
  (previousPackageFiles content).foldl (sweepOne u host dir fs keep) { disk := disk }

/-- A run of `setup` without a wipe: the time stamp of the packer, the paths of the package, and the
disk that it finds. -/
structure Setup (σ : Type*) where
  ts : ℕ
  packagePaths : List String
  disk : σ

/-- The sweep of a run that finds this `meta.toml`. -/
def Setup.swept (r : Setup σ) (content : Option String) : Swept σ :=
  removeDroppedPackageFilesWith u host dir fs content r.packagePaths r.disk

/-- What a run leaves in `meta.toml`. -/
def Setup.meta (r : Setup σ) (content : Option String) : String :=
  writeMeta r.ts (r.packagePaths ++ (r.swept u host dir fs content).failed)

/-- A run of `setup`, between two contents of `meta.toml`. -/
def Setup.Step (content : Option String) (r : Setup σ) (content' : Option String) : Prop :=
  content' = some (r.meta u host dir fs content)

end

/-! ### What a path says -/

/-- A name that a directory can have below it on any host. -/
structure PlainName (name : String) : Prop where
  ne_empty : name ≠ ""
  ne_dot : name ≠ "."
  ne_dotdot : name ≠ ".."
  free : ∀ c ∈ name.toList, c ≠ '/' ∧ c ≠ '\\' ∧ c ≠ ':'

/-- The text of a relative path. -/
def joined (names : List String) : String :=
  String.ofList (['/'].intercalate (names.map String.toList))

/-- Where a path leads from the directory. -/
def located (host : HostPath.Host) (dir : List Component) (relative : String) : List Component :=
  dir ++ (components host (String.ofList (forwardSlashes relative))).filter (· ≠ .curDir)

/-- A text that a path is written in without need: no part of it is empty or a dot, when slashes are
turned and the start is trimmed. -/
def Plain (relative : String) : Prop :=
  ∀ part ∈ (trimStartMatches (forwardSlashes relative)).splitOn '/', part ≠ [] ∧ part ≠ ['.']

instance (relative : String) : Decidable (Plain relative) :=
  inferInstanceAs (Decidable (∀ part ∈ _, _))

variable {host : HostPath.Host} {dir path : List Component} {relative : String} {text : List Char}

/-- The loop of `resolve_within` lets names without a colon pass, and a dot. -/
theorem resolveLoop_eq_some {any : Bool} {parts result : List Component}
    (h : resolveLoop path any parts = some result) :
  ∃ names : List String, result = path ++ names.map .normal
    ∧ parts.filter (· ≠ .curDir) = names.map .normal ∧ (∀ name ∈ names, ':' ∉ name.toList)
    ∧ (any = true ∨ names ≠ [])
  := by
  induction parts generalizing path any with
  | nil =>
      rw [resolveLoop, Option.ite_none_right_eq_some] at h
      obtain ⟨hany, hresult⟩ := h
      refine ⟨[], ?_, rfl, nofun, .inl hany⟩
      rw [List.map_nil, List.append_nil, Option.some.inj hresult]
  | cons part parts ih =>
      cases part with
      | normal name =>
          rw [resolveLoop] at h
          split at h
          · cases h
          · rename_i hcolon
            obtain ⟨names, hresult, hparts, hnames, -⟩ := ih h
            refine ⟨name :: names, ?_, ?_, ?_, .inr (List.cons_ne_nil _ _)⟩
            · rw [hresult, List.append_assoc, List.map_cons, List.singleton_append]
            · rw [List.filter_cons_of_pos (by simp), hparts, List.map_cons]
            · exact List.forall_mem_cons.mpr ⟨hcolon, hnames⟩
      | curDir =>
          rw [resolveLoop] at h
          rw [List.filter_cons_of_neg (by simp)]
          exact ih h
      | pathPrefix text => cases h
      | rootDir => cases h
      | parentDir => cases h

/-- What `resolve_within` accepts, it resolves to where the path leads. -/
theorem eq_located (h : resolveWithin host dir relative = some path) :
  path = located host dir relative
  := by
  obtain ⟨names, hpath, hparts, -⟩ := resolveLoop_eq_some h
  rw [located, hparts, hpath]

theorem backslash_notMem_forwardSlashes :
  '\\' ∉ forwardSlashes relative
  := by
  intro h
  obtain ⟨c, -, hc⟩ := List.mem_map.mp h
  split at hc
  · cases hc
  · rename_i hne
    exact hne hc

/-- What `resolve_within` accepts is the directory and plain names, which are the parts of the
text. -/
theorem resolveWithin_eq_some (h : resolveWithin host dir relative = some path) :
  ∃ names : List String, names ≠ [] ∧ path = dir ++ names.map .normal
    ∧ (∀ name ∈ names, PlainName name)
    ∧ ((forwardSlashes relative).splitOn '/').filterMap UnixPath.componentOf = names.map .normal
  := by
  obtain ⟨names, hpath, hcomponents, hcolon, hne⟩ := resolveLoop_eq_some h
  have hparts := parts_of_components hcomponents
  rw [String.toList_ofList] at hparts
  refine ⟨names, hne.resolve_left nofun, hpath, ?_, hparts⟩
  intro name hname
  have hmem : UnixPath.Component.normal name ∈ names.map UnixPath.Component.normal :=
    List.mem_map_of_mem hname
  rw [← hparts] at hmem
  obtain ⟨part, hpart, hnormal⟩ := List.mem_filterMap.mp hmem
  obtain ⟨rfl, hnil, hdot, hdots⟩ := UnixPath.componentOf_eq_normal hnormal
  constructor
  · rintro rfl
    exact hnil rfl
  · rintro rfl
    exact hdot rfl
  · rintro rfl
    exact hdots rfl
  · intro c hc
    refine ⟨?_, ?_, ?_⟩
    · rintro rfl
      exact notMem_of_mem_splitOn hpart hc
    · rintro rfl
      exact backslash_notMem_forwardSlashes (mem_of_mem_splitOn hpart hc)
    · rintro rfl
      exact hcolon name hname hc

theorem splitOn_dot (rest : List Char) :
  ('.' :: '/' :: rest).splitOn '/' = ['.'] :: rest.splitOn '/'
  := by
  have hdot : '/' ∉ ['.'] := by
    decide
  exact List.splitOn_append_cons_self_of_not_mem hdot rest

/-- The start that `trim_start_matches` removes has no names. -/
theorem filterMap_componentOf_trimStartMatches :
  ((trimStartMatches text).splitOn '/').filterMap UnixPath.componentOf
    = (text.splitOn '/').filterMap UnixPath.componentOf
  := by
  fun_induction trimStartMatches text with
  | case1 rest ih =>
      rw [ih, splitOn_dot]
      rfl
  | case2 text _ => rfl

theorem map_toList_of_filterMap {parts : List (List Char)} {names : List String}
    (hplain : ∀ part ∈ parts, part ≠ [] ∧ part ≠ ['.'])
    (hparts : parts.filterMap UnixPath.componentOf = names.map .normal) :
  names.map String.toList = parts
  := by
  induction parts generalizing names with
  | nil =>
      rw [List.map_eq_nil_iff.mp hparts.symm]
      rfl
  | cons part parts ih =>
      rw [List.forall_mem_cons] at hplain
      rw [List.filterMap_cons] at hparts
      unfold UnixPath.componentOf at hparts
      split at hparts
      · rename_i hnone
        split at hnone
        · exact absurd rfl hplain.1.1
        · exact absurd rfl hplain.1.2
        · cases hnone
        · cases hnone
      · rename_i c hsome
        cases names with
        | nil => cases hparts
        | cons name names =>
            obtain ⟨rfl, hrest⟩ := List.cons.inj hparts
            obtain ⟨rfl, -⟩ := UnixPath.componentOf_eq_normal hsome
            rw [List.map_cons, ih hplain.2 hrest]

/-- The parts of a plain text are the names that its path has. -/
theorem joined_of_plain {names : List String} (hplain : Plain relative)
    (hparts : ((forwardSlashes relative).splitOn '/').filterMap UnixPath.componentOf
      = names.map .normal) :
  (joined names).toList = trimStartMatches (forwardSlashes relative)
  := by
  rw [← filterMap_componentOf_trimStartMatches] at hparts
  rw [joined, map_toList_of_filterMap hplain hparts, String.toList_ofList,
    List.intercalate_splitOn]

theorem trimStartMatches_eq_self (h : ∀ rest, text ≠ '.' :: '/' :: rest) :
  trimStartMatches text = text
  := by
  unfold trimStartMatches
  split
  · exact absurd rfl (h _)
  · rfl

theorem trimStartMatches_suffix (text : List Char) :
  trimStartMatches text <:+ text
  := by
  fun_induction trimStartMatches text with
  | case1 rest ih => exact ih.trans (List.suffix_append ['.', '/'] rest)
  | case2 text _ => exact List.suffix_rfl

theorem forwardSlashes_eq_self (h : '\\' ∉ relative.toList) :
  forwardSlashes relative = relative.toList
  := by
  rw [forwardSlashes, ← List.map_id relative.toList, List.map_map]
  apply List.map_congr_left
  intro c hc
  rw [Function.comp_apply, id, if_neg]
  rintro rfl
  exact h hc

/-- The path of a plain text is compared as the text is. -/
theorem normalizePath_joined {u : Lowercase.Properties} {names : List String}
    (hplain : Plain relative)
    (hparts : ((forwardSlashes relative).splitOn '/').filterMap UnixPath.componentOf
      = names.map .normal) :
  normalizePath u (joined names) = normalizePath u relative
  := by
  have hjoined := joined_of_plain hplain hparts
  have hslashes : forwardSlashes (joined names) = trimStartMatches (forwardSlashes relative) := by
    rw [forwardSlashes_eq_self, hjoined]
    rw [hjoined]
    intro hmem
    exact backslash_notMem_forwardSlashes ((trimStartMatches_suffix _).mem hmem)
  have htrim : trimStartMatches (trimStartMatches (forwardSlashes relative))
      = trimStartMatches (forwardSlashes relative) := by
    apply trimStartMatches_eq_self
    intro rest hdot
    have hfirst : ['.'] ∈ (trimStartMatches (forwardSlashes relative)).splitOn '/' := by
      rw [hdot, splitOn_dot]
      exact List.mem_cons_self
    exact (hplain _ hfirst).2 rfl
  rw [normalizePath, hslashes, htrim, normalizePath]

/-! ### The sweep -/

section

variable {σ : Type*} {u : Lowercase.Properties} {fs : FileSystem σ} {keep : List String}
  {s : Swept σ} {previous line : String} {other : List Component}

/-- What a round can do: nothing, when the path is kept, or rejected, or not there; or it hands the
path to `remove_file`. -/
theorem sweepOne_cases (u : Lowercase.Properties) (host : HostPath.Host) (dir : List Component)
    (fs : FileSystem σ) (keep : List String) (s : Swept σ) (previous : String) :
  (sweepOne u host dir fs keep s previous = s
      ∧ (normalizePath u previous ∉ keep → ∀ path, resolveWithin host dir previous = some path →
          fs.isFile s.disk path = false))
    ∨ ∃ path, normalizePath u previous ∉ keep ∧ resolveWithin host dir previous = some path
      ∧ sweepOne u host dir fs keep s previous =
          { failed := if (fs.removeFile s.disk path).1 then s.failed else s.failed ++ [previous]
            handed := s.handed ++ [path]
            disk := (fs.removeFile s.disk path).2 }
  := by
  rw [sweepOne]
  split
  · rename_i hkept
    left
    exact ⟨rfl, fun hnot => absurd hkept hnot⟩
  · rename_i hdropped
    cases hresolve : resolveWithin host dir previous with
    | none =>
        left
        exact ⟨rfl, nofun⟩
    | some path =>
        dsimp only
        split
        · right
          exact ⟨path, hdropped, rfl, rfl⟩
        · rename_i hmissing
          left
          refine ⟨rfl, ?_⟩
          rintro - path' hpath
          rw [← Option.some.inj hpath]
          exact Bool.eq_false_of_not_eq_true hmissing

/-- The disk `s'` has no file that the disk `s` has not, and its failures are not fewer. -/
def Later (fs : FileSystem σ) (s s' : Swept σ) : Prop :=
  (∀ path, fs.isFile s'.disk path = true → fs.isFile s.disk path = true) ∧ s.failed ⊆ s'.failed

theorem Later.refl (fs : FileSystem σ) (s : Swept σ) :
  Later fs s s
  := ⟨fun _ => id, List.Subset.refl _⟩

theorem Later.gone {s' : Swept σ} (h : Later fs s s') (hgone : fs.isFile s.disk path = false) :
  fs.isFile s'.disk path = false
  := by
  by_contra hthere
  rw [h.1 path (Bool.eq_true_of_not_eq_false hthere)] at hgone
  cases hgone

/-- A round creates no file and forgets no failure. -/
theorem later_sweepOne (s : Swept σ) (previous : String) :
  Later fs s (sweepOne u host dir fs keep s previous)
  := by
  rcases sweepOne_cases u host dir fs keep s previous with ⟨hsame, -⟩ | ⟨path, -, -, hremove⟩
  · rw [hsame]
    exact Later.refl fs s
  · rw [hremove]
    refine ⟨fs.isFile_kept _ _, ?_⟩
    dsimp only
    split
    · exact List.Subset.refl _
    · exact List.subset_append_left _ _

theorem later_foldl (lines : List String) (s : Swept σ) :
  Later fs s (lines.foldl (sweepOne u host dir fs keep) s)
  := by
  induction lines generalizing s with
  | nil => exact Later.refl fs s
  | cons line lines ih =>
      have hround : Later fs s (sweepOne u host dir fs keep s line) := later_sweepOne s line
      have hrest := ih (sweepOne u host dir fs keep s line)
      exact ⟨fun path h => hround.1 path (hrest.1 path h), List.Subset.trans hround.2 hrest.2⟩

/-- What is handed to `remove_file` is the path of a line that the package does not have. -/
theorem mem_handed (lines : List String)
    (h : path ∈ (lines.foldl (sweepOne u host dir fs keep) s).handed) :
  path ∈ s.handed
    ∨ ∃ line ∈ lines, normalizePath u line ∉ keep ∧ resolveWithin host dir line = some path
  := by
  induction lines generalizing s with
  | nil => exact .inl h
  | cons first lines ih =>
      rcases ih h with hfirst | ⟨line, hline, hdropped⟩
      · rcases sweepOne_cases u host dir fs keep s first with
          ⟨hsame, -⟩ | ⟨path', hdropped, hresolve, hremove⟩
        · rw [hsame] at hfirst
          exact .inl hfirst
        · rw [hremove] at hfirst
          rcases List.mem_append.mp hfirst with hfirst | hpath
          · exact .inl hfirst
          · rw [List.mem_singleton.mp hpath]
            exact .inr ⟨first, List.mem_cons_self, hdropped, hresolve⟩
      · exact .inr ⟨line, List.mem_cons_of_mem _ hline, hdropped⟩

/-- Behind the sweep the path of a line that the package does not have is no file, or the line could
not be deleted. -/
theorem isFile_or_mem_failed (lines : List String) (hline : line ∈ lines)
    (hdropped : normalizePath u line ∉ keep) (hresolve : resolveWithin host dir line = some path) :
  fs.isFile (lines.foldl (sweepOne u host dir fs keep) s).disk path = false
    ∨ line ∈ (lines.foldl (sweepOne u host dir fs keep) s).failed
  := by
  induction lines generalizing s with
  | nil => cases hline
  | cons first lines ih =>
      rcases List.mem_cons.mp hline with rfl | hline
      · have hrest : Later fs (sweepOne u host dir fs keep s line)
            (lines.foldl (sweepOne u host dir fs keep) (sweepOne u host dir fs keep s line)) :=
          later_foldl lines _
        rcases sweepOne_cases u host dir fs keep s line with
          ⟨hsame, hmissing⟩ | ⟨path', -, hpath, hremove⟩
        · left
          apply hrest.gone
          rw [hsame]
          exact hmissing hdropped path hresolve
        · obtain rfl := Option.some.inj (hpath.symm.trans hresolve)
          by_cases hok : (fs.removeFile s.disk path').1 = true
          · left
            apply hrest.gone
            rw [hremove]
            exact fs.isFile_removed _ _ hok
          · right
            apply hrest.2
            rw [hremove]
            dsimp only
            rw [if_neg hok]
            exact List.mem_append_right _ (List.mem_singleton.mpr rfl)
      · exact ih hline

end

/-! ### The record -/

/-- The text of `write_meta` is a complete one with its first lines, and the lines of the paths. -/
theorem writeMeta_eq (ts : ℕ) (paths : List String) :
  (writeMeta ts paths).toList
    = (metaLinePrefixTimestamp ++ toString ts ++ "\n").toList
      ++ paths.flatMap fun path => metaLinePrefixFile.toList ++ path.toList ++ ['\n']
  := by
  rw [writeMeta]
  generalize metaLinePrefixTimestamp ++ toString ts ++ "\n" = content
  induction paths generalizing content with
  | nil => rw [List.foldl_nil, List.flatMap_nil, List.append_nil]
  | cons path paths ih =>
      rw [List.foldl_cons, ih, List.flatMap_cons]
      simp only [String.toList_append, List.append_assoc]
      rfl

theorem complete_flatMap (paths : List String) :
  Complete '\n' (paths.flatMap fun path => metaLinePrefixFile.toList ++ path.toList ++ ['\n'])
  := by
  induction paths with
  | nil => exact .inl rfl
  | cons path paths ih =>
      rw [List.flatMap_cons]
      by_cases hnil : (paths.flatMap fun path =>
          metaLinePrefixFile.toList ++ path.toList ++ ['\n']) = []
      · rw [hnil, List.append_nil]
        apply complete_append_sep
      · rw [complete_append_iff hnil]
        exact ih

/-- A line without white space at its end loses only the line feed. -/
theorem stripEnd_append {line : List Char} (h : ∀ before, line ≠ before ++ ['\r']) :
  stripEnd (line ++ ['\n']) = line
  := by
  simp only [stripEnd, List.getLast?_concat, List.dropLast_concat]
  split
  · rename_i hreturn
    obtain ⟨before, hbefore⟩ := List.getLast?_eq_some_iff.mp hreturn
    exact absurd hbefore (h before)
  · rfl

theorem stripPrefix_append (start text : List Char) :
  stripPrefix start (start ++ text) = some text
  := by
  rw [stripPrefix, if_pos (List.prefix_append _ _), List.drop_left]

/-- A path without line feeds, and without white space around it, is read as it was recorded. -/
theorem mem_previousPackageFiles {ts : ℕ} {paths : List String} {p : String} (hp : p ∈ paths)
    (hline : '\n' ∉ p.toList) (htrim : trim p = p) :
  p ∈ previousPackageFiles (some (writeMeta ts paths))
  := by
  have hlast : ∀ before, p.toList ≠ before ++ ['\r'] := by
    intro before hbefore
    have hspace := not_isWhiteSpace_of_trim htrim hbefore
    cases hspace
  obtain ⟨before, after, rfl⟩ := List.append_of_mem hp
  have hcontent : metaLinePrefixFile.toList ++ p.toList ++ ['\n']
      ∈ linesOf '\n' (writeMeta ts (before ++ p :: after)).toList := by
    rw [writeMeta_eq, List.flatMap_append, List.flatMap_cons, linesOf_append, linesOf_append,
      linesOf_append, linesOf_append_sep]
    · simp
    · rw [List.mem_append, not_or]
      exact ⟨by decide, hline⟩
    · apply complete_append_sep
    · apply complete_flatMap
    · rw [String.toList_append]
      apply complete_append_sep
  rw [previousPackageFiles, List.mem_map]
  refine ⟨p.toList, ?_, ?_⟩
  · rw [List.mem_filterMap]
    refine ⟨metaLinePrefixFile.toList ++ p.toList, ?_, stripPrefix_append _ _⟩
    rw [lines, List.mem_map]
    refine ⟨_, hcontent, stripEnd_append ?_⟩
    intro start hstart
    have hend := congrArg List.getLast? hstart
    rw [List.getLast?_append, List.getLast?_concat] at hend
    cases hpath : p.toList.getLast? with
    | none =>
        rw [hpath] at hend
        exact absurd hend (by decide)
    | some c =>
        rw [hpath] at hend
        obtain ⟨before, hbefore⟩ := List.getLast?_eq_some_iff.mp hpath
        rw [Option.some.inj hend] at hbefore
        exact hlast before hbefore
  · rw [String.ofList_toList, htrim]

/-! ### Runs -/

/-- The package has a file with this normalized path. -/
def Setup.Has {σ : Type*} (u : Lowercase.Properties) (r : Setup σ) (p : String) : Prop :=
  normalizePath u p ∈ r.packagePaths.map (normalizePath u)

instance {σ : Type*} (u : Lowercase.Properties) (r : Setup σ) (p : String) :
    Decidable (r.Has u p) :=
  inferInstanceAs (Decidable (_ ∈ _))

/-- A path is written between two line feeds as it is, and read as it was written. -/
structure OneLine (p : String) : Prop where
  line : '\n' ∉ p.toList
  trimmed : trim p = p

/-- Every path that is handed to `remove_file` is below the directory; and it is the path of no file
of the package, when the line that it comes from is plain. -/
def SweepConfined {σ : Type*} (u : Lowercase.Properties) (host : HostPath.Host) (dir : List Component)
    (fs : FileSystem σ) : Prop :=
  ∀ (content : Option String) (current : List String) (disk : σ),
    ∀ path ∈ (removeDroppedPackageFilesWith u host dir fs content current disk).handed,
      ∃ names : List String, names ≠ [] ∧ path = dir ++ names.map .normal
        ∧ (∀ name ∈ names, PlainName name)
        ∧ ∃ line ∈ previousPackageFiles content, resolveWithin host dir line = some path
          ∧ (Plain line → normalizePath u (joined names) ∉ current.map (normalizePath u))

/-- What a package had and the ones behind it have no more is recorded, unless one of their sweeps
left no file there. -/
def SweepComplete {σ : Type*} (u : Lowercase.Properties) (host : HostPath.Host) (dir : List Component)
    (fs : FileSystem σ) (P : String → Prop) : Prop :=
  ∀ (content content' : Option String) (before after : List (Option String × Setup σ))
    (r : Option String × Setup σ),
    Run (Setup.Step u host dir fs) content (before ++ r :: after) content' →
      ∀ p ∈ r.2.packagePaths, OneLine p → P p → (∀ x ∈ after, ¬ x.2.Has u p) →
        (∃ x ∈ after, fs.isFile (x.2.swept u host dir fs x.1).disk (located host dir p) = false)
          ∨ p ∈ previousPackageFiles content'

section

variable {σ : Type*} {u : Lowercase.Properties} {fs : FileSystem σ}

theorem sweepConfined : SweepConfined u host dir fs
  := by
  intro content current disk path hpath
  rcases mem_handed _ hpath with hnone | ⟨line, hline, hdropped, hresolve⟩
  · cases hnone
  · obtain ⟨names, hne, hnames, hplain, hparts⟩ := resolveWithin_eq_some hresolve
    refine ⟨names, hne, hnames, hplain, line, hline, hresolve, ?_⟩
    intro hplainLine
    rw [normalizePath_joined hplainLine hparts]
    exact hdropped

/-- What is recorded, and not in the package, is gone behind a run, or recorded again. -/
theorem recorded_again {content : Option String} {r : Setup σ} {p : String} (hp : OneLine p)
    (hrecorded : p ∈ previousPackageFiles content) (hdropped : ¬ r.Has u p)
    (hresolve : (resolveWithin host dir p).isSome) :
  fs.isFile (r.swept u host dir fs content).disk (located host dir p) = false
    ∨ p ∈ previousPackageFiles (some (r.meta u host dir fs content))
  := by
  obtain ⟨path, hpath⟩ := Option.isSome_iff_exists.mp hresolve
  rw [← eq_located hpath]
  rcases isFile_or_mem_failed _ hrecorded hdropped hpath with hgone | hfailed
  · exact .inl hgone
  · right
    apply mem_previousPackageFiles _ hp.line hp.trimmed
    exact List.mem_append_right _ hfailed

theorem sweepComplete : SweepComplete u host dir fs fun p => (resolveWithin host dir p).isSome
  := by
  intro content content' before after r hrun p hpackage hp hresolve hdropped
  rw [or_iff_not_imp_left]
  intro hkept
  apply (hrun.after (fun content => p ∈ previousPackageFiles content) _ _).2
  · rintro _ rfl
    apply mem_previousPackageFiles _ hp.line hp.trimmed
    exact List.mem_append_left _ hpackage
  · rintro x hx _ hrecorded rfl
    rcases recorded_again hp hrecorded (hdropped x hx) hresolve with hgone | hagain
    · exact absurd ⟨x, hx, hgone⟩ hkept
    · exact hagain

/-- The sweep hands only paths below the directory to `remove_file`, and in every sequence of runs
what it cannot delete of paths that do not lead out of the directory is recorded again. -/
theorem swept (u : Lowercase.Properties) (host : HostPath.Host) (dir : List Component) (fs : FileSystem σ) :
  SweepConfined u host dir fs
    ∧ SweepComplete u host dir fs fun p => (resolveWithin host dir p).isSome
  := ⟨sweepConfined, sweepComplete⟩

end

/-- A disk with regular files, of which some cannot be deleted. -/
structure Disk where
  files : List (List Component)
  locked : List (List Component) := []
  deriving DecidableEq

def Disk.fileSystem : FileSystem Disk where
  isFile s path := path ∈ s.files
  removeFile s path :=
    if path ∈ s.locked then (false, s) else (true, { s with files := s.files.filter (· ≠ path) })
  isFile_removed := by
    intro s path h
    split at h
    · cases h
    · rename_i hfree
      rw [if_neg hfree]
      simp
  isFile_kept := by
    intro s path other h
    split at h
    · exact h
    · simp only [decide_eq_true_eq, List.mem_filter] at h ⊢
      exact h.1

/-- A package has a logo, and the next one has none, but the logo is in use. -/
def logoDropped (locked : List (List Component)) : List (Setup Disk) :=
  let logo := [.normal "base", .normal "data", .normal "Logo.png"]
  [⟨1, ["./data/Logo.png"], ⟨[], []⟩⟩, ⟨1, [], ⟨[logo], locked⟩⟩]

/-- What a list of runs leaves in `meta.toml`. -/
def metaBehind (host : HostPath.Host) (content : Option String) (runs : List (Setup Disk)) : Option String :=
  runs.foldl (fun content r =>
    some (r.meta .ascii host [.normal "base"] Disk.fileSystem content)) content

theorem run_metaBehind (host : HostPath.Host) (runs : List (Setup Disk)) :
  Run (Setup.Step .ascii host [.normal "base"] Disk.fileSystem) none
    (Run.trace (fun content r => some (r.meta .ascii host [.normal "base"] Disk.fileSystem content))
      none runs)
    (metaBehind host none runs)
  := Run.of_next (R := Setup.Step .ascii host [.normal "base"] Disk.fileSystem) (fun _ _ => rfl)
    runs none

theorem swept_sample :
  "./data/Logo.png" ∈ previousPackageFiles
    (metaBehind .windows none
      (logoDropped [[.normal "base", .normal "data", .normal "Logo.png"]]))
  := by
  have hrun := run_metaBehind .windows
    (logoDropped [[.normal "base", .normal "data", .normal "Logo.png"]])
  have hsweep := (swept .ascii .windows [.normal "base"] Disk.fileSystem).2 none _ [] _ _ hrun
    "./data/Logo.png" (by decide) ⟨by decide, by decide⟩ (by decide)
  rcases hsweep (by decide +kernel) with hgone | hrecorded
  · exact absurd hgone (by decide +kernel)
  · exact hrecorded

/-- A package has a file outside the directory, and the next one has none: the file is neither
deleted nor recorded.  A line with two slashes leads to a file of the package, which is deleted. -/
theorem not_swept :
  (¬ SweepComplete .ascii .windows [.normal "base"] Disk.fileSystem fun _ => True)
    ∧ ¬ ∀ (content : Option String) (current : List String) (disk : Disk),
      ∀ path ∈ (removeDroppedPackageFilesWith .ascii .windows [.normal "base"] Disk.fileSystem
          content current disk).handed,
        ∃ names : List String, names ≠ [] ∧ path = [.normal "base"] ++ names.map .normal
          ∧ (∀ name ∈ names, PlainName name)
          ∧ normalizePath .ascii (joined names) ∉ current.map (normalizePath .ascii)
  := by
  constructor
  · intro hall
    have hrun := run_metaBehind .windows [⟨1, ["../logo.png"], ⟨[], []⟩⟩,
      ⟨1, [], ⟨[[.normal "base", .parentDir, .normal "logo.png"]], []⟩⟩]
    have hsweep := hall none _ [] _ _ hrun "../logo.png" (by decide) ⟨by decide, by decide⟩ trivial
    rcases hsweep (by decide +kernel) with hgone | hrecorded
    · exact absurd hgone (by decide +kernel)
    · exact absurd hrecorded (by decide +kernel)
  · intro hall
    have hlogo := hall (some "file = data//logo.png\n") ["data/logo.png"]
      ⟨[[.normal "base", .normal "data", .normal "logo.png"]], []⟩
      [.normal "base", .normal "data", .normal "logo.png"] (by decide +kernel)
    obtain ⟨names, -, hnames, -, hother⟩ := hlogo
    obtain rfl : names = ["data", "logo.png"] := by
      have hmap : names.map Component.normal = ["data", "logo.png"].map Component.normal :=
        (List.cons.inj hnames).2.symm
      exact List.map_injective_iff.mpr (fun _ _ h => Component.normal.inj h) hmap
    exact absurd hother (by decide +kernel)

end VynxDesk.Portable
