import VynxDesk.Lib.Lowercase
import VynxDesk.Portable.Blob

/-!
# Folding a package into the payload

`merge` of `libs/portable/src/bin_reader.rs` renames the stock executable to the name that the
package gives it, and lays the files of the package over those of the payload.  Files are told
apart by their normalized paths.  The renamed executable is laid over nothing: when the payload has
another file under the new name, and the package does not replace both, two files with one path are
left (`not_merged`).  This is the only thing that goes wrong (`merged_iff`).
-/

namespace VynxDesk.Portable

/-! ### Lists with keys -/

section

variable {α κ : Type*} [DecidableEq κ] {key : α → κ} {base upper : List α}

/-- The elements of `upper`, and those of `base` that have no key of theirs. -/
def overlay (key : α → κ) (base upper : List α) : List α :=
  base.filter (fun x => key x ∉ upper.map key) ++ upper

theorem mem_overlay {x : α} :
  x ∈ overlay key base upper ↔ (x ∈ base ∧ key x ∉ upper.map key) ∨ x ∈ upper
  := by
  rw [overlay, List.mem_append, List.mem_filter, decide_eq_true_iff]

/-- Keys are distinct in an overlay when they are among what is laid over, and among what is left
of the rest. -/
theorem nodup_overlay_iff :
  ((overlay key base upper).map key).Nodup
    ↔ ((base.filter fun x => key x ∉ upper.map key).map key).Nodup ∧ (upper.map key).Nodup
  := by
  rw [overlay, List.map_append, List.nodup_append', and_assoc.symm, and_iff_left]
  intro k hbase hover
  obtain ⟨x, hx, rfl⟩ := List.mem_map.mp hbase
  have hnot := of_decide_eq_true (List.mem_filter.mp hx).2
  exact hnot hover

/-- Where keys are distinct, an element is the only one with its key. -/
theorem filter_key_eq {l : List α} (h : (l.map key).Nodup) {x : α} (hx : x ∈ l) :
  l.filter (fun y => key y = key x) = [x]
  := by
  induction l with
  | nil => cases hx
  | cons y l ih =>
      rw [List.map_cons, List.nodup_cons] at h
      rcases List.mem_cons.mp hx with rfl | hx
      · rw [List.filter_cons_of_pos (by simp), List.filter_eq_nil_iff.mpr]
        intro z hz hsame
        apply h.1
        rw [← of_decide_eq_true hsame]
        exact List.mem_map_of_mem hz
      · have hother : ¬ key y = key x := by
          intro hsame
          apply h.1
          rw [hsame]
          exact List.mem_map_of_mem hx
        rw [List.filter_cons_of_neg (by simpa using hother), ih h.2 hx]

end

/-! ### The merge -/

/-- `path.replace('\\', "/")`. -/
def forwardSlashes (path : String) : List Char :=
  path.toList.map fun c => if c = '\\' then '/' else c

/-- `trim_start_matches("./")`. -/
def trimStartMatches : List Char → List Char
  | '.' :: '/' :: rest => trimStartMatches rest
  | text => text

section

variable (u : Lowercase.Properties)

/-- `normalize_path`. -/
def normalizePath (path : String) : String :=
  String.ofList (Lowercase.toLowercase u (trimStartMatches (forwardSlashes path)))

/-- The key of a file. -/
def fileKey (file : BinaryData) : String := normalizePath u file.path

/-- The rename of `merge`. -/
def rename (files : List BinaryData) (genericExe exe : String) : List BinaryData :=
  if genericExe ≠ "" ∧ normalizePath u exe ≠ normalizePath u genericExe then
    let genericKey := normalizePath u genericExe
    files.map fun file =>
      if normalizePath u file.path = genericKey then { file with path := exe } else file
  else files

/-- `merge`. -/
def merge (embedded package : List BinaryData × String) : List BinaryData × String :=
  let (files, genericExe) := embedded
  let (packageFiles, packageExe) := package
  let exe := if packageExe = "" then genericExe else packageExe
  let files := rename u files genericExe exe
  if packageFiles ≠ [] then (overlay (fileKey u) files packageFiles, exe) else (files, exe)

/-- The files have distinct normalized paths. -/
def Distinct (files : List BinaryData) : Prop := (files.map (fileKey u)).Nodup

instance (files : List BinaryData) : Decidable (Distinct u files) :=
  inferInstanceAs (Decidable (List.Nodup _))

/-- The files have one with this path. -/
def Supplies (files : List BinaryData) (path : String) : Prop :=
  normalizePath u path ∈ files.map (fileKey u)

instance (files : List BinaryData) (path : String) : Decidable (Supplies u files path) :=
  inferInstanceAs (Decidable (_ ∈ _))

/-- The stock executable of the payload. -/
def IsStock (embedded : List BinaryData × String) (file : BinaryData) : Prop :=
  embedded.2 ≠ "" ∧ file ∈ embedded.1 ∧ fileKey u file = normalizePath u embedded.2

/-- The result is the payload with the package folded in. -/
structure Merged (embedded package result : List BinaryData × String) : Prop where
  distinct : Distinct u result.1
  ofPackage : ∀ file ∈ package.1, file ∈ result.1
  ofEmbedded : ∀ file ∈ embedded.1, ¬ IsStock u embedded file → ¬ Supplies u package.1 file.path →
    file ∈ result.1
  executable : (∃ stock, IsStock u embedded stock) ∨ Supplies u package.1 result.2 →
    ∃ file, result.1.filter (fun f => fileKey u f = normalizePath u result.2) = [file]
      ∧ (Supplies u package.1 result.2 → file ∈ package.1)
      ∧ (¬ Supplies u package.1 result.2 →
          ∃ stock, IsStock u embedded stock ∧ file.raw = stock.raw ∧ file.md5Code = stock.md5Code)

/-- The package gives the stock executable the path of another file of the payload, and has no file
of that path itself. -/
def Collides (embedded package : List BinaryData × String) : Prop :=
  package.2 ≠ "" ∧ (∃ stock, IsStock u embedded stock)
    ∧ normalizePath u package.2 ≠ normalizePath u embedded.2
    ∧ Supplies u embedded.1 package.2 ∧ ¬ Supplies u package.1 package.2

end

variable {u : Lowercase.Properties} {embedded package : List BinaryData × String}
  {file : BinaryData} {exe : String}

/-- What `rename` makes of a file. -/
def renamed (u : Lowercase.Properties) (genericExe exe : String) (file : BinaryData) : BinaryData :=
  if (genericExe ≠ "" ∧ normalizePath u exe ≠ normalizePath u genericExe)
      ∧ fileKey u file = normalizePath u genericExe then { file with path := exe }
  else file

theorem rename_eq_map (files : List BinaryData) (genericExe exe : String) :
  rename u files genericExe exe = files.map (renamed u genericExe exe)
  := by
  rw [rename]
  split
  · rename_i hrenames
    apply List.map_congr_left
    intro file _
    simp only [renamed, hrenames, and_self, true_and, ne_eq, not_false_eq_true, fileKey]
  · rename_i hkeeps
    rw [← List.map_id files, List.map_map]
    apply List.map_congr_left
    intro file _
    rw [Function.comp_apply, id, renamed, if_neg]
    rintro ⟨hrenames, -⟩
    exact hkeeps hrenames

theorem merge_snd :
  (merge u embedded package).2 = if package.2 = "" then embedded.2 else package.2
  := by
  obtain ⟨files, genericExe⟩ := embedded
  obtain ⟨packageFiles, packageExe⟩ := package
  simp only [merge]
  split <;> rfl

/-- `merge` lays the package over the renamed payload. -/
theorem merge_fst :
  (merge u embedded package).1
    = overlay (fileKey u)
        (embedded.1.map (renamed u embedded.2 (merge u embedded package).2)) package.1
  := by
  rw [merge_snd]
  obtain ⟨files, genericExe⟩ := embedded
  obtain ⟨packageFiles, packageExe⟩ := package
  simp only [merge]
  rw [rename_eq_map]
  split
  · rfl
  · rename_i hnil
    rw [not_not.mp hnil, overlay, List.append_nil, List.filter_eq_self.mpr]
    simp

/-- The stock executable gets the new name, when that is another one. -/
theorem renamed_of_stock (hstock : IsStock u embedded file)
    (hother : normalizePath u exe ≠ normalizePath u embedded.2) :
  renamed u embedded.2 exe file = { file with path := exe }
  := by
  rw [renamed, if_pos ⟨⟨hstock.1, hother⟩, hstock.2.2⟩]

theorem renamed_of_not_stock (hfile : file ∈ embedded.1) (h : ¬ IsStock u embedded file) :
  renamed u embedded.2 exe file = file
  := by
  rw [renamed, if_neg]
  rintro ⟨⟨hgeneric, -⟩, hkey⟩
  exact h ⟨hgeneric, hfile, hkey⟩

theorem renamed_of_same (hsame : normalizePath u exe = normalizePath u embedded.2) :
  renamed u embedded.2 exe file = file
  := by
  rw [renamed, if_neg]
  rintro ⟨⟨-, hother⟩, -⟩
  exact hother hsame

/-- The key of the stock executable is that of the new name. -/
theorem fileKey_renamed_of_stock (hstock : IsStock u embedded file) :
  fileKey u (renamed u embedded.2 exe file) = normalizePath u exe
  := by
  by_cases hsame : normalizePath u exe = normalizePath u embedded.2
  · rw [renamed_of_same hsame, hsame]
    exact hstock.2.2
  · rw [renamed_of_stock hstock hsame]
    rfl

/-- A rename changes no content. -/
theorem renamed_raw (genericExe : String) :
  (renamed u genericExe exe file).raw = file.raw
    ∧ (renamed u genericExe exe file).md5Code = file.md5Code
  := by
  rw [renamed]
  split <;> exact ⟨rfl, rfl⟩

/-- A file that keeps its name does not have the name that the stock executable gets. -/
theorem name_ne_of_not_collides (hfree : ¬ Collides u embedded package) {stock : BinaryData}
    (hstock : IsStock u embedded stock) (hfile : file ∈ embedded.1)
    (hne : ¬ IsStock u embedded file) (hmissing : fileKey u file ∉ package.1.map (fileKey u)) :
  normalizePath u (merge u embedded package).2 ≠ fileKey u file
  := by
  intro hkey
  by_cases hname : package.2 = ""
  · rw [merge_snd, if_pos hname] at hkey
    exact hne ⟨hstock.1, hfile, hkey.symm⟩
  · rw [merge_snd, if_neg hname] at hkey
    apply hfree
    refine ⟨hname, ⟨stock, hstock⟩, ?_, ?_, ?_⟩
    · intro hsame
      exact hne ⟨hstock.1, hfile, by rw [← hkey, hsame]⟩
    · rw [Supplies, hkey]
      exact List.mem_map_of_mem hfile
    · rw [Supplies, hkey]
      exact hmissing

/-- The result has distinct paths exactly when no other file of the payload has the path that the
stock executable gets. -/
theorem distinct_merge_iff (hembedded : Distinct u embedded.1) (hpackage : Distinct u package.1) :
  Distinct u (merge u embedded package).1 ↔ ¬ Collides u embedded package
  := by
  have hinj : ∀ x ∈ embedded.1, ∀ y ∈ embedded.1, fileKey u x = fileKey u y → x = y :=
    fun x hx y hy hkey => List.inj_on_of_nodup_map hembedded hx hy hkey
  have hover : (package.1.map (fileKey u)).Nodup := hpackage
  rw [merge_fst, Distinct, nodup_overlay_iff, and_iff_left hover, List.filter_map, List.map_map]
  constructor
  · rintro hnodup ⟨hname, ⟨stock, hstock⟩, hother, hsupplied, hmissing⟩
    have hexe : (merge u embedded package).2 = package.2 := by
      rw [merge_snd, if_neg hname]
    obtain ⟨file, hfile, hkey⟩ := List.mem_map.mp hsupplied
    have hne : ¬ IsStock u embedded file := by
      intro h
      apply hother
      rw [← hkey, h.2.2]
    have hsame : stock = file := by
      apply List.inj_on_of_nodup_map hnodup
      · rw [List.mem_filter]
        apply And.intro hstock.2.1
        rw [Function.comp_apply, fileKey_renamed_of_stock hstock, hexe]
        exact decide_eq_true hmissing
      · rw [List.mem_filter]
        apply And.intro hfile
        rw [Function.comp_apply, renamed_of_not_stock hfile hne, hkey]
        exact decide_eq_true hmissing
      · rw [Function.comp_apply, Function.comp_apply, fileKey_renamed_of_stock hstock,
          renamed_of_not_stock hfile hne, hkey, hexe]
    exact hne (hsame ▸ hstock)
  · intro hfree
    apply List.Nodup.map_on _ (hembedded.of_map.filter _)
    intro x hx y hy hkey
    obtain ⟨hxFile, hxKept⟩ := List.mem_filter.mp hx
    obtain ⟨hyFile, hyKept⟩ := List.mem_filter.mp hy
    rw [Function.comp_apply, Function.comp_apply] at hkey
    rw [Function.comp_apply, decide_eq_true_iff] at hxKept hyKept
    by_cases hxStock : IsStock u embedded x
    · by_cases hyStock : IsStock u embedded y
      · exact hinj x hxFile y hyFile (hxStock.2.2.trans hyStock.2.2.symm)
      · rw [renamed_of_not_stock hyFile hyStock] at hkey hyKept
        rw [fileKey_renamed_of_stock hxStock] at hkey
        exact absurd hkey (name_ne_of_not_collides hfree hxStock hyFile hyStock hyKept)
    · rw [renamed_of_not_stock hxFile hxStock] at hkey hxKept
      by_cases hyStock : IsStock u embedded y
      · rw [fileKey_renamed_of_stock hyStock] at hkey
        exact absurd hkey.symm (name_ne_of_not_collides hfree hyStock hxFile hxStock hxKept)
      · rw [renamed_of_not_stock hyFile hyStock] at hkey
        exact hinj x hxFile y hyFile hkey

/-- The payload with the package folded in, exactly when the stock executable does not get the path
of another file. -/
theorem merged_iff (hembedded : Distinct u embedded.1) (hpackage : Distinct u package.1) :
  Merged u embedded package (merge u embedded package) ↔ ¬ Collides u embedded package
  := by
  constructor
  · intro h
    exact (distinct_merge_iff hembedded hpackage).mp h.distinct
  · intro hfree
    have hdistinct := (distinct_merge_iff hembedded hpackage).mpr hfree
    constructor
    · exact hdistinct
    · intro file hfile
      rw [merge_fst, mem_overlay]
      exact .inr hfile
    · intro file hfile hstock hmissing
      rw [merge_fst, mem_overlay]
      left
      constructor
      · have hsame : renamed u embedded.2 (merge u embedded package).2 file = file :=
          renamed_of_not_stock hfile hstock
        rw [← hsame]
        exact List.mem_map_of_mem hfile
      · exact hmissing
    · intro hcontent
      by_cases hsupplied : Supplies u package.1 (merge u embedded package).2
      · obtain ⟨file, hfile, hkey⟩ := List.mem_map.mp hsupplied
        refine ⟨file, ?_, fun _ => hfile, fun hmissing => absurd hsupplied hmissing⟩
        rw [← hkey]
        apply filter_key_eq hdistinct
        rw [merge_fst, mem_overlay]
        exact .inr hfile
      · obtain ⟨stock, hstock⟩ := hcontent.resolve_right hsupplied
        let file := renamed u embedded.2 (merge u embedded package).2 stock
        refine ⟨file, ?_, fun h => absurd h hsupplied, fun _ => ⟨stock, hstock, renamed_raw _⟩⟩
        have hkey : fileKey u file = normalizePath u (merge u embedded package).2 :=
          fileKey_renamed_of_stock hstock
        rw [← hkey]
        apply filter_key_eq hdistinct
        rw [merge_fst, mem_overlay, hkey]
        left
        exact ⟨List.mem_map_of_mem hstock.2.1, hsupplied⟩

/-- A payload with the stock executable, and a package that replaces a file and gives the executable
a name. -/
def sampleEmbedded : List BinaryData × String :=
  ([⟨[], [1], ".\\rustdesk.exe"⟩, ⟨[], [2], "./data/Icon.ico"⟩], ".\\rustdesk.exe")

def samplePackage : List BinaryData × String :=
  ([⟨[], [3], "./DATA/icon.ico"⟩], "./acme.exe")

theorem merged_sample :
  Merged .ascii sampleEmbedded samplePackage
    ([⟨[], [1], "./acme.exe"⟩, ⟨[], [3], "./DATA/icon.ico"⟩], "./acme.exe")
  := by
  have hmerge : merge .ascii sampleEmbedded samplePackage
      = ([⟨[], [1], "./acme.exe"⟩, ⟨[], [3], "./DATA/icon.ico"⟩], "./acme.exe") := by
    decide +kernel
  rw [← hmerge, merged_iff (by decide +kernel) (by decide +kernel)]
  rintro ⟨-, -, -, hsupplied, -⟩
  have hnone : ¬ Supplies .ascii sampleEmbedded.1 samplePackage.2 := by
    decide +kernel
  exact hnone hsupplied

/-- A payload that has another executable, and a package that gives the stock one its name. -/
def twoExecutables : List BinaryData × String :=
  ([⟨[], [1], "./rustdesk.exe"⟩, ⟨[], [2], "./acme.exe"⟩], "./rustdesk.exe")

/-- Two files are left under the name of the executable. -/
theorem not_merged :
  ¬ ∀ (u : Lowercase.Properties) (embedded package : List BinaryData × String),
    Distinct u embedded.1 → Distinct u package.1 →
      Merged u embedded package (merge u embedded package)
  := by
  intro hall
  have hmerged := hall .ascii twoExecutables ([⟨[], [3], "./custom.txt"⟩], "./acme.exe")
    (by decide +kernel) (by decide +kernel)
  have htwice : ¬ Distinct .ascii
      (merge .ascii twoExecutables ([⟨[], [3], "./custom.txt"⟩], "./acme.exe")).1 := by
    decide +kernel
  exact htwice hmerged.distinct

end VynxDesk.Portable
