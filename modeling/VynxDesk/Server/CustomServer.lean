import Mathlib.Data.Bool.AllAny
import Mathlib.Data.List.Induction
import VynxDesk.Lib.Lowercase
import VynxDesk.Lib.Trim

/-!
# The server in the name of the executable

`get_custom_server_from_string` of `src/custom_server.rs` reads a server out of the name of a file.
It looks for `host=` in the small letters of the name, and slices the name itself there.  Small
letters can be longer or shorter than capital ones, and then the slice starts elsewhere, or panics
(`not_right`).  When what becomes of the text before `host=` is as long as it was, the slice starts at
`host=`, and otherwise it does not (`right_of_sameLength`).
-/

namespace VynxDesk.ServerFromName

open Lowercase TextIndex

abbrev Bytes : Type := List UInt8

/-- `CustomServer`. -/
structure CustomServer where
  key : String := ""
  host : String := ""
  api : String := ""
  relay : String := ""
  deriving DecidableEq, Repr

/-- How a function stops without a result: with an error, or with a panic. -/
inductive Stop where
  | error
  | panic
  deriving DecidableEq, Repr

/-- What is used of other libraries: `URL_SAFE_NO_PAD.decode`, `serde_json::from_slice` and
`sign::verify` with a public key. -/
structure Libraries where
  decode : String → Option Bytes
  fromSlice : Bytes → Option CustomServer
  verify : Bytes → Bytes → Option Bytes

/-- `PK`. -/
def pk : Bytes :=
  [88, 168, 68, 104, 60, 5, 163, 198, 165, 38, 12, 85, 114, 203, 96, 163, 70, 48, 0, 131, 57,
    12, 46, 129, 83, 17, 84, 193, 119, 197, 130, 103]

/-- `get_custom_server_from_config_string`. -/
def getCustomServerFromConfigString (lib : Libraries) (s : String) : Option CustomServer := do
  let data ← lib.decode (String.ofList s.toList.reverse)
  match lib.fromSlice data with
  | some lic => some lic
  | none => (lib.verify data pk).bind lib.fromSlice

/-- `split` at a text that is not empty; the first `skip` characters belong to a separator. -/
def split (sep : List Char) : ℕ → List Char → List (List Char)
  | _, [] => [[]]
  | skip + 1, _ :: text => split sep skip text
  | 0, c :: text =>
      if sep <+: c :: text then [] :: split sep (sep.length - 1) text
      else (split sep 0 text).modifyHead (c :: ·)

/-- `replace`. -/
def replace (pat by_ text : List Char) : List Char := by_.intercalate (split pat 0 text)

section

variable (u : Properties) (lib : Libraries)

/-- The text without what the small letters end with, which is `length` bytes long. -/
def stripEnd (s : List Char) (length : ℕ) : Except Stop (List Char) :=
  match if length ≤ String.utf8Len s then sliceTo s (String.utf8Len s - length) else none with
  | some s => .ok s
  | none => .error .panic

/-- The name without `.exe.exe` or `.exe`. -/
def stripExe (s : List Char) : Except Stop (List Char) :=
  if ".exe.exe".toList <:+ toLowercase u s then stripEnd s 8
  else if ".exe".toList <:+ toLowercase u s then stripEnd s 4
  else .ok s

/-- One round of the loop over the elements. -/
def readElement (server : CustomServer) (el : List Char) : CustomServer :=
  let elLower := toLowercase u el
  let behind (n : ℕ) : String := String.ofList (el.drop n)
  let server := if "host=".toList <+: elLower then { server with host := behind 5 } else server
  let server := if "key=".toList <+: elLower then { server with key := behind 4 } else server
  let server := if "api=".toList <+: elLower then { server with api := behind 4 } else server
  if "relay=".toList <+: elLower then { server with relay := behind 6 } else server

/-- The first of the parts that has a configuration; a part may end with the number of a copy. -/
def readParts : List (List Char) → Option CustomServer
  | [] => none
  | s :: strs =>
      match getCustomServerFromConfigString lib (trim (String.ofList s)) with
      | some lic => some lic
      | none =>
          let inner :=
            if '(' ∈ s then
              (s.splitOn '(').findSome? fun s =>
                getCustomServerFromConfigString lib (trim (String.ofList s))
            else none
          match inner with
          | some lic => some lic
          | none => readParts strs

/-- `get_custom_server_from_string`. -/
def getCustomServerFromString (s : List Char) : Except Stop CustomServer := do
  let s ← stripExe u s
  if (find "host=".toList (toLowercase u s)).isSome then
    match sliceFrom s ((find "host=".toList (toLowercase u s)).getD 0) with
    | some stripped => return (stripped.splitOn ',').foldl (readElement u) {}
    | none => throw .panic
  else
    let s := replace "-licensed---".toList "--".toList s
    let s := replace "-licensed--".toList "--".toList s
    let s := replace "-licensed-".toList "--".toList s
    match readParts lib (split "--".toList 0 s) with
    | some lic => return lic
    | none => throw .error

example :
  getCustomServerFromString .ascii ⟨fun _ => none, fun _ => none, fun _ _ => none⟩
    "rustdesk-Host=a,host=b.example,KEY=Zm9=,.exe".toList
    = .ok { host := "b.example", key := "Zm9=" }
  := by
  decide +kernel

/-! ### What the name says -/

/-- The name without a trailing `.exe.exe` or `.exe`, in any case of ASCII. -/
def stem (s : List Char) : List Char :=
  if ".exe.exe".toList <:+ s.map Char.toLower then s.take (s.length - 8)
  else if ".exe".toList <:+ s.map Char.toLower then s.take (s.length - 4)
  else s

/-- What is before the first `host=`, in any case of ASCII, and what is from there on. -/
def cutHost (s : List Char) : Option (List Char × List Char) :=
  cut (fun text => "host=".toList <+: text.map Char.toLower) s

/-- What is behind the tag in the last element that begins with it, in any case. -/
def lastText (tag : String) (elements : List (List Char)) : String :=
  match elements.reverse.find? fun el => begins tag.toList el with
  | some el => String.ofList (el.drop tag.length)
  | none => ""

/-- What the elements of a text say. -/
def said (text : List Char) : CustomServer where
  key := lastText "key=" (text.splitOn ',')
  host := lastText "host=" (text.splitOn ',')
  api := lastText "api=" (text.splitOn ',')
  relay := lastText "relay=" (text.splitOn ',')

/-- The function does not panic, and where the name has `host=` it returns what the name says from
there on. -/
def Right (s : List Char) : Prop :=
  getCustomServerFromString u lib s ≠ .error .panic
    ∧ ∀ before behind, cutHost (stem s) = some (before, behind) →
        getCustomServerFromString u lib s = .ok (said behind)

/-- The small letters of what is before the first `host=` are as long as it is. -/
def SameLength (s : List Char) : Prop :=
  ∀ before behind, cutHost (stem s) = some (before, behind) →
    String.utf8Len (toLowercase u before) = String.utf8Len before

end

variable {u : Properties} {lib : Libraries} {s text pat before behind : List Char}

/-! ### The name without its end -/

/-- What ends with a text of ASCII can be sliced before it. -/
theorem stripEnd_eq (hsuffix : pat <:+ s.map Char.toLower) (hpat : ∀ p ∈ pat, IsAscii p) :
  stripEnd s pat.length = .ok (s.take (s.length - pat.length))
  := by
  obtain ⟨first, hfirst⟩ := hsuffix
  obtain ⟨start, here, rfl, rfl, hhere⟩ := List.append_eq_map_iff.mp hfirst
  have hlength : here.length = pat.length := by
    rw [← hhere, List.length_map]
  have hbytes : String.utf8Len here = here.length := by
    apply utf8Len_eq_length
    intro c hc
    refine (hpat _ ?_).2
    rw [← hhere]
    exact List.mem_map_of_mem hc
  rw [stripEnd, String.utf8Len_append, hbytes, hlength, if_pos (Nat.le_add_left _ _),
    Nat.add_sub_cancel, sliceTo_append, List.length_append, hlength, Nat.add_sub_cancel,
    List.take_left]

/-- The end of the name is sliced off without a panic. -/
theorem stripExe_eq (s : List Char) :
  stripExe u s = .ok (stem s)
  := by
  have htwice : ".exe.exe".toList <:+ toLowercase u s ↔ ".exe.exe".toList <:+ s.map Char.toLower :=
    (lowers_toLowercase u s).suffix_iff (List.all_iff_forall_prop.mp (by decide)) (by decide)
      (by decide)
  have honce : ".exe".toList <:+ toLowercase u s ↔ ".exe".toList <:+ s.map Char.toLower :=
    (lowers_toLowercase u s).suffix_iff (List.all_iff_forall_prop.mp (by decide)) (by decide)
      (by decide)
  simp only [stripExe, stem, htwice, honce]
  split_ifs with htwice honce
  · exact stripEnd_eq htwice (List.all_iff_forall_prop.mp (by decide))
  · exact stripEnd_eq honce (List.all_iff_forall_prop.mp (by decide))
  · rfl

/-! ### The elements -/

theorem readElement_eq (server : CustomServer) (el : List Char) :
  readElement u server el =
    { host := if begins "host=".toList el then String.ofList (el.drop 5) else server.host
      key := if begins "key=".toList el then String.ofList (el.drop 4) else server.key
      api := if begins "api=".toList el then String.ofList (el.drop 4) else server.api
      relay := if begins "relay=".toList el then String.ofList (el.drop 6) else server.relay }
  := by
  have htag {tag : List Char} (htag : ∀ p ∈ tag, IsAscii p) (hlast : tag.getLast? ≠ some 'i') :
      tag <+: toLowercase u el ↔ begins tag el = true :=
    (lowers_toLowercase u el).prefix_iff htag hlast
  have hhost := @htag "host=".toList (List.all_iff_forall_prop.mp (by decide)) (by decide)
  have hkey := @htag "key=".toList (List.all_iff_forall_prop.mp (by decide)) (by decide)
  have hapi := @htag "api=".toList (List.all_iff_forall_prop.mp (by decide)) (by decide)
  have hrelay := @htag "relay=".toList (List.all_iff_forall_prop.mp (by decide)) (by decide)
  simp only [readElement, hhost, hkey, hapi, hrelay]
  split_ifs <;> rfl

theorem lastText_concat (tag : String) (elements : List (List Char)) (el : List Char) :
  lastText tag (elements ++ [el])
    = if begins tag.toList el then String.ofList (el.drop tag.length) else lastText tag elements
  := by
  rw [lastText, List.reverse_append, List.reverse_singleton, List.singleton_append]
  by_cases hbegins : begins tag.toList el = true
  · rw [List.find?_cons_of_pos hbegins, if_pos hbegins]
  · rw [List.find?_cons_of_neg hbegins, if_neg hbegins, lastText]

/-- The loop keeps the last element of each tag. -/
theorem foldl_readElement (elements : List (List Char)) :
  elements.foldl (readElement u) {} =
    { host := lastText "host=" elements
      key := lastText "key=" elements
      api := lastText "api=" elements
      relay := lastText "relay=" elements }
  := by
  induction elements using List.reverseRecOn with
  | nil => rfl
  | append_singleton elements el ih =>
      rw [List.foldl_concat, ih, readElement_eq]
      simp only [lastText_concat]
      rfl

/-! ### The index -/

/-- `host=` is found in the small letters at the length of what becomes of the text before it. -/
theorem find_toLowercase (s : List Char) :
  find "host=".toList (toLowercase u s)
    = (cutHost s).map fun x => String.utf8Len (toLowercase u x.1)
  := by
  have hpat : ∀ p ∈ "host=".toList, IsAscii p ∧ p ≠ 'k' :=
    List.all_iff_forall_prop.mp (by decide)
  rcases (lowers_toLowercase u s).cut hpat (by decide) (by decide) with
    ⟨hnone, hnone'⟩ | ⟨before, behind, first, last, hcut, hcut', hbefore⟩
  · rw [find, hnone', cutHost, hnone, Option.map_none, Option.map_none]
  · rw [find, hcut', cutHost, hcut, Option.map_some, Option.map_some,
      hbefore.utf8Len_eq (lowers_toLowercase u before)]

/-- Without `host=` the function does not panic. -/
theorem getCustomServerFromString_of_none (hcut : cutHost (stem s) = none) :
  getCustomServerFromString u lib s ≠ .error .panic
  := by
  simp only [getCustomServerFromString, stripExe_eq, bind, Except.bind, find_toLowercase, hcut,
    Option.map_none, Option.isSome_none, Bool.false_eq_true, if_false]
  split <;> nofun

/-- With `host=` the function slices the name at the length of the small letters before it. -/
theorem getCustomServerFromString_of_some (u : Properties) (lib : Libraries)
    (hcut : cutHost (stem s) = some (before, behind)) :
  getCustomServerFromString u lib s
    = match sliceFrom (stem s) (String.utf8Len (toLowercase u before)) with
      | some shifted => .ok (said shifted)
      | none => .error .panic
  := by
  simp only [getCustomServerFromString, stripExe_eq, bind, Except.bind, find_toLowercase, hcut,
    Option.map_some, Option.isSome_some, if_true, Option.getD_some]
  split
  · rw [foldl_readElement, said]
    rfl
  · rfl

/-- A slice that is what is behind `before` starts at its length. -/
theorem sliceFrom_eq_iff {n : ℕ} (before behind : List Char) :
  sliceFrom (before ++ behind) n = some behind ↔ n = String.utf8Len before
  := by
  constructor
  · intro hslice
    obtain ⟨first, hsplit, hlength⟩ := sliceFrom_eq_some hslice
    rw [← hlength, List.append_cancel_right hsplit]
  · rintro rfl
    apply sliceFrom_append

/-- If the small letters of what is before `host=` are as long as it is, the function does not panic
and returns what the name says from `host=` on; otherwise it does not slice the name there. -/
theorem right_of_sameLength (u : Properties) (lib : Libraries) (s : List Char) :
  (SameLength u s → Right u lib s)
    ∧ (¬ SameLength u s → ∃ before behind, cutHost (stem s) = some (before, behind) ∧
      sliceFrom (stem s) ((find "host=".toList (toLowercase u (stem s))).getD 0) ≠ some behind)
  := by
  cases hcut : cutHost (stem s) with
  | none =>
      have hno : ∀ before behind, cutHost (stem s) ≠ some (before, behind) := by
        intro before behind hsome
        cases hcut.symm.trans hsome
      constructor
      · intro _
        refine ⟨getCustomServerFromString_of_none hcut, ?_⟩
        intro before behind hsome
        exact absurd hsome (hno before behind)
      · intro hlength
        exfalso
        apply hlength
        intro before behind hsome
        exact absurd hsome (hno before behind)
  | some x =>
      obtain ⟨before, behind⟩ := x
      obtain ⟨hsplit, -⟩ := cut_eq_some hcut
      have hslice := @sliceFrom_eq_iff (String.utf8Len (toLowercase u before)) before behind
      rw [← hsplit] at hslice
      constructor
      · intro hsame
        have hresult := getCustomServerFromString_of_some u lib hcut
        rw [hslice.mpr (hsame before behind hcut)] at hresult
        rw [Right, hresult]
        refine ⟨nofun, ?_⟩
        intro before' behind' hsome
        cases hcut.symm.trans hsome
        rfl
      · intro hlength
        refine ⟨before, behind, rfl, ?_⟩
        rw [find_toLowercase, hcut, Option.map_some, Option.getD_some, Ne, hslice]
        intro hsame
        apply hlength
        intro before' behind' hsome
        cases hcut.symm.trans hsome
        exact hsame

/-- An umlaut before `host=` becomes a letter of the same length. -/
theorem right_umlaut (lib : Libraries) :
  Right .ascii lib "\u00C4-Host=example.net,key=Zm9=,.exe".toList
  := by
  apply (right_of_sameLength .ascii lib _).1
  intro before behind hcut
  have hcut' : cutHost (stem "\u00C4-Host=example.net,key=Zm9=,.exe".toList)
      = some ("\u00C4-".toList, "Host=example.net,key=Zm9=,".toList) := by
    decide +kernel
  cases hcut'.symm.trans hcut
  decide +kernel

/-- The slice of another place may say the same. -/
example :
  getCustomServerFromString .ascii ⟨fun _ => none, fun _ => none, fun _ _ => none⟩
    "\u212Aa,host=x.exe".toList = .ok { host := "x" }
  := by
  decide +kernel

/-- A capital letter that becomes shorter stands right before `host=`. -/
theorem not_right :
  ¬ ∀ (u : Properties) (lib : Libraries) (s : List Char), Right u lib s
  := by
  intro hall
  have hright := hall .ascii ⟨fun _ => none, fun _ => none, fun _ _ => none⟩
    "\u212Ahost=example.net.exe".toList
  apply hright.1
  decide +kernel

end VynxDesk.ServerFromName
