import Mathlib.Data.List.Basic

/-!
# White space around a text

`str::trim`, after the white space of Unicode.
-/

namespace VynxDesk

/-- The `White_Space` characters of Unicode, which `trim` removes. -/
def isWhiteSpace (c : Char) : Bool :=
  0x09 ≤ c.val && c.val ≤ 0x0d || c.val = 0x20 || c.val = 0x85 || c.val = 0xa0
    || c.val = 0x1680 || 0x2000 ≤ c.val && c.val ≤ 0x200a || c.val = 0x2028 || c.val = 0x2029
    || c.val = 0x202f || c.val = 0x205f || c.val = 0x3000

/-- `str::trim`. -/
def trim (s : String) : String :=
  String.ofList
    ((s.toList.dropWhile isWhiteSpace).reverse.dropWhile isWhiteSpace).reverse

/-- What `trim` leaves as it is does not end with white space. -/
theorem not_isWhiteSpace_of_trim {s : String} (h : trim s = s) {before : List Char} {c : Char}
    (hlast : s.toList = before ++ [c]) :
  isWhiteSpace c = false
  := by
  have htrim : ((s.toList.dropWhile isWhiteSpace).reverse.dropWhile isWhiteSpace).reverse
      = s.toList := by
    rw [trim] at h
    rw [← String.ofList_inj, h, String.ofList_toList]
  have hlength := congrArg List.length htrim
  rw [List.length_reverse] at hlength
  -- neither end has lost anything
  have hstart : s.toList.dropWhile isWhiteSpace = s.toList := by
    apply (List.dropWhile_suffix _).eq_of_length_le
    calc s.toList.length = _ := hlength.symm
      _ ≤ _ := (List.dropWhile_suffix _).length_le
      _ = _ := List.length_reverse
  rw [hstart, hlast, List.reverse_append, List.reverse_singleton, List.singleton_append] at hlength
  by_contra hspace
  rw [List.dropWhile_cons_of_pos (by simpa using hspace)] at hlength
  have hle := (List.dropWhile_suffix (l := before.reverse) isWhiteSpace).length_le
  rw [List.length_reverse] at hle
  rw [List.length_append, List.length_singleton] at hlength
  omega

end VynxDesk
