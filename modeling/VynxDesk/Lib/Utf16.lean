import Mathlib.Data.List.TakeWhile
import VynxDesk.Lib.LittleEndian

/-!
# UTF-16

The code units of a text, and the text of code units when they are well formed.  A character beyond
the first plane is a pair of surrogates, the high one first.
-/

namespace VynxDesk.Utf16

/-- The code units of a character. -/
def encodeChar (c : Char) : List UInt16 :=
  if c.toNat < 0x10000 then [UInt16.ofNat c.toNat]
  else
    [UInt16.ofNat (0xD800 + (c.toNat - 0x10000) / 0x400),
      UInt16.ofNat (0xDC00 + (c.toNat - 0x10000) % 0x400)]

/-- The code units of a text. -/
def encode (text : List Char) : List UInt16 := text.flatMap encodeChar

/-- The text of code units: a surrogate outside a pair makes none. -/
def decode : List UInt16 → Option (List Char)
  | [] => some []
  | u :: us =>
      if u.toNat < 0xD800 ∨ 0xE000 ≤ u.toNat then
        (decode us).map (Char.ofNat u.toNat :: ·)
      else if 0xDC00 ≤ u.toNat then none
      else
        match us with
        | [] => none
        | v :: vs =>
            if 0xDC00 ≤ v.toNat ∧ v.toNat < 0xE000 then
              (decode vs).map
                (Char.ofNat (0x10000 + (u.toNat - 0xD800) * 0x400 + (v.toNat - 0xDC00)) :: ·)
            else none

/-- A unit that is no surrogate is read as a character. -/
theorem decode_cons {u : UInt16} (h : u.toNat < 0xD800 ∨ 0xE000 ≤ u.toNat) (us : List UInt16) :
  decode (u :: us) = (decode us).map (Char.ofNat u.toNat :: ·)
  := by
  cases us <;> simp [decode, h]

/-- A pair of surrogates is read as a character. -/
theorem decode_pair {u v : UInt16} (hu : 0xD800 ≤ u.toNat ∧ u.toNat < 0xDC00)
    (hv : 0xDC00 ≤ v.toNat ∧ v.toNat < 0xE000) (us : List UInt16) :
  decode (u :: v :: us)
    = (decode us).map
        (Char.ofNat (0x10000 + (u.toNat - 0xD800) * 0x400 + (v.toNat - 0xDC00)) :: ·)
  := by
  rw [decode, if_neg (by omega), if_neg (by omega), if_pos hv]

/-- A character is a scalar value: it is no surrogate. -/
theorem toNat_of_char (c : Char) :
  c.toNat < 0xD800 ∨ 0xDFFF < c.toNat ∧ c.toNat < 0x110000
  := c.valid

/-- The units of a character are read as the character. -/
theorem decode_encodeChar (c : Char) (us : List UInt16) :
  decode (encodeChar c ++ us) = (decode us).map (c :: ·)
  := by
  have hvalid := toNat_of_char c
  rw [encodeChar]
  split_ifs with hplane
  · have hunit : (UInt16.ofNat c.toNat).toNat = c.toNat := by
      rw [UInt16.toNat_ofNat']
      omega
    rw [List.singleton_append, decode_cons, hunit, Char.ofNat_toNat]
    rw [hunit]
    omega
  · have hhigh : (UInt16.ofNat (0xD800 + (c.toNat - 0x10000) / 0x400)).toNat
        = 0xD800 + (c.toNat - 0x10000) / 0x400 := by
      rw [UInt16.toNat_ofNat']
      omega
    have hlow : (UInt16.ofNat (0xDC00 + (c.toNat - 0x10000) % 0x400)).toNat
        = 0xDC00 + (c.toNat - 0x10000) % 0x400 := by
      rw [UInt16.toNat_ofNat']
      omega
    have hback : 0x10000 + (0xD800 + (c.toNat - 0x10000) / 0x400 - 0xD800) * 0x400
        + (0xDC00 + (c.toNat - 0x10000) % 0x400 - 0xDC00) = c.toNat := by
      omega
    rw [List.cons_append, List.singleton_append, decode_pair, hhigh, hlow, hback, Char.ofNat_toNat]
    · omega
    · omega

/-- A text is read as it was written. -/
theorem decode_encode (text : List Char) :
  decode (encode text) = some text
  := by
  induction text with
  | nil => rfl
  | cons c text ih =>
      have hcons : encode (c :: text) = encodeChar c ++ encode text := List.flatMap_cons
      rw [hcons, decode_encodeChar, ih]
      rfl

/-- The unit of a character is zero for the zero character only. -/
theorem eq_zero_of_zero_mem {c : Char} (h : 0 ∈ encodeChar c) :
  c = '\x00'
  := by
  have hvalid := toNat_of_char c
  have hzero : c.toNat = 0 := by
    rw [encodeChar] at h
    split_ifs at h with hplane
    · have heq := congrArg UInt16.toNat (List.mem_singleton.mp h)
      rw [UInt16.toNat_ofNat', UInt16.toNat_zero] at heq
      omega
    · rw [List.mem_cons, List.mem_singleton] at h
      rcases h with heq | heq
      · have heq := congrArg UInt16.toNat heq
        rw [UInt16.toNat_ofNat', UInt16.toNat_zero] at heq
        omega
      · have heq := congrArg UInt16.toNat heq
        rw [UInt16.toNat_ofNat', UInt16.toNat_zero] at heq
        omega
  rw [← Char.ofNat_toNat c, hzero]

/-- A text without the zero character has no zero unit. -/
theorem zero_notMem_encode {text : List Char} (h : '\x00' ∉ text) :
  0 ∉ encode text
  := by
  intro hmem
  obtain ⟨c, hc, hunit⟩ := List.mem_flatMap.mp hmem
  rw [eq_zero_of_zero_mem hunit] at hc
  exact h hc

/-- Behind a text and a zero unit, the first zero unit ends the text before its first zero
character. -/
theorem exists_encode_eq (text : List Char) (rest : List UInt16) :
  ∃ rest', encode text ++ 0 :: rest = encode (text.takeWhile (· ≠ '\x00')) ++ 0 :: rest'
  := by
  induction text with
  | nil =>
      use rest
      rfl
  | cons c text ih =>
      have hcons (text : List Char) : encode (c :: text) = encodeChar c ++ encode text :=
        List.flatMap_cons
      by_cases hc : c = '\x00'
      · use encode text ++ 0 :: rest
        rw [List.takeWhile_cons_of_neg (by simpa using hc), hcons, hc]
        rfl
      · obtain ⟨rest', hrest⟩ := ih
        use rest'
        rw [List.takeWhile_cons_of_pos (by simpa using hc), hcons, hcons, List.append_assoc, hrest,
          List.append_assoc]

/-- Before the first zero character there is none. -/
theorem zero_notMem_takeWhile (text : List Char) :
  '\x00' ∉ text.takeWhile (· ≠ '\x00')
  := by
  intro hmem
  have hne := List.mem_takeWhile_imp hmem
  simp at hne

/-- The text before the first zero character is read back. -/
theorem decode_take_findIdx (text : List Char) (rest : List UInt16) :
  ∃ n, (encode text ++ 0 :: rest).findIdx? (· = 0) = some n
    ∧ decode ((encode text ++ 0 :: rest).take n) = some (text.takeWhile (· ≠ '\x00'))
  := by
  obtain ⟨rest', hrest⟩ := exists_encode_eq text rest
  rw [hrest]
  use (encode (text.takeWhile (· ≠ '\x00'))).length
  constructor
  · have hzero := zero_notMem_encode (zero_notMem_takeWhile text)
    rw [List.findIdx?_append, List.findIdx?_eq_none_iff.mpr]
    · simp [List.findIdx?_cons]
    · intro u hu
      simpa using ne_of_mem_of_not_mem hu hzero
  · rw [List.take_left, decode_encode]

/-! ### Units in bytes -/

/-- The bytes of units, the low one first. -/
def bytesOf (us : List UInt16) : List UInt8 :=
  us.flatMap fun u => leBytes 2 u.toNat

/-- The units of bytes, two by two. -/
def unitsOf : List UInt8 → List UInt16
  | low :: high :: rest => UInt16.ofNat (leNat [low, high]) :: unitsOf rest
  | _ => []

theorem unitsOf_bytesOf (us : List UInt16) (rest : List UInt8) :
  unitsOf (bytesOf us ++ rest) = us ++ unitsOf rest
  := by
  induction us with
  | nil => rfl
  | cons u us ih =>
      have hu : u.toNat < 256 ^ 2 := u.toNat_lt
      have hnum := leNat_leBytes_of_lt hu
      change unitsOf (leBytes 2 u.toNat ++ bytesOf us ++ rest) = _
      rw [leBytes, leBytes, leBytes] at hnum ⊢
      rw [List.append_assoc]
      change UInt16.ofNat _ :: unitsOf (bytesOf us ++ rest) = _
      rw [hnum, ih, UInt16.ofNat_toNat]
      rfl

@[simp]
theorem length_bytesOf (us : List UInt16) :
  (bytesOf us).length = 2 * us.length
  := by
  induction us with
  | nil => rfl
  | cons u us ih =>
      change (leBytes 2 u.toNat ++ bytesOf us).length = _
      rw [List.length_append, length_leBytes, ih, List.length_cons]
      omega

end VynxDesk.Utf16
