import VynxDesk.Lib.TextIndex

/-!
# Lower case

`str::to_lowercase`: every character becomes its small letters, after the tables of Unicode 16.  A
letter can become longer or shorter in UTF-8, and one letter becomes two characters, but what is
ASCII afterwards stands for one character, which is nearly always ASCII as well
(`toLower_eq_singleton`).  `Lowers` says what the small letters of a text are without the rule for
the last sigma of a word, which does not change lengths.
-/

namespace VynxDesk.Lowercase

/-- Capital letters from `first` to `last`, `stride` apart; `lower` is the small letter of the first
one. -/
structure Capitals where
  first : ℕ
  last : ℕ
  stride : ℕ
  lower : ℕ
  deriving DecidableEq, Repr

/-- The capital letters with one small letter, in order. -/
def capitals : List Capitals :=
  [⟨0x41, 0x5A, 1, 0x61⟩, ⟨0xC0, 0xD6, 1, 0xE0⟩, ⟨0xD8, 0xDE, 1, 0xF8⟩, ⟨0x100, 0x12E, 2, 0x101⟩,
    ⟨0x132, 0x136, 2, 0x133⟩, ⟨0x139, 0x147, 2, 0x13A⟩, ⟨0x14A, 0x176, 2, 0x14B⟩,
    ⟨0x178, 0x178, 1, 0xFF⟩, ⟨0x179, 0x17D, 2, 0x17A⟩, ⟨0x181, 0x181, 1, 0x253⟩,
    ⟨0x182, 0x184, 2, 0x183⟩, ⟨0x186, 0x186, 1, 0x254⟩, ⟨0x187, 0x187, 1, 0x188⟩,
    ⟨0x189, 0x18A, 1, 0x256⟩, ⟨0x18B, 0x18B, 1, 0x18C⟩, ⟨0x18E, 0x18E, 1, 0x1DD⟩,
    ⟨0x18F, 0x18F, 1, 0x259⟩, ⟨0x190, 0x190, 1, 0x25B⟩, ⟨0x191, 0x191, 1, 0x192⟩,
    ⟨0x193, 0x193, 1, 0x260⟩, ⟨0x194, 0x194, 1, 0x263⟩, ⟨0x196, 0x196, 1, 0x269⟩,
    ⟨0x197, 0x197, 1, 0x268⟩, ⟨0x198, 0x198, 1, 0x199⟩, ⟨0x19C, 0x19C, 1, 0x26F⟩,
    ⟨0x19D, 0x19D, 1, 0x272⟩, ⟨0x19F, 0x19F, 1, 0x275⟩, ⟨0x1A0, 0x1A4, 2, 0x1A1⟩,
    ⟨0x1A6, 0x1A6, 1, 0x280⟩, ⟨0x1A7, 0x1A7, 1, 0x1A8⟩, ⟨0x1A9, 0x1A9, 1, 0x283⟩,
    ⟨0x1AC, 0x1AC, 1, 0x1AD⟩, ⟨0x1AE, 0x1AE, 1, 0x288⟩, ⟨0x1AF, 0x1AF, 1, 0x1B0⟩,
    ⟨0x1B1, 0x1B2, 1, 0x28A⟩, ⟨0x1B3, 0x1B5, 2, 0x1B4⟩, ⟨0x1B7, 0x1B7, 1, 0x292⟩,
    ⟨0x1B8, 0x1B8, 1, 0x1B9⟩, ⟨0x1BC, 0x1BC, 1, 0x1BD⟩, ⟨0x1C4, 0x1C4, 1, 0x1C6⟩,
    ⟨0x1C5, 0x1C5, 1, 0x1C6⟩, ⟨0x1C7, 0x1C7, 1, 0x1C9⟩, ⟨0x1C8, 0x1C8, 1, 0x1C9⟩,
    ⟨0x1CA, 0x1CA, 1, 0x1CC⟩, ⟨0x1CB, 0x1DB, 2, 0x1CC⟩, ⟨0x1DE, 0x1EE, 2, 0x1DF⟩,
    ⟨0x1F1, 0x1F1, 1, 0x1F3⟩, ⟨0x1F2, 0x1F4, 2, 0x1F3⟩, ⟨0x1F6, 0x1F6, 1, 0x195⟩,
    ⟨0x1F7, 0x1F7, 1, 0x1BF⟩, ⟨0x1F8, 0x21E, 2, 0x1F9⟩, ⟨0x220, 0x220, 1, 0x19E⟩,
    ⟨0x222, 0x232, 2, 0x223⟩, ⟨0x23A, 0x23A, 1, 0x2C65⟩, ⟨0x23B, 0x23B, 1, 0x23C⟩,
    ⟨0x23D, 0x23D, 1, 0x19A⟩, ⟨0x23E, 0x23E, 1, 0x2C66⟩, ⟨0x241, 0x241, 1, 0x242⟩,
    ⟨0x243, 0x243, 1, 0x180⟩, ⟨0x244, 0x244, 1, 0x289⟩, ⟨0x245, 0x245, 1, 0x28C⟩,
    ⟨0x246, 0x24E, 2, 0x247⟩, ⟨0x370, 0x372, 2, 0x371⟩, ⟨0x376, 0x376, 1, 0x377⟩,
    ⟨0x37F, 0x37F, 1, 0x3F3⟩, ⟨0x386, 0x386, 1, 0x3AC⟩, ⟨0x388, 0x38A, 1, 0x3AD⟩,
    ⟨0x38C, 0x38C, 1, 0x3CC⟩, ⟨0x38E, 0x38F, 1, 0x3CD⟩, ⟨0x391, 0x3A1, 1, 0x3B1⟩,
    ⟨0x3A3, 0x3AB, 1, 0x3C3⟩, ⟨0x3CF, 0x3CF, 1, 0x3D7⟩, ⟨0x3D8, 0x3EE, 2, 0x3D9⟩,
    ⟨0x3F4, 0x3F4, 1, 0x3B8⟩, ⟨0x3F7, 0x3F7, 1, 0x3F8⟩, ⟨0x3F9, 0x3F9, 1, 0x3F2⟩,
    ⟨0x3FA, 0x3FA, 1, 0x3FB⟩, ⟨0x3FD, 0x3FF, 1, 0x37B⟩, ⟨0x400, 0x40F, 1, 0x450⟩,
    ⟨0x410, 0x42F, 1, 0x430⟩, ⟨0x460, 0x480, 2, 0x461⟩, ⟨0x48A, 0x4BE, 2, 0x48B⟩,
    ⟨0x4C0, 0x4C0, 1, 0x4CF⟩, ⟨0x4C1, 0x4CD, 2, 0x4C2⟩, ⟨0x4D0, 0x52E, 2, 0x4D1⟩,
    ⟨0x531, 0x556, 1, 0x561⟩, ⟨0x10A0, 0x10C5, 1, 0x2D00⟩, ⟨0x10C7, 0x10C7, 1, 0x2D27⟩,
    ⟨0x10CD, 0x10CD, 1, 0x2D2D⟩, ⟨0x13A0, 0x13EF, 1, 0xAB70⟩, ⟨0x13F0, 0x13F5, 1, 0x13F8⟩,
    ⟨0x1C89, 0x1C89, 1, 0x1C8A⟩, ⟨0x1C90, 0x1CBA, 1, 0x10D0⟩, ⟨0x1CBD, 0x1CBF, 1, 0x10FD⟩,
    ⟨0x1E00, 0x1E94, 2, 0x1E01⟩, ⟨0x1E9E, 0x1E9E, 1, 0xDF⟩, ⟨0x1EA0, 0x1EFE, 2, 0x1EA1⟩,
    ⟨0x1F08, 0x1F0F, 1, 0x1F00⟩, ⟨0x1F18, 0x1F1D, 1, 0x1F10⟩, ⟨0x1F28, 0x1F2F, 1, 0x1F20⟩,
    ⟨0x1F38, 0x1F3F, 1, 0x1F30⟩, ⟨0x1F48, 0x1F4D, 1, 0x1F40⟩, ⟨0x1F59, 0x1F5F, 2, 0x1F51⟩,
    ⟨0x1F68, 0x1F6F, 1, 0x1F60⟩, ⟨0x1F88, 0x1F8F, 1, 0x1F80⟩, ⟨0x1F98, 0x1F9F, 1, 0x1F90⟩,
    ⟨0x1FA8, 0x1FAF, 1, 0x1FA0⟩, ⟨0x1FB8, 0x1FB9, 1, 0x1FB0⟩, ⟨0x1FBA, 0x1FBB, 1, 0x1F70⟩,
    ⟨0x1FBC, 0x1FBC, 1, 0x1FB3⟩, ⟨0x1FC8, 0x1FCB, 1, 0x1F72⟩, ⟨0x1FCC, 0x1FCC, 1, 0x1FC3⟩,
    ⟨0x1FD8, 0x1FD9, 1, 0x1FD0⟩, ⟨0x1FDA, 0x1FDB, 1, 0x1F76⟩, ⟨0x1FE8, 0x1FE9, 1, 0x1FE0⟩,
    ⟨0x1FEA, 0x1FEB, 1, 0x1F7A⟩, ⟨0x1FEC, 0x1FEC, 1, 0x1FE5⟩, ⟨0x1FF8, 0x1FF9, 1, 0x1F78⟩,
    ⟨0x1FFA, 0x1FFB, 1, 0x1F7C⟩, ⟨0x1FFC, 0x1FFC, 1, 0x1FF3⟩, ⟨0x2126, 0x2126, 1, 0x3C9⟩,
    ⟨0x212A, 0x212A, 1, 0x6B⟩, ⟨0x212B, 0x212B, 1, 0xE5⟩, ⟨0x2132, 0x2132, 1, 0x214E⟩,
    ⟨0x2160, 0x216F, 1, 0x2170⟩, ⟨0x2183, 0x2183, 1, 0x2184⟩, ⟨0x24B6, 0x24CF, 1, 0x24D0⟩,
    ⟨0x2C00, 0x2C2F, 1, 0x2C30⟩, ⟨0x2C60, 0x2C60, 1, 0x2C61⟩, ⟨0x2C62, 0x2C62, 1, 0x26B⟩,
    ⟨0x2C63, 0x2C63, 1, 0x1D7D⟩, ⟨0x2C64, 0x2C64, 1, 0x27D⟩, ⟨0x2C67, 0x2C6B, 2, 0x2C68⟩,
    ⟨0x2C6D, 0x2C6D, 1, 0x251⟩, ⟨0x2C6E, 0x2C6E, 1, 0x271⟩, ⟨0x2C6F, 0x2C6F, 1, 0x250⟩,
    ⟨0x2C70, 0x2C70, 1, 0x252⟩, ⟨0x2C72, 0x2C72, 1, 0x2C73⟩, ⟨0x2C75, 0x2C75, 1, 0x2C76⟩,
    ⟨0x2C7E, 0x2C7F, 1, 0x23F⟩, ⟨0x2C80, 0x2CE2, 2, 0x2C81⟩, ⟨0x2CEB, 0x2CED, 2, 0x2CEC⟩,
    ⟨0x2CF2, 0x2CF2, 1, 0x2CF3⟩, ⟨0xA640, 0xA66C, 2, 0xA641⟩, ⟨0xA680, 0xA69A, 2, 0xA681⟩,
    ⟨0xA722, 0xA72E, 2, 0xA723⟩, ⟨0xA732, 0xA76E, 2, 0xA733⟩, ⟨0xA779, 0xA77B, 2, 0xA77A⟩,
    ⟨0xA77D, 0xA77D, 1, 0x1D79⟩, ⟨0xA77E, 0xA786, 2, 0xA77F⟩, ⟨0xA78B, 0xA78B, 1, 0xA78C⟩,
    ⟨0xA78D, 0xA78D, 1, 0x265⟩, ⟨0xA790, 0xA792, 2, 0xA791⟩, ⟨0xA796, 0xA7A8, 2, 0xA797⟩,
    ⟨0xA7AA, 0xA7AA, 1, 0x266⟩, ⟨0xA7AB, 0xA7AB, 1, 0x25C⟩, ⟨0xA7AC, 0xA7AC, 1, 0x261⟩,
    ⟨0xA7AD, 0xA7AD, 1, 0x26C⟩, ⟨0xA7AE, 0xA7AE, 1, 0x26A⟩, ⟨0xA7B0, 0xA7B0, 1, 0x29E⟩,
    ⟨0xA7B1, 0xA7B1, 1, 0x287⟩, ⟨0xA7B2, 0xA7B2, 1, 0x29D⟩, ⟨0xA7B3, 0xA7B3, 1, 0xAB53⟩,
    ⟨0xA7B4, 0xA7C2, 2, 0xA7B5⟩, ⟨0xA7C4, 0xA7C4, 1, 0xA794⟩, ⟨0xA7C5, 0xA7C5, 1, 0x282⟩,
    ⟨0xA7C6, 0xA7C6, 1, 0x1D8E⟩, ⟨0xA7C7, 0xA7C9, 2, 0xA7C8⟩, ⟨0xA7CB, 0xA7CB, 1, 0x264⟩,
    ⟨0xA7CC, 0xA7CC, 1, 0xA7CD⟩, ⟨0xA7D0, 0xA7D0, 1, 0xA7D1⟩, ⟨0xA7D6, 0xA7DA, 2, 0xA7D7⟩,
    ⟨0xA7DC, 0xA7DC, 1, 0x19B⟩, ⟨0xA7F5, 0xA7F5, 1, 0xA7F6⟩, ⟨0xFF21, 0xFF3A, 1, 0xFF41⟩,
    ⟨0x10400, 0x10427, 1, 0x10428⟩, ⟨0x104B0, 0x104D3, 1, 0x104D8⟩, ⟨0x10570, 0x1057A, 1, 0x10597⟩,
    ⟨0x1057C, 0x1058A, 1, 0x105A3⟩, ⟨0x1058C, 0x10592, 1, 0x105B3⟩, ⟨0x10594, 0x10595, 1, 0x105BB⟩,
    ⟨0x10C80, 0x10CB2, 1, 0x10CC0⟩, ⟨0x10D50, 0x10D65, 1, 0x10D70⟩, ⟨0x118A0, 0x118BF, 1, 0x118C0⟩,
    ⟨0x16E40, 0x16E5F, 1, 0x16E60⟩, ⟨0x1E900, 0x1E921, 1, 0x1E922⟩]

/-- The code of the small letter. -/
def lookup (n : ℕ) : List Capitals → ℕ
  | [] => n
  | r :: rest =>
      if n < r.first then n
      else if n ≤ r.last ∧ (n - r.first) % r.stride = 0 then r.lower + (n - r.first)
      else lookup n rest

/-- `char::to_lowercase`. -/
def toLower (c : Char) : List Char :=
  if c = 'İ' then ['i', '\u0307'] else [Char.ofNat (lookup c.toNat capitals)]

/-- The properties of characters that the rule for the last sigma of a word asks for. -/
structure Properties where
  cased : Char → Bool
  caseIgnorable : Char → Bool

/-- The properties of the characters of ASCII. -/
def Properties.ascii : Properties where
  cased := Char.isAlpha
  caseIgnorable c := c ∈ ['\'', '.', ':', '^', '\x60']

/-- `case_ignorable_then_cased`. -/
def caseIgnorableThenCased (u : Properties) (text : List Char) : Bool :=
  (text.dropWhile u.caseIgnorable).head?.any u.cased

/-- The loop of `to_lowercase`; what is before the text is given backwards. -/
def lowerBehind (u : Properties) (before : List Char) : List Char → List Char
  | [] => []
  | c :: rest =>
      (if c = 'Σ' then
        [if caseIgnorableThenCased u before && !caseIgnorableThenCased u rest then 'ς' else 'σ']
      else toLower c) ++ lowerBehind u (c :: before) rest

/-- `to_lowercase`. -/
def toLowercase (u : Properties) (text : List Char) : List Char := lowerBehind u [] text

example : toLowercase .ascii "HΣ ΣH İ\u212A".toList = "hς σh i\u0307k".toList
  := by
  decide +kernel

/-- What a character becomes. -/
def lowerings (c : Char) : List (List Char) := if c = 'Σ' then [['σ'], ['ς']] else [toLower c]

/-- The second text is the first one in small letters. -/
inductive Lowers : List Char → List Char → Prop where
  | nil : Lowers [] []
  | cons {c : Char} {low text lows : List Char} :
      low ∈ lowerings c → Lowers text lows → Lowers (c :: text) (low ++ lows)

variable {c p : Char} {low text lows pat : List Char}

theorem lowers_lowerBehind (u : Properties) (before text : List Char) :
  Lowers text (lowerBehind u before text)
  := by
  induction text generalizing before with
  | nil => exact Lowers.nil
  | cons c text ih =>
      rw [lowerBehind]
      apply Lowers.cons _ (ih _)
      rw [lowerings]
      split_ifs <;> simp

theorem lowers_toLowercase (u : Properties) (text : List Char) :
  Lowers text (toLowercase u text)
  := lowers_lowerBehind u [] text

/-! ### One character -/

theorem lookup_eq (n : ℕ) (ranges : List Capitals) :
  lookup n ranges = n
    ∨ ∃ r ∈ ranges, r.first ≤ n ∧ n ≤ r.last ∧ lookup n ranges = r.lower + (n - r.first)
  := by
  induction ranges with
  | nil =>
      left
      rfl
  | cons r rest ih =>
      rw [lookup]
      split_ifs with hbelow hhere
      · left
        rfl
      · right
        exact ⟨r, List.mem_cons_self, Nat.le_of_not_lt hbelow, hhere.1, rfl⟩
      · rcases ih with hsame | ⟨s, hs, hrest⟩
        · left
          exact hsame
        · right
          exact ⟨s, List.mem_cons_of_mem _ hs, hrest⟩

/-- What becomes ASCII is ASCII, or the sign for Kelvin. -/
theorem lookup_eq_of_ascii {n p : ℕ} (hp : p < 128) (h : lookup n capitals = p) :
  n = p ∨ (65 ≤ n ∧ n ≤ 90 ∧ p = n + 32) ∨ (n = 0x212A ∧ p = 107)
  := by
  have htable : ∀ r ∈ capitals, r = ⟨0x41, 0x5A, 1, 0x61⟩ ∨ r = ⟨0x212A, 0x212A, 1, 0x6B⟩
      ∨ 128 ≤ r.lower := by
    decide +kernel
  rcases lookup_eq n capitals with hsame | ⟨r, hr, hfirst, hlast, hlower⟩
  · left
    rw [← h, hsame]
  · rw [h] at hlower
    rcases htable r hr with rfl | rfl | hlarge
    · right; left
      dsimp only at hfirst hlast hlower
      omega
    · right; right
      dsimp only at hfirst hlast hlower
      omega
    · omega

/-- The capital letters of ASCII. -/
theorem lookup_ascii {n : ℕ} (hn : n < 128) :
  lookup n capitals = if 65 ≤ n ∧ n ≤ 90 then n + 32 else n
  := by
  have hall : ∀ n < 128, lookup n capitals = if 65 ≤ n ∧ n ≤ 90 then n + 32 else n := by
    decide +kernel
  apply hall n hn

theorem toNat_asciiLower (c : Char) :
  c.toLower.toNat = if 65 ≤ c.toNat ∧ c.toNat ≤ 90 then c.toNat + 32 else c.toNat
  := by
  have hcapital : (c.val ≥ 'A'.val ∧ c.val ≤ 'Z'.val) ↔ 65 ≤ c.toNat ∧ c.toNat ≤ 90 := by
    rw [ge_iff_le, UInt32.le_iff_toNat_le, UInt32.le_iff_toNat_le]
    rfl
  delta Char.toLower
  split
  · rename_i h
    rw [if_pos (hcapital.mp h), Char.toNat_mk, UInt32.toNat_add]
    have hle := (hcapital.mp h).2
    have hval : c.val.toNat = c.toNat := rfl
    have hshift : ('a'.val - 'A'.val).toNat = 32 := rfl
    omega
  · rename_i h
    rw [if_neg (fun hle => h (hcapital.mpr hle))]

/-- What is ASCII in the small letters of ASCII takes one byte for each character. -/
theorem utf8Len_eq_length {text : List Char} (h : ∀ c ∈ text, c.toLower.toNat < 128) :
  String.utf8Len text = text.length
  := by
  induction text with
  | nil => rfl
  | cons c text ih =>
      rw [List.forall_mem_cons] at h
      have hascii : c.toNat < 128 := by
        have hlower := h.1
        rw [toNat_asciiLower] at hlower
        split_ifs at hlower <;> omega
      have hsize : c.utf8Size = 1 := by
        rw [Char.utf8Size, if_pos]
        rw [UInt32.le_iff_toNat_le]
        exact Nat.le_of_lt_succ hascii
      rw [String.utf8Len_cons, ih h.2, hsize, List.length_cons]

/-- A visible character of ASCII. -/
def IsAscii (p : Char) : Prop := 0 < p.toNat ∧ p.toNat < 128

instance (p : Char) : Decidable (IsAscii p) := inferInstanceAs (Decidable (_ ∧ _))

theorem ofNat_eq_iff {n : ℕ} (hp : IsAscii p) :
  Char.ofNat n = p ↔ n = p.toNat
  := by
  constructor
  · intro h
    by_cases hvalid : n.isValidChar
    · have hchar : Char.ofNat n = Char.ofNatAux n hvalid := dif_pos hvalid
      rw [← h, hchar]
      rfl
    · have hnull : Char.ofNat n = '\x00' := dif_neg hvalid
      rw [← h, hnull] at hp
      exact absurd hp.1 (by decide)
  · rintro rfl
    apply Char.ofNat_toNat

/-- What becomes a character of ASCII: that character, its capital letter, and the sign for Kelvin
for `k`. -/
theorem toLower_eq_singleton (hp : IsAscii p) :
  toLower c = [p] ↔ c.toLower = p ∨ (c = '\u212A' ∧ p = 'k')
  := by
  have hascii : p.toNat < 128 := hp.2
  rw [← Char.toNat_inj, toNat_asciiLower, ← @Char.toNat_inj c, ← @Char.toNat_inj p, toLower]
  split
  · rename_i hdotted
    rw [hdotted]
    have hlarge : 'İ'.toNat = 304 := rfl
    simp only [hlarge]
    constructor
    · intro h
      simp at h
    · rintro (h | ⟨h, -⟩)
      · rw [if_neg (by omega)] at h
        omega
      · cases h
  · rw [List.singleton_inj, ofNat_eq_iff hp]
    have hkelvin : '\u212A'.toNat = 0x212A ∧ 'k'.toNat = 107 := ⟨rfl, rfl⟩
    rw [hkelvin.1, hkelvin.2]
    constructor
    · intro h
      rcases lookup_eq_of_ascii hp.2 h with hsame | ⟨hle, hge, hlower⟩ | hkelvin
      · left
        rw [← h, ← lookup_ascii (by omega)]
      · left
        rw [if_pos ⟨hle, hge⟩, hlower]
      · right
        exact hkelvin
    · rintro (h | ⟨h, hk⟩)
      · rw [lookup_ascii]
        · exact h
        · by_cases hcapital : 65 ≤ c.toNat ∧ c.toNat ≤ 90
          · omega
          · rw [if_neg hcapital] at h
            omega
      · rw [h, hk]
        decide +kernel

theorem toLower_ne_nil (c : Char) :
  toLower c ≠ []
  := by
  rw [toLower]
  split_ifs <;> apply List.cons_ne_nil

theorem ne_nil_of_mem_lowerings (h : low ∈ lowerings c) :
  low ≠ []
  := by
  rw [lowerings] at h
  split_ifs at h
  · rw [List.mem_pair] at h
    rcases h with rfl | rfl <;> apply List.cons_ne_nil
  · rw [List.mem_singleton.mp h]
    apply toLower_ne_nil

/-- A character becomes one character, unless it is `İ`. -/
theorem eq_singleton_of_mem_lowerings (h : low ∈ lowerings c) :
  (∃ l, low = [l]) ∨ low = ['i', '\u0307']
  := by
  rw [lowerings, toLower] at h
  split_ifs at h
  · rw [List.mem_pair] at h
    left
    rcases h with rfl | rfl
    · exact ⟨_, rfl⟩
    · exact ⟨_, rfl⟩
  · right
    exact List.mem_singleton.mp h
  · left
    exact ⟨_, List.mem_singleton.mp h⟩

/-- The rule for sigma makes nothing ASCII. -/
theorem singleton_mem_lowerings (hp : IsAscii p) :
  [p] ∈ lowerings c ↔ toLower c = [p]
  := by
  have hascii : p.toNat < 128 := hp.2
  rw [lowerings]
  split_ifs with hsigma
  · rw [hsigma, toLower_eq_singleton hp]
    constructor
    · intro h
      rw [List.mem_pair, List.singleton_inj, List.singleton_inj] at h
      rcases h with rfl | rfl
      · exact absurd hascii (by decide)
      · exact absurd hascii (by decide)
    · rintro (h | ⟨h, -⟩)
      · rw [← h] at hascii
        exact absurd hascii (by decide)
      · cases h
  · rw [List.mem_singleton, eq_comm]

/-- What becomes a character of ASCII becomes nothing else. -/
theorem eq_of_toLower_eq (hp : IsAscii p) (hlower : toLower c = [p]) (hlow : low ∈ lowerings c) :
  low = [p]
  := by
  rw [← hlower]
  by_cases hsigma : c = 'Σ'
  · rw [hsigma, toLower_eq_singleton hp] at hlower
    rcases hlower with rfl | ⟨h, -⟩
    · exact absurd hp.2 (by decide)
    · cases h
  · rw [lowerings, if_neg hsigma] at hlow
    exact List.mem_singleton.mp hlow

/-! ### Texts -/

/-- The text starts with `pat`, which is in small letters, in any case. -/
def begins : List Char → List Char → Bool
  | [], _ => true
  | _, [] => false
  | p :: pat, c :: text => toLower c = [p] && begins pat text

/-- The small letters start with a text of ASCII where the text does in any case. -/
theorem Lowers.prefix_iff (h : Lowers text lows) (hpat : ∀ p ∈ pat, IsAscii p)
    (hlast : pat.getLast? ≠ some 'i') :
  pat <+: lows ↔ begins pat text = true
  := by
  induction pat generalizing text lows with
  | nil => simp [begins]
  | cons p pat ih =>
      rw [List.forall_mem_cons] at hpat
      cases h with
      | nil => simp [begins]
      | @cons c low text lows hlow hrest =>
          have hrestLast : pat.getLast? ≠ some 'i' := by
            intro hlast'
            apply hlast
            rw [List.getLast?_cons, hlast', Option.getD_some]
          rw [begins, Bool.and_eq_true, decide_eq_true_iff]
          constructor
          · intro hprefix
            rcases eq_singleton_of_mem_lowerings hlow with ⟨l, rfl⟩ | rfl
            · obtain ⟨rfl, hmore⟩ := List.cons_prefix_cons.mp hprefix
              exact ⟨(singleton_mem_lowerings hpat.1).mp hlow, (ih hrest hpat.2 hrestLast).mp hmore⟩
            · -- the second character of `İ` is not ASCII, and it is not at the end
              obtain ⟨rfl, hmore⟩ := List.cons_prefix_cons.mp hprefix
              cases pat with
              | nil => exact absurd rfl hlast
              | cons q pat =>
                  obtain ⟨rfl, -⟩ := List.cons_prefix_cons.mp hmore
                  exact absurd (hpat.2 _ List.mem_cons_self) (by decide)
          · rintro ⟨hlower, hmore⟩
            rw [eq_of_toLower_eq hpat.1 hlower hlow]
            exact List.cons_prefix_cons.mpr ⟨rfl, (ih hrest hpat.2 hrestLast).mpr hmore⟩

/-- Where a character of ASCII other than `i` stands in the small letters, one character of the text
became it. -/
theorem Lowers.exists_of_append {before behind : List Char} (hp : IsAscii p) (hi : p ≠ 'i')
    (h : Lowers text (before ++ p :: behind)) :
  ∃ start c rest, text = start ++ c :: rest ∧ Lowers start before ∧ toLower c = [p]
    ∧ Lowers rest behind
  := by
  generalize hlows : before ++ p :: behind = lows at h
  induction h generalizing before with
  | nil => simp at hlows
  | @cons c low text lows hlow hrest ih =>
      rcases List.append_eq_append_iff.mp hlows with ⟨more, rfl, hmore⟩ | ⟨more, rfl, hmore⟩
      · cases more with
        | nil =>
            rw [List.append_nil] at hlow
            obtain ⟨start, d, rest, rfl, hstart, hd⟩ := @ih [] hmore
            exact ⟨c :: start, d, rest, rfl, by simpa using Lowers.cons hlow hstart, hd⟩
        | cons q more =>
            obtain ⟨rfl, rfl⟩ := List.cons.inj hmore
            rcases eq_singleton_of_mem_lowerings hlow with ⟨l, hl⟩ | hdotted
            · cases before with
              | nil =>
                  obtain ⟨rfl, rfl⟩ := List.cons.inj hl
                  have hlower := (singleton_mem_lowerings hp).mp hlow
                  exact ⟨[], c, _, rfl, Lowers.nil, hlower, hrest⟩
              | cons b before => simp at hl
            · have hmem : p ∈ ['i', '\u0307'] := by
                rw [← hdotted]
                exact List.mem_append_right _ List.mem_cons_self
              rcases List.mem_pair.mp hmem with rfl | rfl
              · exact absurd rfl hi
              · exact absurd hp.2 (by decide)
      · obtain ⟨start, d, rest, rfl, hstart, hd⟩ := ih hmore.symm
        exact ⟨c :: start, d, rest, rfl, Lowers.cons hlow hstart, hd⟩

theorem Lowers.eq_nil (h : Lowers text []) :
  text = []
  := by
  generalize hlows : ([] : List Char) = lows at h
  cases h with
  | nil => rfl
  | cons hlow _ =>
      have hnil := (List.append_eq_nil_iff.mp hlows.symm).1
      exact absurd hnil (ne_nil_of_mem_lowerings hlow)

/-- Where a text of ASCII without `i` stands in the small letters, it stands in the text in any
case. -/
theorem Lowers.exists_of_append_append {before behind : List Char} (hpat : ∀ p ∈ pat, IsAscii p)
    (hi : 'i' ∉ pat) (hne : pat ≠ []) (h : Lowers text (before ++ pat ++ behind)) :
  ∃ start here rest, text = start ++ here ++ rest ∧ Lowers start before
    ∧ here.length = pat.length ∧ begins pat here = true ∧ Lowers rest behind
  := by
  induction pat generalizing text before with
  | nil => exact absurd rfl hne
  | cons p pat ih =>
      rw [List.forall_mem_cons] at hpat
      rw [List.mem_cons, not_or] at hi
      rw [List.append_assoc, List.cons_append] at h
      obtain ⟨start, c, rest, rfl, hstart, hlower, hrest⟩ :=
        h.exists_of_append hpat.1 (Ne.symm hi.1)
      by_cases hpatNil : pat = []
      · rw [hpatNil] at hrest ⊢
        refine ⟨start, [c], rest, by simp, hstart, rfl, ?_, hrest⟩
        rw [begins, begins, Bool.and_true, decide_eq_true hlower]
      · obtain ⟨first, here, rest, rfl, hfirst, hlength, hbegins, hrest⟩ :=
          @ih _ [] hpat.2 hi.2 hpatNil hrest
        rw [hfirst.eq_nil]
        refine ⟨start, c :: here, rest, by simp, hstart, by simp [hlength], ?_, hrest⟩
        rw [begins, decide_eq_true hlower, hbegins]
        rfl

/-- The small letters of two texts one after the other. -/
theorem Lowers.of_append {before behind : List Char} (h : Lowers (before ++ behind) lows) :
  ∃ first last, lows = first ++ last ∧ Lowers before first ∧ Lowers behind last
  := by
  induction before generalizing lows with
  | nil => exact ⟨[], lows, rfl, Lowers.nil, h⟩
  | cons c before ih =>
      cases h with
      | cons hlow hrest =>
          obtain ⟨first, last, rfl, hfirst, hlast⟩ := ih hrest
          exact ⟨_, last, (List.append_assoc _ _ _).symm, Lowers.cons hlow hfirst, hlast⟩

/-- In any case is in any case of ASCII, without the letter `k`. -/
theorem begins_iff (hpat : ∀ p ∈ pat, IsAscii p ∧ p ≠ 'k') :
  begins pat text = true ↔ pat <+: text.map Char.toLower
  := by
  induction pat generalizing text with
  | nil => simp [begins]
  | cons p pat ih =>
      rw [List.forall_mem_cons] at hpat
      cases text with
      | nil => simp [begins]
      | cons c text =>
          rw [begins, Bool.and_eq_true, decide_eq_true_iff, toLower_eq_singleton hpat.1.1,
            ih hpat.2, List.map_cons, List.cons_prefix_cons, or_iff_left, eq_comm]
          rintro ⟨-, hk⟩
          exact hpat.1.2 hk

/-- A text that is ASCII in the small letters of ASCII is that in small letters. -/
theorem Lowers.eq_of_ascii (h : Lowers text lows) (htext : text.map Char.toLower = pat)
    (hpat : ∀ p ∈ pat, IsAscii p) :
  lows = pat
  := by
  induction h generalizing pat with
  | nil => exact htext
  | @cons c low text lows hlow _ ih =>
      rw [← htext, List.map_cons, List.forall_mem_cons] at hpat
      rw [← htext, List.map_cons, ih rfl hpat.2]
      have hlower := (toLower_eq_singleton hpat.1).mpr (.inl rfl)
      rw [eq_of_toLower_eq hpat.1 hlower hlow, List.singleton_append]

/-- Where the small letters end with a text of ASCII, without `i` and `k`, the text does in any case
of ASCII. -/
theorem Lowers.suffix_iff (h : Lowers text lows) (hpat : ∀ p ∈ pat, IsAscii p ∧ p ≠ 'k')
    (hi : 'i' ∉ pat) (hne : pat ≠ []) :
  pat <:+ lows ↔ pat <:+ text.map Char.toLower
  := by
  have hascii : ∀ p ∈ pat, IsAscii p := fun p hp => (hpat p hp).1
  constructor
  · rintro ⟨before, rfl⟩
    rw [← List.append_nil (before ++ pat)] at h
    obtain ⟨start, here, rest, rfl, -, hlength, hbegins, hrest⟩ :=
      h.exists_of_append_append hascii hi hne
    have hpatHere := (begins_iff hpat).mp hbegins
    have hsame := hpatHere.eq_of_length (by rw [List.length_map, hlength])
    rw [hrest.eq_nil, List.append_nil, List.map_append, ← hsame]
    exact List.suffix_append _ _
  · rintro ⟨before, hbefore⟩
    obtain ⟨start, here, rfl, rfl, hhere⟩ := List.append_eq_map_iff.mp hbefore
    obtain ⟨first, last, rfl, -, hlast⟩ := h.of_append
    rw [hlast.eq_of_ascii hhere hascii]
    exact List.suffix_append _ _

theorem cut_lowering (hpat : ∀ p ∈ pat, IsAscii p ∧ p ≠ 'k') (hne : pat ≠ [])
    (hlow : low ∈ lowerings c) (hneg : ¬ pat <+: low ++ lows) :
  TextIndex.cut (fun text => pat <+: text) (low ++ lows)
    = (TextIndex.cut (fun text => pat <+: text) lows).map fun x => (low ++ x.1, x.2)
  := by
  rcases eq_singleton_of_mem_lowerings hlow with ⟨l, rfl⟩ | rfl
  · rw [List.singleton_append] at hneg
    exact TextIndex.cut_of_neg (by simpa using hneg)
  · have hdot : ¬ pat <+: '\u0307' :: lows := by
      intro hdot
      cases pat with
      | nil => exact hne rfl
      | cons p pat =>
          obtain ⟨rfl, -⟩ := List.cons_prefix_cons.mp hdot
          exact absurd (hpat _ List.mem_cons_self).1 (by decide)
    rw [List.cons_append, List.singleton_append] at hneg ⊢
    rw [TextIndex.cut_of_neg (by simpa using hneg), TextIndex.cut_of_neg (by simpa using hdot),
      Option.map_map]
    rfl

/-- The first place where the small letters go on with a text of ASCII, without `i` and `k`, is that
where the text does in any case of ASCII. -/
theorem Lowers.cut (h : Lowers text lows) (hpat : ∀ p ∈ pat, IsAscii p ∧ p ≠ 'k') (hi : 'i' ∉ pat)
    (hne : pat ≠ []) :
  (TextIndex.cut (fun text => pat <+: text.map Char.toLower) text = none
      ∧ TextIndex.cut (fun text => pat <+: text) lows = none)
    ∨ ∃ before behind first last,
        TextIndex.cut (fun text => pat <+: text.map Char.toLower) text = some (before, behind)
      ∧ TextIndex.cut (fun text => pat <+: text) lows = some (first, last)
      ∧ Lowers before first
  := by
  have hlast : pat.getLast? ≠ some 'i' := fun hlast => hi (List.mem_of_getLast? hlast)
  have hsame {text lows : List Char} (h : Lowers text lows) :
      pat <+: lows ↔ pat <+: text.map Char.toLower := by
    rw [h.prefix_iff (fun p hp => (hpat p hp).1) hlast, begins_iff hpat]
  induction h with
  | nil =>
      left
      simp [TextIndex.cut, hne]
  | @cons c low text lows hlow hrest ih =>
      have hhere := hsame (Lowers.cons hlow hrest)
      by_cases hpref : pat <+: (c :: text).map Char.toLower
      · right
        exact ⟨[], _, [], _, TextIndex.cut_of_pos (decide_eq_true hpref),
          TextIndex.cut_of_pos (decide_eq_true (hhere.mpr hpref)), Lowers.nil⟩
      · have hlows := cut_lowering hpat hne hlow (fun h => hpref (hhere.mp h))
        have htext : TextIndex.cut (fun text => pat <+: text.map Char.toLower) (c :: text)
            = (TextIndex.cut (fun text => pat <+: text.map Char.toLower) text).map
              fun x => (c :: x.1, x.2) :=
          TextIndex.cut_of_neg (by simpa using hpref)
        rw [hlows, htext]
        rcases ih with ⟨hnone, hnone'⟩ | ⟨before, behind, first, last, hcut, hcut', hbefore⟩
        · left
          rw [hnone, hnone']
          exact ⟨rfl, rfl⟩
        · right
          rw [hcut, hcut']
          exact ⟨c :: before, behind, low ++ first, last, rfl, rfl, Lowers.cons hlow hbefore⟩

/-- Texts become texts of one length in UTF-8, whatever rule there is for sigma. -/
theorem Lowers.utf8Len_eq {lows' : List Char} (h : Lowers text lows) (h' : Lowers text lows') :
  String.utf8Len lows = String.utf8Len lows'
  := by
  induction h generalizing lows' with
  | nil =>
      cases h' with
      | nil => rfl
  | @cons c low text lows hlow hrest ih =>
      cases h' with
      | @cons _ low' _ lows' hlow' hrest' =>
          have hsame : String.utf8Len low = String.utf8Len low' := by
            rw [lowerings] at hlow hlow'
            split_ifs at hlow hlow'
            · rw [List.mem_pair] at hlow hlow'
              rcases hlow with rfl | rfl <;> rcases hlow' with rfl | rfl <;> rfl
            · rw [List.mem_singleton.mp hlow, List.mem_singleton.mp hlow']
          rw [String.utf8Len_append, String.utf8Len_append, hsame, ih hrest']

end VynxDesk.Lowercase
