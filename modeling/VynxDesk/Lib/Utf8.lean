import Mathlib.Data.List.Basic
import Mathlib.Data.Nat.Find

/-!
# UTF-8

The bytes of a text, a character at a time: a lead byte, which tells how many continuation bytes
follow, and these.  So a byte that is no continuation byte starts a character, a text can be cut
before it, and what is left of a text behind at most three continuation bytes is a text.  Bytes are
decoded as far as they are a text (`decode`); the first bytes of a text are so up to the character
that is cut (`decode_encode_append`).
-/

namespace VynxDesk.Utf8

/-- A continuation byte. -/
def IsTail (b : UInt8) : Prop := b &&& 0xC0 = 0x80

instance (b : UInt8) : Decidable (IsTail b) := inferInstanceAs (Decidable (_ = _))

/-- The number of bytes of a character with this lead byte. -/
def leadLength (b : UInt8) : ℕ :=
  if b &&& 0x80 = 0 then 1
  else if b &&& 0xE0 = 0xC0 then 2
  else if b &&& 0xF0 = 0xE0 then 3
  else if b &&& 0xF8 = 0xF0 then 4
  else 0

/-- The bytes of a text. -/
def encode (text : List Char) : List UInt8 := text.flatMap String.utf8EncodeChar

/-- The bytes are those of a text. -/
def Valid (bytes : List UInt8) : Prop := ∃ text, bytes = encode text

theorem isTail_iff (b : UInt8) :
  IsTail b ↔ 0x80 ≤ b.toNat ∧ b.toNat < 0xC0
  := by
  have hall : ∀ n < 256, (UInt8.ofNat n &&& 0xC0 = 0x80 ↔ 0x80 ≤ n ∧ n < 0xC0) := by
    decide +kernel
  have h := hall b.toNat b.toNat_lt
  rw [UInt8.ofNat_toNat] at h
  exact h

theorem leadLength_eq (b : UInt8) :
  leadLength b
    = if b.toNat < 0x80 then 1
      else if b.toNat < 0xC0 then 0
      else if b.toNat < 0xE0 then 2
      else if b.toNat < 0xF0 then 3
      else if b.toNat < 0xF8 then 4
      else 0
  := by
  have hall : ∀ n < 256, leadLength (UInt8.ofNat n)
      = if n < 0x80 then 1
        else if n < 0xC0 then 0
        else if n < 0xE0 then 2
        else if n < 0xF0 then 3
        else if n < 0xF8 then 4
        else 0 := by
    decide +kernel
  have h := hall b.toNat b.toNat_lt
  rw [UInt8.ofNat_toNat] at h
  exact h

/-- A character is a lead byte and the continuation bytes it tells of. -/
theorem encodeChar_eq (c : Char) :
  ∃ lead tails, String.utf8EncodeChar c = lead :: tails ∧ leadLength lead = tails.length + 1 ∧
    ∀ b ∈ tails, IsTail b
  := by
  have hbyte (n : ℕ) : (UInt8.ofNat n).toNat = n % 256 := UInt8.toNat_ofNat'
  have htail (n : ℕ) : IsTail (UInt8.ofNat (n % 0x40 + 0x80)) := by
    rw [isTail_iff, hbyte]
    omega
  have hvalid : c.val.toNat < 0x110000 := by
    have h := c.valid
    unfold UInt32.isValidChar Nat.isValidChar at h
    omega
  unfold String.utf8EncodeChar
  dsimp only
  split_ifs with h1 h2 h3
  · refine ⟨_, _, rfl, ?_, List.forall_mem_nil _⟩
    rw [leadLength_eq, hbyte, if_pos (by omega)]
    rfl
  · refine ⟨_, _, rfl, ?_, ?_⟩
    · rw [leadLength_eq, hbyte, if_neg (by omega), if_neg (by omega), if_pos (by omega)]
      rfl
    · simp only [List.forall_mem_cons, htail, List.not_mem_nil, false_imp_iff, implies_true,
        and_true]
  · refine ⟨_, _, rfl, ?_, ?_⟩
    · rw [leadLength_eq, hbyte, if_neg (by omega), if_neg (by omega), if_neg (by omega),
        if_pos (by omega)]
      rfl
    · simp only [List.forall_mem_cons, htail, List.not_mem_nil, false_imp_iff, implies_true,
        and_true]
  · refine ⟨_, _, rfl, ?_, ?_⟩
    · rw [leadLength_eq, hbyte, if_neg (by omega), if_neg (by omega), if_neg (by omega),
        if_neg (by omega), if_pos (by omega)]
      rfl
    · simp only [List.forall_mem_cons, htail, List.not_mem_nil, false_imp_iff, implies_true,
        and_true]

theorem not_isTail_of_leadLength {b : UInt8} {n : ℕ} (h : leadLength b = n + 1) :
  ¬ IsTail b
  := by
  rw [leadLength_eq] at h
  rw [isTail_iff]
  split_ifs at h <;> omega

theorem leadLength_le (b : UInt8) :
  leadLength b ≤ 4
  := by
  rw [leadLength_eq]
  split_ifs <;> omega

@[simp]
theorem encode_cons (c : Char) (text : List Char) :
  encode (c :: text) = String.utf8EncodeChar c ++ encode text
  := List.flatMap_cons

theorem valid_nil : Valid []
  := ⟨[], rfl⟩

theorem valid_encodeChar (c : Char) :
  Valid (String.utf8EncodeChar c)
  := by
  use [c]
  rw [encode_cons]
  exact (List.append_nil _).symm

theorem Valid.append {a b : List UInt8} (ha : Valid a) (hb : Valid b) :
  Valid (a ++ b)
  := by
  obtain ⟨text, rfl⟩ := ha
  obtain ⟨text', rfl⟩ := hb
  use text ++ text'
  exact List.flatMap_append.symm

/-- Texts one after the other make a text. -/
theorem valid_flatten {parts : List (List UInt8)} (h : ∀ part ∈ parts, Valid part) :
  Valid parts.flatten
  := by
  induction parts with
  | nil => exact valid_nil
  | cons part parts ih =>
      rw [List.forall_mem_cons] at h
      rw [List.flatten_cons]
      apply h.1.append (ih h.2)

/-- The bytes of a character are told from what follows them. -/
theorem encodeChar_append_inj {c d : Char} {x y : List UInt8}
    (h : String.utf8EncodeChar c ++ x = String.utf8EncodeChar d ++ y) :
  x = y
  := by
  obtain ⟨lead, tails, hc, hlength, -⟩ := encodeChar_eq c
  obtain ⟨lead', tails', hd, hlength', -⟩ := encodeChar_eq d
  rw [hc, hd, List.cons_append, List.cons_append] at h
  obtain ⟨rfl, hrest⟩ := List.cons.inj h
  apply (List.append_inj hrest _).2
  omega

/-- What follows a text in a text is a text. -/
theorem Valid.of_append {a b : List UInt8} (ha : Valid a) (h : Valid (a ++ b)) :
  Valid b
  := by
  obtain ⟨text, rfl⟩ := ha
  induction text with
  | nil => exact h
  | cons c text ih =>
      obtain ⟨text', htext⟩ := h
      cases text' with
      | nil =>
          obtain ⟨lead, tails, hc, -⟩ := encodeChar_eq c
          rw [encode_cons, hc] at htext
          cases htext
      | cons d text' =>
          rw [encode_cons, encode_cons, List.append_assoc] at htext
          apply ih
          use text'
          apply encodeChar_append_inj htext

/-- A text starts with no continuation byte. -/
theorem Valid.not_isTail {b : UInt8} {rest : List UInt8} (h : Valid (b :: rest)) :
  ¬ IsTail b
  := by
  obtain ⟨text, htext⟩ := h
  cases text with
  | nil => cases htext
  | cons c text =>
      obtain ⟨lead, tails, hc, hlength, -⟩ := encodeChar_eq c
      rw [encode_cons, hc, List.cons_append] at htext
      obtain ⟨rfl, -⟩ := List.cons.inj htext
      apply not_isTail_of_leadLength hlength

/-- A text can be cut before a byte that is no continuation byte. -/
theorem Valid.left {a rest : List UInt8} {b : UInt8} (h : Valid (a ++ b :: rest))
    (hb : ¬ IsTail b) :
  Valid a
  := by
  obtain ⟨text, htext⟩ := h
  induction text generalizing a with
  | nil => simp [encode] at htext
  | cons c text ih =>
      cases a with
      | nil => exact valid_nil
      | cons first a =>
          obtain ⟨lead, tails, hc, hlength, htails⟩ := encodeChar_eq c
          rw [encode_cons, hc, List.cons_append, List.cons_append] at htext
          obtain ⟨rfl, hrest⟩ := List.cons.inj htext
          rcases List.append_eq_append_iff.mp hrest with
            ⟨more, hmore, hafter⟩ | ⟨more, hmore, hafter⟩
          · cases more with
            | nil =>
                have hchar : first :: a = String.utf8EncodeChar c := by
                  rw [hc, hmore, List.append_nil]
                rw [hchar]
                apply valid_encodeChar
            | cons tail more =>
                obtain ⟨rfl, -⟩ := List.cons.inj hafter
                exact absurd (htails b (by rw [hmore]; simp)) hb
          · have hchar : first :: a = String.utf8EncodeChar c ++ more := by
              rw [hc, hmore, List.cons_append]
            rw [hchar]
            apply (valid_encodeChar c).append
            apply ih hafter.symm

/-- A text that is not empty ends with a character. -/
theorem Valid.exists_last {bytes : List UInt8} (h : Valid bytes) (hne : bytes ≠ []) :
  ∃ before lead tails, bytes = before ++ lead :: tails ∧ leadLength lead = tails.length + 1 ∧
    ∀ b ∈ tails, IsTail b
  := by
  obtain ⟨text, rfl⟩ := h
  rcases List.eq_nil_or_concat text with rfl | ⟨text, c, rfl⟩
  · exact absurd rfl hne
  · obtain ⟨lead, tails, hc, hlength, htails⟩ := encodeChar_eq c
    refine ⟨encode text, lead, tails, ?_, hlength, htails⟩
    rw [← hc, List.concat_eq_append, encode, List.flatMap_append, List.flatMap_singleton, encode]

/-- Behind at most three continuation bytes, what is left of a text is a text. -/
theorem Valid.exists_drop {bytes : List UInt8} (h : Valid bytes) {k : ℕ} (hk : k ≤ bytes.length) :
  ∃ tails rest, bytes.drop k = tails ++ rest ∧ tails.length ≤ 3 ∧ (∀ b ∈ tails, IsTail b) ∧
    Valid rest
  := by
  obtain ⟨text, rfl⟩ := h
  induction text generalizing k with
  | nil => exact ⟨[], [], List.drop_nil, Nat.zero_le _, List.forall_mem_nil _, valid_nil⟩
  | cons c text ih =>
      obtain ⟨lead, tails, hc, hlength, htails⟩ := encodeChar_eq c
      have hle := leadLength_le lead
      rw [encode_cons, hc, List.cons_append] at hk ⊢
      cases k with
      | zero =>
          refine ⟨[], _, rfl, Nat.zero_le _, List.forall_mem_nil _, c :: text, ?_⟩
          rw [encode_cons, hc, List.cons_append]
      | succ k =>
          rw [List.drop_succ_cons]
          by_cases hmore : k ≤ tails.length
          · have hdrop := @List.drop_append_of_le_length _ tails (encode text) k hmore
            refine ⟨tails.drop k, encode text, hdrop, ?_, ?_, text, rfl⟩
            · rw [List.length_drop]
              omega
            · intro b hb
              apply htails b (List.mem_of_mem_drop hb)
          · rw [List.length_cons, List.length_append] at hk
            rw [List.drop_append, List.drop_of_length_le (by omega), List.nil_append]
            apply ih
            omega

/-- The first bytes of a character, without the last one: it may be none. -/
def Incomplete (bytes : List UInt8) : Prop :=
  ∃ c more, more ≠ [] ∧ String.utf8EncodeChar c = bytes ++ more

theorem incomplete_nil : Incomplete []
  := by
  obtain ⟨lead, tails, hc, -⟩ := encodeChar_eq 'a'
  refine ⟨'a', String.utf8EncodeChar 'a', ?_, rfl⟩
  rw [hc]
  apply List.cons_ne_nil

/-- What there is of an incomplete character: a lead byte, and fewer continuation bytes than it
tells of. -/
theorem Incomplete.eq_cons {b : UInt8} {bytes : List UInt8} (h : Incomplete (b :: bytes)) :
  bytes.length + 1 < leadLength b ∧ ∀ tail ∈ bytes, IsTail tail
  := by
  obtain ⟨c, more, hmore, hbytes⟩ := h
  obtain ⟨lead, tails, hc, hlength, htails⟩ := encodeChar_eq c
  rw [hc, List.cons_append] at hbytes
  obtain ⟨rfl, rfl⟩ := List.cons.inj hbytes
  have hpos : 0 < more.length := List.length_pos_iff.mpr hmore
  constructor
  · rw [hlength, List.length_append]
    omega
  · intro tail htail
    apply htails tail (List.mem_append_left _ htail)

/-- The first bytes of a text are its first characters and an incomplete one. -/
theorem exists_take_of_prefix {bytes : List UInt8} {chars : List Char}
    (h : bytes <+: encode chars) :
  ∃ n part, bytes = encode (chars.take n) ++ part ∧ Incomplete part
  := by
  induction chars generalizing bytes with
  | nil => exact ⟨0, [], List.prefix_nil.mp h, incomplete_nil⟩
  | cons c chars ih =>
      obtain ⟨rest, hrest⟩ := h
      rw [encode_cons] at hrest
      rcases List.append_eq_append_iff.mp hrest with ⟨more, hc, -⟩ | ⟨more, rfl, hmore⟩
      · by_cases hnil : more = []
        · refine ⟨1, [], ?_, incomplete_nil⟩
          rw [hnil, List.append_nil] at hc
          rw [List.take_succ_cons, List.take_zero, encode_cons, hc, List.append_nil]
          exact (List.append_nil bytes).symm
        · exact ⟨0, bytes, rfl, c, more, hnil, hc⟩
      · obtain ⟨n, part, hpart, hincomplete⟩ := ih ⟨rest, hmore.symm⟩
        refine ⟨n + 1, part, ?_, hincomplete⟩
        rw [List.take_succ_cons, encode_cons, List.append_assoc, ← hpart]

/-- The first bytes of a text are a text and an incomplete character. -/
theorem exists_of_prefix {bytes text : List UInt8} (h : bytes <+: text) (htext : Valid text) :
  ∃ whole part, bytes = whole ++ part ∧ Valid whole ∧ Incomplete part
  := by
  obtain ⟨chars, rfl⟩ := htext
  obtain ⟨n, part, hpart, hincomplete⟩ := exists_take_of_prefix h
  exact ⟨_, part, hpart, ⟨_, rfl⟩, hincomplete⟩

/-- The bytes of a string. -/
def bytes (s : String) : List UInt8 := s.toByteArray.data.toList

/-- The string with these bytes. -/
def string? (bytes : List UInt8) : Option String := String.fromUTF8? ⟨bytes.toArray⟩

/-- A string is read from its bytes, and from no others. -/
theorem string?_eq_some_iff {text : List UInt8} {s : String} :
  string? text = some s ↔ text = bytes s
  := by
  constructor
  · intro h
    unfold string? String.fromUTF8? at h
    split at h
    next hvalid =>
        obtain rfl := Option.some.inj h
        rfl
    next => cases h
  · rintro rfl
    have hbytes : (⟨(bytes s).toArray⟩ : ByteArray) = s.toByteArray := rfl
    rw [string?, hbytes, String.fromUTF8?, dif_pos s.isValidUTF8]
    rfl

@[simp]
theorem string?_bytes (s : String) : string? (bytes s) = some s
  := string?_eq_some_iff.mpr rfl

theorem bytes_eq_encode (s : String) :
  bytes s = encode s.toList
  := by
  rw [bytes, ← s.utf8Encode_toList]
  simp [List.utf8Encode, encode]

/-- The width that a lead byte tells of. -/
def width (b : UInt8) : ℕ :=
  if b ≤ 0x7F then 1
  else if 0xC2 ≤ b ∧ b ≤ 0xDF then 2
  else if 0xE0 ≤ b ∧ b ≤ 0xEF then 3
  else if 0xF0 ≤ b ∧ b ≤ 0xF4 then 4
  else 0

/-- Whether a byte can be the second one behind a lead byte. -/
def second (lead b : UInt8) : Bool :=
  (if lead = 0xE0 then 0xA0 else if lead = 0xF0 then 0x90 else 0x80) ≤ b
    ∧ b ≤ if lead = 0xED then 0x9F else if lead = 0xF4 then 0x8F else 0xBF

/-- Whether bytes start a character and end before it does. -/
def cutShort : List UInt8 → Bool
  | [lead] => 2 ≤ width lead
  | [lead, b] => 3 ≤ width lead ∧ second lead b
  | [lead, b, tail] => 4 ≤ width lead ∧ second lead b ∧ IsTail tail
  | _ => false

theorem width_eq (b : UInt8) :
  width b
    = if b.toNat < 0x80 then 1
      else if b.toNat < 0xC2 then 0
      else if b.toNat < 0xE0 then 2
      else if b.toNat < 0xF0 then 3
      else if b.toNat < 0xF5 then 4
      else 0
  := by
  have hall : ∀ n < 256, width (UInt8.ofNat n)
      = if n < 0x80 then 1
        else if n < 0xC2 then 0
        else if n < 0xE0 then 2
        else if n < 0xF0 then 3
        else if n < 0xF5 then 4
        else 0 := by
    decide +kernel
  have h := hall b.toNat b.toNat_lt
  rw [UInt8.ofNat_toNat] at h
  exact h

theorem second_iff (lead b : UInt8) :
  second lead b = true
    ↔ (if lead.toNat = 0xE0 then 0xA0 else if lead.toNat = 0xF0 then 0x90 else 0x80) ≤ b.toNat
      ∧ b.toNat ≤ if lead.toNat = 0xED then 0x9F else if lead.toNat = 0xF4 then 0x8F else 0xBF
  := by
  simp only [second, decide_eq_true_eq, UInt8.le_iff_toNat_le, ← UInt8.toNat_inj,
    apply_ite UInt8.toNat]
  rfl

theorem cutShort_of_incomplete {part : List UInt8} (h : Incomplete part) (hne : part ≠ []) :
  cutShort part = true
  := by
  obtain ⟨c, more, hmore, hbytes⟩ := h
  have hbyte (n : ℕ) : (UInt8.ofNat n).toNat = n % 256 := UInt8.toNat_ofNat'
  have hvalid : c.val.toNat < 0xD800 ∨ 0xDFFF < c.val.toNat ∧ c.val.toNat < 0x110000 := c.valid
  unfold String.utf8EncodeChar at hbytes
  dsimp only at hbytes
  generalize c.val.toNat = v at *
  rcases part with _ | ⟨lead, _ | ⟨b, _ | ⟨tail, _ | ⟨last, part⟩⟩⟩⟩
  · exact absurd rfl hne
  · have hwidth : 2 ≤ width lead := by
      split_ifs at hbytes with h1 h2 h3
      · simp [hmore] at hbytes
      all_goals
        obtain ⟨rfl, -⟩ := List.cons.inj hbytes
        rw [width_eq, hbyte]
        split_ifs <;> omega
    exact decide_eq_true hwidth
  · have hwidth : 3 ≤ width lead ∧ second lead b := by
      split_ifs at hbytes with h1 h2 h3
      · simp at hbytes
      · simp [hmore] at hbytes
      all_goals
        obtain ⟨rfl, hrest⟩ := List.cons.inj hbytes
        obtain ⟨rfl, -⟩ := List.cons.inj hrest
        rw [width_eq, second_iff, hbyte, hbyte]
        constructor
        all_goals split_ifs <;> omega
    exact decide_eq_true hwidth
  · have hwidth : 4 ≤ width lead ∧ second lead b ∧ IsTail tail := by
      split_ifs at hbytes with h1 h2 h3
      · simp at hbytes
      · simp at hbytes
      · simp [hmore] at hbytes
      obtain ⟨rfl, hrest⟩ := List.cons.inj hbytes
      obtain ⟨rfl, htail⟩ := List.cons.inj hrest
      obtain ⟨rfl, -⟩ := List.cons.inj htail
      rw [width_eq, second_iff, isTail_iff, hbyte, hbyte, hbyte]
      refine ⟨?_, ?_, by omega⟩
      all_goals split_ifs <;> omega
    exact decide_eq_true hwidth
  · split_ifs at hbytes with h1 h2 h3
    all_goals simp [hmore] at hbytes

/-- A character that is cut short is no text. -/
theorem Incomplete.not_valid {part : List UInt8} (h : Incomplete part) (hne : part ≠ []) :
  ¬ Valid part
  := by
  rintro ⟨text, rfl⟩
  obtain ⟨c, more, hmore, hbytes⟩ := h
  cases text with
  | nil => exact hne rfl
  | cons d text =>
      rw [encode_cons, List.append_assoc, ← List.append_nil (String.utf8EncodeChar c)] at hbytes
      have hnil := encodeChar_append_inj hbytes
      exact hmore (List.append_eq_nil_iff.mp hnil.symm).2

theorem Incomplete.take {part : List UInt8} (h : Incomplete part) (n : ℕ) :
  Incomplete (part.take n)
  := by
  obtain ⟨c, more, hmore, hbytes⟩ := h
  refine ⟨c, part.drop n ++ more, ?_, ?_⟩
  · exact List.append_ne_nil_of_right_ne_nil _ hmore
  · rw [hbytes, ← List.append_assoc, List.take_append_drop]

theorem Incomplete.length_le {part : List UInt8} (h : Incomplete part) :
  part.length ≤ 3
  := by
  cases part with
  | nil => exact Nat.zero_le 3
  | cons lead tails =>
      have hle := leadLength_le lead
      have hlt := h.eq_cons.1
      rw [List.length_cons]
      omega

theorem isSome_string?_iff {bytes : List UInt8} :
  (string? bytes).isSome = true ↔ Valid bytes
  := by
  rw [Option.isSome_iff_exists]
  constructor
  · rintro ⟨s, hs⟩
    exact ⟨s.toList, (string?_eq_some_iff.mp hs).trans (bytes_eq_encode s)⟩
  · rintro ⟨text, rfl⟩
    use String.ofList text
    rw [string?_eq_some_iff, bytes_eq_encode, String.toList_ofList]

/-- The error of `decode`: how many bytes are a text, and whether what is behind them starts no
character. -/
structure DecodeError where
  validUpTo : ℕ
  within : Bool
  deriving DecidableEq, Repr

/-- The text with these bytes. -/
def decode (bytes : List UInt8) : Except DecodeError String :=
  match string? bytes with
  | some s => .ok s
  | none =>
      let validUpTo := Nat.findGreatest (fun n => (string? (bytes.take n)).isSome) bytes.length
      .error { validUpTo := validUpTo, within := !cutShort (bytes.drop validUpTo) }

theorem decode_encode (text : List Char) :
  decode (encode text) = .ok (String.ofList text)
  := by
  have h : string? (encode text) = some (String.ofList text) := by
    rw [string?_eq_some_iff, bytes_eq_encode, String.toList_ofList]
  rw [decode, h]

/-- A text that ends in a character that is cut short is read up to it. -/
theorem decode_encode_append {text : List Char} {part : List UInt8} (h : Incomplete part)
    (hne : part ≠ []) :
  decode (encode text ++ part) = .error { validUpTo := (encode text).length, within := false }
  := by
  have hnone : ∀ {n}, (encode text).length < n → n ≤ (encode text ++ part).length →
      string? ((encode text ++ part).take n) = none := by
    intro n hlt hle
    rw [List.length_append] at hle
    rw [← Option.not_isSome_iff_eq_none, isSome_string?_iff, List.take_append,
      List.take_of_length_le (Nat.le_of_lt hlt)]
    intro hvalid
    apply (h.take _).not_valid _ (Valid.of_append ⟨text, rfl⟩ hvalid)
    rw [Ne, List.take_eq_nil_iff]
    rintro (hzero | hnil)
    · omega
    · exact hne hnil
  have hlt : (encode text).length < (encode text ++ part).length := by
    have hpos := List.length_pos_iff.mpr hne
    rw [List.length_append]
    omega
  have hwhole := hnone hlt (Nat.le_refl _)
  rw [List.take_length] at hwhole
  have hgreatest : Nat.findGreatest (fun n => (string? ((encode text ++ part).take n)).isSome)
      (encode text ++ part).length = (encode text).length := by
    rw [Nat.findGreatest_eq_iff]
    refine ⟨Nat.le_of_lt hlt, fun _ => ?_, ?_⟩
    · rw [List.take_left, isSome_string?_iff]
      exact ⟨text, rfl⟩
    · intro n hlt hle
      rw [hnone hlt hle]
      exact Bool.false_ne_true
  rw [decode, hwhole]
  dsimp only
  rw [hgreatest, List.drop_left, cutShort_of_incomplete h hne]
  rfl

theorem length_encode_le (text : List Char) :
  (encode text).length ≤ 4 * text.length
  := by
  induction text with
  | nil => exact Nat.zero_le _
  | cons c text ih =>
      obtain ⟨lead, tails, hc, hlength, -⟩ := encodeChar_eq c
      have hle := leadLength_le lead
      rw [encode_cons, hc, List.length_append, List.length_cons, List.length_cons]
      omega

/-- Whether bytes are those of a text. -/
def check (bytes : List UInt8) : Bool := (ByteArray.mk bytes.toArray).validateUTF8

theorem check_iff {bytes : List UInt8} :
  check bytes = true ↔ Valid bytes
  := by
  rw [check, ByteArray.validateUTF8_eq_true_iff]
  constructor
  · rintro ⟨text, htext⟩
    use text
    have h := congrArg (fun b : ByteArray => b.data.toList) htext
    simpa [List.utf8Encode, encode] using h
  · rintro ⟨text, rfl⟩
    use text
    simp [List.utf8Encode, encode, ByteArray.ext_iff]

end VynxDesk.Utf8
