import Mathlib.Data.List.Basic

/-!
# Textual forms of IP addresses

How IP addresses are written (RFC 5952, with an IPv4-mapped address in the mixed form), and how the
text of an IPv6 address is read.  What is written has only digits, `.` and `:`
(`IpAddr.isAddrChar_of_mem_toChars`).
-/

namespace VynxDesk

/-- An IP address. -/
inductive IpAddr where
  | v4 (addr : BitVec 32)
  | v6 (addr : BitVec 128)
  deriving DecidableEq, Repr

namespace IpAddr

/-! ### Writing -/

/-- The decimal octets of an IPv4 address, separated by dots. -/
def ipv4Chars (addr : BitVec 32) : List Char :=
  ['.'].intercalate (([24, 16, 8, 0] : List ℕ).map fun start =>
    Nat.toDigits 10 (addr.extractLsb' start 8).toNat)

/-- The eight segments of an IPv6 address. -/
def segments (addr : BitVec 128) : List (BitVec 16) :=
  ([112, 96, 80, 64, 48, 32, 16, 0] : List ℕ).map fun start => addr.extractLsb' start 16

/-- A range of segments. -/
structure Span where
  start : ℕ := 0
  len : ℕ := 0
  deriving DecidableEq, Repr

/-- The longest range of zero segments, the first of those, from the longest range so far and the
one that ends in front of the segment with number `i`. -/
def zeroes (longest current : Span) (i : ℕ) : List (BitVec 16) → Span
  | [] => longest
  | segment :: rest =>
      if segment = 0 then
        let current : Span := ⟨if current.len = 0 then i else current.start, current.len + 1⟩
        zeroes (if longest.len < current.len then current else longest) current (i + 1) rest
      else zeroes longest {} (i + 1) rest

/-- Hexadecimal segments, separated by colons. -/
def segmentsChars (chunk : List (BitVec 16)) : List Char :=
  [':'].intercalate (chunk.map fun segment => Nat.toDigits 16 segment.toNat)

/-- The text of an IPv6 address. -/
def ipv6Chars (addr : BitVec 128) : List Char :=
  if addr.extractLsb' 32 96 = 0xFFFF then
    "::ffff:".toList ++ ipv4Chars (addr.extractLsb' 0 32)
  else
    let zeroes := zeroes {} {} 0 (segments addr)
    if 1 < zeroes.len then
      segmentsChars ((segments addr).take zeroes.start) ++ "::".toList
        ++ segmentsChars ((segments addr).drop (zeroes.start + zeroes.len))
    else segmentsChars (segments addr)

/-- The text of an IP address. -/
def toChars : IpAddr → List Char
  | v4 addr => ipv4Chars addr
  | v6 addr => ipv6Chars addr

/-! ### Reading -/

/-- The value of a digit. -/
def digit (radix : ℕ) (c : Char) : Option ℕ :=
  (List.range radix).find? fun d => Nat.digitChar d = c.toLower

/-- Reads a number of at most `maxDigits` digits, below `bound`. -/
def readNumber (radix maxDigits : ℕ) (allowZeroPrefix : Bool) (bound : ℕ) (s : List Char) :
    Option (ℕ × List Char) :=
  let digits := s.takeWhile fun c => (digit radix c).isSome
  let value := (digits.filterMap (digit radix)).foldl (fun value d => value * radix + d) 0
  if digits.length = 0 ∨ maxDigits < digits.length then none
  else if allowZeroPrefix = false ∧ digits.head? = some '0' ∧ 1 < digits.length then none
  else if bound ≤ value then none
  else some (value, s.drop digits.length)

/-- Reads a separator, unless in front of the first item. -/
def readSeparator (separator : Char) (i : ℕ) (s : List Char) : Option (List Char) :=
  match i, s with
  | 0, s => some s
  | _ + 1, c :: s => if c = separator then some s else none
  | _ + 1, [] => none

/-- Reads the octets of an IPv4 address, `n` of which remain. -/
def readIpv4 : ℕ → List Char → Option (List ℕ × List Char)
  | 0, s => some ([], s)
  | n + 1, s => do
      let s ← readSeparator '.' (3 - n) s
      let (octet, s) ← readNumber 10 3 false 256 s
      let (octets, s) ← readIpv4 n s
      return (octet :: octets, s)

/-- Reads segments, at most `n` more after `i`: the segments, whether the last two of them were read
as an IPv4 address, and what is left. -/
def readGroups : (n i : ℕ) → List Char → List ℕ × Bool × List Char
  | 0, _, s => ([], false, s)
  | n + 1, i, s =>
      let ipv4 := if 0 < n then (readSeparator ':' i s).bind (readIpv4 4) else none
      match ipv4, (readSeparator ':' i s).bind (readNumber 16 4 true 65536) with
      | some ([a, b, c, d], s), _ => ([256 * a + b, 256 * c + d], true, s)
      | _, some (group, s) =>
          let (groups, ipv4, s) := readGroups n (i + 1) s
          (group :: groups, ipv4, s)
      | _, none => ([], false, s)

/-- The address with the given segments. -/
def ofSegments (groups : List ℕ) : BitVec 128 :=
  BitVec.ofNat 128 (groups.foldl (fun value group => value * 65536 + group) 0)

/-- Reads the text of an IPv6 address. -/
def ipv6OfChars (s : List Char) : Option (BitVec 128) :=
  let (head, headIpv4, s) := readGroups 8 0 s
  if head.length = 8 then
    if s = [] then some (ofSegments head) else none
  else if headIpv4 then none
  else match s with
    | ':' :: ':' :: s =>
        let (tail, _, s) := readGroups (8 - (head.length + 1)) 0 s
        if s = [] then
          some (ofSegments (head ++ List.replicate (8 - (head.length + tail.length)) 0 ++ tail))
        else none
    | _ => none

example : ipv6OfChars "2001:db8::ff00:42:8329".toList
    = some 0x20010DB8000000000000FF0000428329#128 := by decide +kernel

example : ipv6OfChars "::ffff:192.0.2.1".toList = some 0xFFFFC0000201#128 := by decide +kernel

example : toChars (.v6 0x20010DB8000000000000FF0000428329#128)
    = "2001:db8::ff00:42:8329".toList := by decide +kernel

/-! ### The characters of an address -/

/-- The characters that addresses are made of. -/
def IsAddrChar (c : Char) : Prop := (∃ d, c = Nat.digitChar d) ∨ c = '.' ∨ c = ':'

theorem mem_toDigitsCore {radix : ℕ} {c : Char} (fuel : ℕ) :
  ∀ {n : ℕ} {cs : List Char}, c ∈ Nat.toDigitsCore radix fuel n cs →
    c ∈ cs ∨ ∃ d, c = Nat.digitChar d
  := by
  induction fuel with
  | zero =>
      intro n cs hc
      exact .inl hc
  | succ fuel ih =>
      intro n cs hc
      rw [Nat.toDigitsCore] at hc
      have hcons (hc : c ∈ Nat.digitChar (n % radix) :: cs) : c ∈ cs ∨ ∃ d, c = Nat.digitChar d := by
        rcases List.mem_cons.mp hc with rfl | hc
        · exact .inr ⟨_, rfl⟩
        · exact .inl hc
      split at hc
      · apply hcons hc
      · rcases ih hc with hc | hc
        · apply hcons hc
        · exact .inr hc

theorem isAddrChar_of_mem_toDigits {radix n : ℕ} {c : Char} (hc : c ∈ Nat.toDigits radix n) :
  IsAddrChar c
  := by
  rcases mem_toDigitsCore _ hc with hc | hc
  · simp at hc
  · exact .inl hc

theorem isAddrChar_of_mem_intercalate {separator c : Char} {items : List (List Char)}
    (hseparator : IsAddrChar separator) (hitems : ∀ item ∈ items, ∀ c ∈ item, IsAddrChar c) :
  c ∈ [separator].intercalate items → IsAddrChar c
  := by
  induction items with
  | nil => simp
  | cons item rest ih =>
      rw [List.forall_mem_cons] at hitems
      obtain ⟨hitem, hrest⟩ := hitems
      cases rest with
      | nil =>
          rw [List.intercalate_singleton]
          apply hitem
      | cons next rest =>
          rw [List.intercalate_cons_cons, List.mem_append, List.mem_append, List.mem_singleton]
          rintro ((hc | rfl) | hc)
          · apply hitem c hc
          · exact hseparator
          · apply ih hrest hc

theorem isAddrChar_of_mem_ipv4Chars {addr : BitVec 32} {c : Char} (hc : c ∈ ipv4Chars addr) :
  IsAddrChar c
  := by
  apply isAddrChar_of_mem_intercalate (.inr (.inl rfl)) _ hc
  intro item hitem c hc
  obtain ⟨start, -, rfl⟩ := List.mem_map.mp hitem
  apply isAddrChar_of_mem_toDigits hc

theorem isAddrChar_of_mem_segmentsChars {chunk : List (BitVec 16)} {c : Char}
    (hc : c ∈ segmentsChars chunk) :
  IsAddrChar c
  := by
  apply isAddrChar_of_mem_intercalate (.inr (.inr rfl)) _ hc
  intro item hitem c hc
  obtain ⟨segment, -, rfl⟩ := List.mem_map.mp hitem
  apply isAddrChar_of_mem_toDigits hc

theorem isAddrChar_of_mem_ipv6Chars {addr : BitVec 128} {c : Char} (hc : c ∈ ipv6Chars addr) :
  IsAddrChar c
  := by
  have hcolon : IsAddrChar ':' := .inr (.inr rfl)
  rw [ipv6Chars] at hc
  split at hc
  · rcases List.mem_append.mp hc with hc | hc
    · have hf : IsAddrChar 'f' := .inl ⟨15, rfl⟩
      have hmapped : ∀ c ∈ "::ffff:".toList, IsAddrChar c := by
        simp [hcolon, hf]
      apply hmapped c hc
    · apply isAddrChar_of_mem_ipv4Chars hc
  · dsimp only at hc
    split at hc
    · rw [List.mem_append, List.mem_append] at hc
      rcases hc with (hc | hc) | hc
      · apply isAddrChar_of_mem_segmentsChars hc
      · obtain rfl : c = ':' := by simpa using hc
        exact hcolon
      · apply isAddrChar_of_mem_segmentsChars hc
    · apply isAddrChar_of_mem_segmentsChars hc

/-- An address has no other characters than digits, dots and colons. -/
theorem isAddrChar_of_mem_toChars {addr : IpAddr} {c : Char} (hc : c ∈ toChars addr) :
  IsAddrChar c
  := by
  cases addr with
  | v4 addr => apply isAddrChar_of_mem_ipv4Chars hc
  | v6 addr => apply isAddrChar_of_mem_ipv6Chars hc

theorem not_isAddrChar_slash :
  ¬ IsAddrChar '/'
  := by
  rintro (⟨d, hd⟩ | hc | hc)
  · simp at hd
  · simp at hc
  · simp at hc

end IpAddr

end VynxDesk
