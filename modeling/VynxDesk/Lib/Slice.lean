import Mathlib.Data.List.Basic
import VynxDesk.Lib.LittleEndian

/-!
# Slices of bytes and the numbers in them

A slice of bytes in a memory whose addresses have `w` bits: an index is a number below `2 ^ w`, the
addition of indices wraps around, and no slice takes more than half of the memory.  A range
`base..base + n` is in the slice only if the addition does not wrap, so that a reader which checks
its ranges sees the bytes left to read (`Slice.Left`) and nothing else. Big-endian numbers are
little-endian ones read backwards.
-/

namespace VynxDesk

/-- The `n` lowest bytes of `x`, the most significant first. -/
def beBytes (n x : ℕ) : List UInt8 := (leBytes n x).reverse

/-- The number that bytes make, the most significant first. -/
def beNat (bytes : List UInt8) : ℕ := leNat bytes.reverse

@[simp]
theorem length_beBytes (n x : ℕ) :
  (beBytes n x).length = n
  := by
  rw [beBytes, List.length_reverse, length_leBytes]

theorem beNat_beBytes_of_lt {n x : ℕ} (h : x < 256 ^ n) :
  beNat (beBytes n x) = x
  := by
  rw [beNat, beBytes, List.reverse_reverse, leNat_leBytes_of_lt h]

theorem beNat_lt (bytes : List UInt8) :
  beNat bytes < 256 ^ bytes.length
  := by
  rw [beNat, ← List.length_reverse]
  apply leNat_lt

/-- The bytes of the number that bytes make are these bytes. -/
theorem beBytes_beNat {n : ℕ} {bytes : List UInt8} (h : bytes.length = n) :
  beBytes n (beNat bytes) = bytes
  := by
  rw [beBytes, beNat, ← h, ← List.length_reverse, leBytes_leNat, List.reverse_reverse]

/-- A slice of bytes where addresses have `w` bits. -/
structure Slice (w : ℕ) where
  bytes : List UInt8
  wide : 32 ≤ w
  fits : bytes.length < 2 ^ (w - 1)

namespace Slice

variable {w : ℕ}

/-- The addition of two indices. -/
def add (_blob : Slice w) (a b : ℕ) : ℕ := (a + b) % 2 ^ w

/-- The bytes from `a` to `b`, if that is a range of the slice. -/
def get (blob : Slice w) (a b : ℕ) : Option (List UInt8) :=
  if a ≤ b ∧ b ≤ blob.bytes.length then some ((blob.bytes.take b).drop a) else none

/-- The bytes from `a` on, if `a` is an index of the slice or its end. -/
def getFrom (blob : Slice w) (a : ℕ) : Option (List UInt8) := blob.get a blob.bytes.length

/-- At the index `base` of the slice the bytes `rest` are left. -/
def Left (blob : Slice w) (base : ℕ) (rest : List UInt8) : Prop :=
  base ≤ blob.bytes.length ∧ blob.bytes.drop base = rest

theorem left_zero (blob : Slice w) :
  blob.Left 0 blob.bytes
  := by
  apply And.intro (Nat.zero_le _)
  apply List.drop_zero

theorem Left.length {blob : Slice w} {base : ℕ} {rest : List UInt8} (h : blob.Left base rest) :
  base + rest.length = blob.bytes.length
  := by
  obtain ⟨hbase, rfl⟩ := h
  rw [List.length_drop]
  omega

/-- An addition that stays in the slice does not wrap. -/
theorem add_of_le (blob : Slice w) {base n : ℕ} (h : base + n ≤ blob.bytes.length) :
  blob.add base n = base + n
  := by
  have hhalf : 2 ^ (w - 1) ≤ 2 ^ w := Nat.pow_le_pow_right (by omega) (by omega)
  have hfits := blob.fits
  apply Nat.mod_eq_of_lt
  omega

/-- A sum that is not below its first term did not wrap. -/
theorem add_of_le_add (blob : Slice w) {base n : ℕ} (hn : n < 2 ^ 32)
    (h : base ≤ blob.add base n) (hle : blob.add base n ≤ blob.bytes.length) :
  blob.add base n = base + n
  := by
  have hhalf : 2 ^ (w - 1) ≤ 2 ^ w := Nat.pow_le_pow_right (by omega) (by omega)
  have hwide : 2 ^ 32 ≤ 2 ^ w := Nat.pow_le_pow_right (by omega) blob.wide
  have hfits := blob.fits
  rcases Nat.lt_or_ge (base + n) (2 ^ w) with hlt | hge
  · apply Nat.mod_eq_of_lt hlt
  · have hwrap : blob.add base n = base + n - 2 ^ w := by
      rw [add, Nat.mod_eq_sub_mod hge, Nat.mod_eq_of_lt (by omega)]
    omega

/-- The next bytes are read, and the others are left. -/
theorem Left.get {blob : Slice w} {base n : ℕ} {x rest : List UInt8}
    (h : blob.Left base (x ++ rest)) (hlen : x.length = n) :
  blob.get base (blob.add base n) = some x ∧ blob.Left (blob.add base n) rest
  := by
  have hle := h.length
  rw [List.length_append, hlen] at hle
  rw [blob.add_of_le (by omega)]
  constructor
  · rw [Slice.get, if_pos (by omega), List.drop_take, Nat.add_sub_cancel_left, h.2,
      List.take_left' hlen]
  · constructor
    · omega
    · rw [← List.drop_drop, h.2, List.drop_left' hlen]

/-- What is read is what comes next. -/
theorem left_of_get {blob : Slice w} {base n : ℕ} {x : List UInt8} (hn : n < 2 ^ 32)
    (h : blob.get base (blob.add base n) = some x) :
  x.length = n ∧ ∃ rest, blob.Left base (x ++ rest) ∧ blob.Left (blob.add base n) rest
  := by
  rw [Slice.get] at h
  split at h
  next hrange =>
      obtain rfl := Option.some.inj h
      have hadd := blob.add_of_le_add hn hrange.1 hrange.2
      rw [hadd] at hrange ⊢
      constructor
      · rw [List.length_drop, List.length_take]
        omega
      · use blob.bytes.drop (base + n)
        constructor
        · constructor
          · omega
          · rw [List.drop_take, Nat.add_sub_cancel_left, ← List.drop_drop, List.take_append_drop]
        · apply And.intro hrange.2 rfl
  next => simp at h

theorem Left.getFrom {blob : Slice w} {base : ℕ} {rest : List UInt8} (h : blob.Left base rest) :
  blob.getFrom base = some rest
  := by
  rw [Slice.getFrom, Slice.get, if_pos ⟨h.1, le_rfl⟩, List.take_length, h.2]

end Slice

end VynxDesk
