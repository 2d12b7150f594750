import Mathlib.Data.Nat.ModEq
import Mathlib.Data.Set.Function
import Mathlib.Tactic.Ring

/-!
# Little-endian numbers

The bytes of a number, the least significant first, and the number of a list of bytes.
-/

namespace VynxDesk

/-- The `n` lowest bytes of `x`. -/
def leBytes : ℕ → ℕ → List UInt8
  | 0, _ => []
  | n + 1, x => UInt8.ofNat x :: leBytes n (x / 256)

/-- The number that bytes make. -/
def leNat : List UInt8 → ℕ
  | [] => 0
  | b :: bs => b.toNat + 256 * leNat bs

@[simp]
theorem length_leBytes (n x : ℕ) :
  (leBytes n x).length = n
  := by
  induction n generalizing x with
  | zero => rfl
  | succ n ih =>
      rw [leBytes, List.length_cons, ih]

/-- The number of the lowest bytes of a number is what is left of it. -/
theorem leNat_leBytes (n x : ℕ) :
  leNat (leBytes n x) = x % 256 ^ n
  := by
  induction n generalizing x with
  | zero =>
      rw [Nat.pow_zero, Nat.mod_one]
      rfl
  | succ n ih =>
      have hbyte : (UInt8.ofNat x).toNat = x % 256 := UInt8.toNat_ofNat
      rw [leBytes, leNat, ih, hbyte, Nat.pow_succ', Nat.mod_mul]

theorem leNat_leBytes_of_lt {n x : ℕ} (h : x < 256 ^ n) :
  leNat (leBytes n x) = x
  := by
  rw [leNat_leBytes, Nat.mod_eq_of_lt h]

/-- The bytes of a number that fits determine it. -/
theorem injOn_leBytes (n : ℕ) :
  Set.InjOn (leBytes n) (Set.Iio (256 ^ n))
  := by
  intro x hx y hy heq
  rw [← leNat_leBytes_of_lt hx, heq, leNat_leBytes_of_lt hy]

theorem leNat_lt (bytes : List UInt8) :
  leNat bytes < 256 ^ bytes.length
  := by
  induction bytes with
  | nil => simp [leNat]
  | cons b bs ih =>
      have hb : b.toNat < 256 := b.toNat_lt
      rw [leNat, List.length_cons, Nat.pow_succ']
      omega

/-- The bytes of the number that bytes make are these bytes. -/
theorem leBytes_leNat (bytes : List UInt8) :
  leBytes bytes.length (leNat bytes) = bytes
  := by
  induction bytes with
  | nil => rfl
  | cons b bs ih =>
      have hb : b.toNat < 256 := b.toNat_lt
      have hrest : (b.toNat + 256 * leNat bs) / 256 = leNat bs := by
        omega
      have hbyte : UInt8.ofNat (b.toNat + 256 * leNat bs) = b := by
        apply UInt8.toNat_inj.mp
        rw [UInt8.toNat_ofNat']
        omega
      rw [leNat, List.length_cons, leBytes, hrest, hbyte, ih]

/-- Reads a number of `n` bytes. -/
def getLe (n : ℕ) (bytes : List UInt8) : ℕ × List UInt8 := (leNat (bytes.take n), bytes.drop n)

/-- A number is read where it was put. -/
theorem getLe_append (n x : ℕ) (rest : List UInt8) :
  getLe n (leBytes n x ++ rest) = (x % 256 ^ n, rest)
  := by
  rw [getLe]
  rw [List.take_left' (length_leBytes n x), List.drop_left' (length_leBytes n x), leNat_leBytes]

end VynxDesk
