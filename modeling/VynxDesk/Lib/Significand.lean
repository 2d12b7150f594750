import Mathlib.Data.Int.Log
import Mathlib.Data.Rat.Floor
import Mathlib.Tactic.Linarith
import Mathlib.Tactic.Positivity
import Mathlib.Tactic.Ring

/-!
# Rounding to a number of significant bits

`roundSig p x` is the number with `p` significant bits that is nearest to `x`, a tie going to the
even significand: what a binary floating-point operation returns in the range of its normal
numbers, when `x` is the exact result.  Here are the facts that an argument about bounds needs:
rounding keeps the order (`roundSig_mono`), and leaves alone what has `p` bits
(`roundSig_of_lt`), in particular what is rounded already (`roundSig_roundSig`) and the natural
numbers up to `2 ^ p` (`roundSig_natCast`).
-/

namespace VynxDesk.Significand

section RoundEven

variable {K : Type*} [Field K] [LinearOrder K] [FloorRing K]

/-- The integer nearest to `x`, the even one of two. -/
def roundEven (x : K) : ℤ :=
  if Int.fract x < 1 / 2 then ⌊x⌋
  else if 1 / 2 < Int.fract x then ⌊x⌋ + 1
  else if ⌊x⌋ % 2 = 0 then ⌊x⌋
  else ⌊x⌋ + 1

theorem floor_le_roundEven (x : K) :
  ⌊x⌋ ≤ roundEven x
  := by
  rw [roundEven]
  split_ifs <;> omega

theorem roundEven_le_floor_add_one (x : K) :
  roundEven x ≤ ⌊x⌋ + 1
  := by
  rw [roundEven]
  split_ifs <;> omega

end RoundEven

variable {K : Type*} [Field K] [LinearOrder K] [IsStrictOrderedRing K] [FloorRing K]

theorem roundEven_intCast (n : ℤ) :
  roundEven (n : K) = n
  := by
  rw [roundEven, if_pos (by simp), Int.floor_intCast]

theorem roundEven_mono {x y : K} (hxy : x ≤ y) :
  roundEven x ≤ roundEven y
  := by
  rcases (Int.floor_le_floor hxy).lt_or_eq with hlt | heq
  · have hx := roundEven_le_floor_add_one x
    have hy := floor_le_roundEven y
    omega
  · -- with one floor the order is that of the fractional parts
    have hfract : Int.fract x ≤ Int.fract y := by
      rw [Int.fract, Int.fract, heq]
      linarith
    rw [roundEven, roundEven, heq]
    split_ifs <;> first | omega | (exfalso; linarith)

/-- The exponent of the last of `p` significant bits of `x`. -/
def lastBit (p : ℕ) (x : K) : ℤ :=
  Int.log 2 x - p + 1

/-- The number with `p` significant bits nearest to `x`. -/
def roundSig (p : ℕ) (x : K) : K :=
  roundEven (x / 2 ^ lastBit p x) * 2 ^ lastBit p x

variable {p : ℕ} {x y : K}

theorem two_zpow_pos (e : ℤ) :
  (0 : K) < 2 ^ e
  := zpow_pos two_pos e

theorem roundSig_nonneg (hx : 0 ≤ x) :
  0 ≤ roundSig p x
  := by
  have hscaled : 0 ≤ roundEven (x / 2 ^ lastBit p x) := by
    rw [← roundEven_intCast (K := K) 0, Int.cast_zero]
    apply roundEven_mono
    apply div_nonneg hx (two_zpow_pos _).le
  rw [roundSig]
  apply mul_nonneg _ (two_zpow_pos _).le
  exact_mod_cast hscaled

/-- Rounding stays between the powers of two around `x`. -/
theorem zpow_log_le_roundSig (hp : 0 < p) (hx : 0 < x) :
  2 ^ Int.log 2 x ≤ roundSig p x
  := by
  have hpow : ((2 ^ (p - 1) : ℤ) : K) * 2 ^ lastBit p x = 2 ^ Int.log 2 x := by
    push_cast
    rw [← zpow_natCast, ← zpow_add₀ two_ne_zero, Nat.cast_sub hp, Nat.cast_one]
    congr 1
    rw [lastBit]
    ring
  rw [roundSig, ← hpow]
  apply mul_le_mul_of_nonneg_right _ (two_zpow_pos _).le
  rw [Int.cast_le, ← roundEven_intCast (K := K) (2 ^ (p - 1))]
  apply roundEven_mono
  rw [le_div_iff₀ (two_zpow_pos _), hpow]
  exact Int.zpow_log_le_self one_lt_two hx

theorem roundSig_le_zpow_log_add_one (x : K) :
  roundSig p x ≤ 2 ^ (Int.log 2 x + 1)
  := by
  have hpow : ((2 ^ p : ℤ) : K) * 2 ^ lastBit p x = 2 ^ (Int.log 2 x + 1) := by
    push_cast
    rw [← zpow_natCast, ← zpow_add₀ two_ne_zero]
    congr 1
    rw [lastBit]
    ring
  rw [roundSig, ← hpow]
  apply mul_le_mul_of_nonneg_right _ (two_zpow_pos _).le
  rw [Int.cast_le, ← roundEven_intCast (K := K) (2 ^ p)]
  apply roundEven_mono
  rw [div_le_iff₀ (two_zpow_pos _), hpow]
  exact (Int.lt_zpow_succ_log_self one_lt_two x).le

theorem roundSig_mono (hp : 0 < p) (hx : 0 ≤ x) (hxy : x ≤ y) :
  roundSig p x ≤ roundSig p y
  := by
  rcases hx.lt_or_eq with hx | rfl
  · rcases (Int.log_mono_right (b := 2) hx hxy).lt_or_eq with hlt | heq
    · -- a power of two lies between the two
      calc
        roundSig p x ≤ 2 ^ (Int.log 2 x + 1) := roundSig_le_zpow_log_add_one x
        _ ≤ 2 ^ Int.log 2 y := zpow_le_zpow_right₀ one_le_two hlt
        _ ≤ roundSig p y := zpow_log_le_roundSig hp (hx.trans_le hxy)
    · have hlast : lastBit p x = lastBit p y := by
        rw [lastBit, lastBit, heq]
      rw [roundSig, roundSig, hlast]
      apply mul_le_mul_of_nonneg_right _ (two_zpow_pos _).le
      rw [Int.cast_le]
      apply roundEven_mono
      apply div_le_div_of_nonneg_right hxy (two_zpow_pos _).le
  · have hzero : roundSig p (0 : K) = 0 := by
      rw [roundSig, zero_div, ← Int.cast_zero, roundEven_intCast, Int.cast_zero, zero_mul]
    rw [hzero]
    exact roundSig_nonneg hxy

/-- A number with `p` bits is not rounded. -/
theorem roundSig_of_lt {n : ℕ} {e : ℤ} (hn : n < 2 ^ p) (hx : x = n * 2 ^ e) :
  roundSig p x = x
  := by
  have hfix : ∀ m : ℤ, x = m * 2 ^ lastBit p x → roundSig p x = x := by
    intro m hm
    have hscaled : x / 2 ^ lastBit p x = m := by
      rw [div_eq_iff (two_zpow_pos _).ne']
      exact hm
    rw [roundSig, hscaled, roundEven_intCast]
    exact hm.symm
  rcases Nat.eq_zero_or_pos n with rfl | hpos
  · apply hfix 0
    rw [hx]
    simp
  · -- the last bit is at most that of `e`
    have hx0 : 0 < x := by
      rw [hx]
      apply mul_pos _ (two_zpow_pos _)
      exact_mod_cast hpos
    have hlast : lastBit p x ≤ e := by
      have hlog : Int.log 2 x < p + e := by
        rw [← Int.lt_zpow_iff_log_lt one_lt_two hx0, hx, Nat.cast_ofNat, zpow_add₀ two_ne_zero,
          zpow_natCast]
        apply mul_lt_mul_of_pos_right _ (two_zpow_pos _)
        exact_mod_cast hn
      rw [lastBit]
      omega
    obtain ⟨k, hk⟩ := Int.eq_ofNat_of_zero_le (sub_nonneg.mpr hlast)
    have hsplit : (2 : K) ^ e = 2 ^ k * 2 ^ lastBit p x := by
      rw [← zpow_natCast, ← zpow_add₀ two_ne_zero, ← hk, sub_add_cancel]
    apply hfix (n * 2 ^ k)
    push_cast
    rw [mul_assoc, ← hsplit]
    exact hx

/-- The power of two behind the `p`-bit integers has one bit only. -/
theorem roundSig_of_le {n : ℕ} {e : ℤ} (hp : 0 < p) (hn : n ≤ 2 ^ p) (hx : x = n * 2 ^ e) :
  roundSig p x = x
  := by
  rcases hn.lt_or_eq with hlt | rfl
  · exact roundSig_of_lt hlt hx
  · apply roundSig_of_lt (n := 1) (e := p + e) (Nat.one_lt_two_pow hp.ne')
    rw [hx, zpow_add₀ two_ne_zero, zpow_natCast]
    push_cast
    ring

theorem roundSig_natCast {n : ℕ} (hp : 0 < p) (hn : n ≤ 2 ^ p) :
  roundSig p (n : K) = n
  := by
  apply roundSig_of_le (e := 0) hp hn
  simp

/-- What is rounded stays as it is. -/
theorem roundSig_roundSig (hp : 0 < p) (hx : 0 ≤ x) :
  roundSig p (roundSig p x) = roundSig p x
  := by
  have hscaled : 0 ≤ x / 2 ^ lastBit p x := div_nonneg hx (two_zpow_pos _).le
  have hlow : 0 ≤ roundEven (x / 2 ^ lastBit p x) := by
    rw [← roundEven_intCast (K := K) 0, Int.cast_zero]
    exact roundEven_mono hscaled
  have hhigh : roundEven (x / 2 ^ lastBit p x) ≤ 2 ^ p := by
    rw [← roundEven_intCast (K := K) (2 ^ p)]
    apply roundEven_mono
    rw [div_le_iff₀ (two_zpow_pos _)]
    push_cast
    rw [← zpow_natCast, ← zpow_add₀ two_ne_zero, lastBit, ← add_assoc, add_sub_cancel]
    exact (Int.lt_zpow_succ_log_self one_lt_two x).le
  obtain ⟨n, hn⟩ := Int.eq_ofNat_of_zero_le hlow
  apply roundSig_of_le (n := n) (e := lastBit p x) hp
  · rw [hn] at hhigh
    exact_mod_cast hhigh
  · rw [roundSig, hn]
    push_cast
    rfl

end VynxDesk.Significand
