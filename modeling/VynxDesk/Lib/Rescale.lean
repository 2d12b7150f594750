import Mathlib.Algebra.Order.Group.Unbundled.Int

/-!
# Rescaling of a range of integers

`rescale n m` takes the numbers from `0` to `n - 1` to those from `0` to `m - 1`: the first goes to
the first and the last to the last, and in between the image is proportional, rounded down.
-/

namespace VynxDesk

/-- The place of `k` in a range of `m` numbers, when it stands in one of `n`. -/
def rescale (n m k : ℤ) : ℤ := k * (m - 1) / (n - 1)

variable {n m k : ℤ}

@[simp]
theorem rescale_zero (n m : ℤ) : rescale n m 0 = 0
  := by
  simp [rescale]

@[simp]
theorem rescale_last (hn : 1 < n) (m : ℤ) : rescale n m (n - 1) = m - 1
  := by
  have hne : n - 1 ≠ 0 := by omega
  exact Int.mul_ediv_cancel_left (m - 1) hne

@[simp]
theorem rescale_self (hn : 1 < n) (k : ℤ) : rescale n n k = k
  := by
  have hne : n - 1 ≠ 0 := by omega
  exact Int.mul_ediv_cancel k hne

/-- What stands earlier goes to what stands earlier. -/
theorem rescale_mono (hn : 1 < n) (hm : 1 ≤ m) {k k' : ℤ} (hk : k ≤ k') :
  rescale n m k ≤ rescale n m k'
  := by
  have hpos : 0 < n - 1 := by omega
  apply Int.ediv_le_ediv hpos
  exact Int.mul_le_mul_of_nonneg_right hk (by omega)

theorem rescale_nonneg (hn : 1 < n) (hm : 1 ≤ m) (hk : 0 ≤ k) : 0 ≤ rescale n m k
  := by
  have h := rescale_mono hn hm hk
  rwa [rescale_zero] at h

theorem rescale_lt (hn : 1 < n) (hm : 1 ≤ m) (hk : k < n) : rescale n m k < m
  := by
  have hlast : rescale n m k ≤ rescale n m (n - 1) := rescale_mono hn hm (by omega)
  rw [rescale_last hn] at hlast
  omega

end VynxDesk
