import Mathlib.Data.Fin.Basic
import Mathlib.Data.UInt

/-!
# Bytes as sets of flags

A byte holds eight flags: `Flags.mask i` is the byte with flag `i` alone, and `Flags.has m i` says
that `m` has flag `i`, as programs test it.  Setting and clearing a flag are `m ||| mask i` and
`m &&& ~~~mask i`; a byte is determined by its flags.
-/

namespace VynxDesk.Flags

/-- The byte with one flag. -/
def mask (i : Fin 8) : UInt8 := 1 <<< UInt8.ofNat i

/-- Whether a byte has a flag. -/
def has (m : UInt8) (i : Fin 8) : Bool := m &&& mask i ≠ 0

theorem toBitVec_mask (i : Fin 8) :
  (mask i).toBitVec = BitVec.twoPow 8 i
  := by
  revert i
  decide

theorem twoPow_ne_zero (i : Fin 8) :
  BitVec.twoPow 8 i ≠ 0#8
  := by
  revert i
  decide

/-- The flag is the bit. -/
theorem has_eq (m : UInt8) (i : Fin 8) :
  has m i = m.toBitVec.getLsbD i
  := by
  have hand : (m &&& mask i).toBitVec =
      if m.toBitVec.getLsbD i then BitVec.twoPow 8 i else 0#8 := by
    rw [UInt8.toBitVec_and, toBitVec_mask, BitVec.and_twoPow]
  simp only [has, ne_eq, ← UInt8.toBitVec_inj, hand]
  cases m.toBitVec.getLsbD i
  · simp
  · simpa using twoPow_ne_zero i

@[simp]
theorem has_zero (i : Fin 8) :
  has 0 i = false
  := by
  simp [has_eq]

theorem has_mask (i j : Fin 8) :
  has (mask i) j = decide (i = j)
  := by
  revert i j
  decide

@[simp]
theorem has_or (m n : UInt8) (i : Fin 8) :
  has (m ||| n) i = (has m i || has n i)
  := by
  simp [has_eq]

@[simp]
theorem has_and (m n : UInt8) (i : Fin 8) :
  has (m &&& n) i = (has m i && has n i)
  := by
  simp [has_eq]

@[simp]
theorem has_not (m : UInt8) (i : Fin 8) :
  has (~~~m) i = !has m i
  := by
  simp [has_eq]

/-- A byte is determined by its flags. -/
theorem ext {m n : UInt8} (h : ∀ i, has m i = has n i) :
  m = n
  := by
  rw [← UInt8.toBitVec_inj]
  apply BitVec.eq_of_getLsbD_eq
  intro i hi
  simpa [has_eq] using h ⟨i, hi⟩

/-- The empty byte has no flag. -/
theorem eq_zero_iff {m : UInt8} :
  m = 0 ↔ ∀ i, has m i = false
  := by
  constructor
  · rintro rfl
    exact has_zero
  · intro h
    apply ext
    simpa using h

end VynxDesk.Flags
