import Mathlib.Data.List.GetD
import Mathlib.Logic.Function.Iterate
import Mathlib.Tactic.SplitIfs

/-!
# Cyclic redundancy checks

The remainder register of a cyclic redundancy check of width `w`, fed bit by bit with the most
significant bit first.  A shift is linear in exclusive or, and injective when the polynomial has a
constant term; so two messages that differ in at most `w` consecutive bits only leave different
remainders (`remainder_ne`).
-/

namespace VynxDesk.Crc

variable {w : ℕ} {poly : BitVec w}

/-- The shift of a bit out of the remainder. -/
def shift (poly r : BitVec w) : BitVec w := if r.msb then (r <<< 1) ^^^ poly else r <<< 1

/-- A bit in the place of the most significant one. -/
def topBit (b : Bool) : BitVec w := if b then BitVec.twoPow w (w - 1) else 0

/-- The remainder after one more bit. -/
def feed (poly r : BitVec w) (b : Bool) : BitVec w := shift poly (r ^^^ topBit b)

/-- The remainder after a message. -/
def remainder (poly r : BitVec w) (bits : List Bool) : BitVec w := bits.foldl (feed poly) r

/-- The word whose bits begin with the given ones. -/
def word : List Bool → BitVec w
  | [] => 0
  | b :: bits => topBit b ^^^ (word bits >>> 1)

/-- The bits of a word. -/
def bits {n : ℕ} (x : BitVec n) : List Bool := (List.range n).map x.getMsbD

theorem remainder_append (r : BitVec w) (m m' : List Bool) :
  remainder poly r (m ++ m') = remainder poly (remainder poly r m) m'
  := List.foldl_append

/-- A shift is linear. -/
theorem shift_xor (a b : BitVec w) :
  shift poly (a ^^^ b) = shift poly a ^^^ shift poly b
  := by
  have hcancel (x y : BitVec w) : x ^^^ poly ^^^ (y ^^^ poly) = x ^^^ y := by
    rw [BitVec.xor_comm y, BitVec.xor_assoc, ← BitVec.xor_assoc poly, BitVec.xor_self,
      BitVec.zero_xor]
  unfold shift
  rw [BitVec.msb_xor, BitVec.shiftLeft_xor_distrib]
  cases a.msb <;> cases b.msb <;> simp only [Bool.xor_false, Bool.xor_true, Bool.not_false,
    Bool.not_true, if_true, if_false, Bool.false_eq_true]
  · rw [BitVec.xor_assoc]
  · rw [BitVec.xor_assoc, BitVec.xor_assoc, BitVec.xor_comm poly]
  · rw [hcancel]

/-- A shift loses nothing when the polynomial has a constant term. -/
theorem shift_injective (hpoly : poly.getLsbD 0 = true) :
  Function.Injective (shift poly)
  := by
  have hzero (r : BitVec w) (hr : shift poly r = 0#w) : r = 0#w := by
    rw [shift] at hr
    split_ifs at hr with htop
    · rw [BitVec.xor_eq_zero_iff] at hr
      rw [← hr, BitVec.getLsbD_shiftLeft] at hpoly
      simp at hpoly
    · apply BitVec.eq_of_getLsbD_eq
      intro i hi
      rw [BitVec.getLsbD_zero]
      by_cases hlast : i + 1 < w
      · have hbit : (r <<< 1).getLsbD (i + 1) = false := by
          rw [hr, BitVec.getLsbD_zero]
        rw [BitVec.getLsbD_shiftLeft] at hbit
        simpa [hlast] using hbit
      · have hi' : i = w - 1 := by omega
        rw [BitVec.msb_eq_getLsbD_last, Bool.not_eq_true] at htop
        rw [hi', htop]
  intro a b h
  apply BitVec.xor_eq_zero_iff.mp
  apply hzero
  rw [shift_xor, h, BitVec.xor_self]

/-- The bits of a word are the given ones, from the most significant one on. -/
theorem getLsbD_word (m : List Bool) {i : ℕ} (hi : i < w) :
  (word m : BitVec w).getLsbD i = m.getD (w - 1 - i) false
  := by
  induction m generalizing i with
  | nil => simp [word]
  | cons b m ih =>
      rw [word, BitVec.getLsbD_xor, BitVec.getLsbD_ushiftRight]
      by_cases hlast : i + 1 < w
      · have htop : (topBit b : BitVec w).getLsbD i = false := by
          rw [topBit]
          cases b
          · simp
          · rw [if_pos rfl, BitVec.getLsbD_twoPow]
            simp
            omega
        have hindex : w - 1 - i = w - 1 - (1 + i) + 1 := by omega
        rw [htop, ih (by omega), hindex, List.getD_cons_succ, Bool.false_xor]
      · have htop : (topBit b : BitVec w).getLsbD i = b := by
          rw [topBit]
          cases b
          · simp
          · rw [if_pos rfl, BitVec.getLsbD_twoPow]
            simp
            omega
        have hindex : w - 1 - i = 0 := by omega
        rw [htop, hindex, List.getD_cons_zero, BitVec.getLsbD_of_ge _ _ (by omega),
          Bool.xor_false]

/-- Words of messages of one length, which fit, are equal for equal messages only. -/
theorem word_injective {m m' : List Bool} (hlen : m.length = m'.length) (hfits : m.length ≤ w)
    (h : (word m : BitVec w) = word m') :
  m = m'
  := by
  apply List.ext_getElem hlen
  intro i hi hi'
  have hbit : (word m : BitVec w).getLsbD (w - 1 - i) = (word m' : BitVec w).getLsbD (w - 1 - i) := by
    rw [h]
  have hindex : w - 1 - (w - 1 - i) = i := by omega
  rw [getLsbD_word m (by omega), getLsbD_word m' (by omega), hindex] at hbit
  simpa [List.getD_eq_getElem, hi, hi'] using hbit

/-- The word of the bits of a word has them in its highest places. -/
theorem word_bits {n : ℕ} (x : BitVec n) (hn : n ≤ w) :
  (word (bits x) : BitVec w) = x.setWidth w <<< (w - n)
  := by
  apply BitVec.eq_of_getLsbD_eq
  intro i hi
  rw [getLsbD_word _ hi, BitVec.getLsbD_shiftLeft, BitVec.getLsbD_setWidth]
  rw [bits]
  by_cases hlow : i < w - n
  · rw [List.getD_eq_default _ _ (by simp; omega)]
    simp [hlow]
  · rw [List.getD_eq_getElem _ _ (by simp; omega)]
    have hplace : w - 1 - i < n := by omega
    have hindex : n - 1 - (w - 1 - i) = i - (w - n) := by omega
    simp [hlow, BitVec.getMsbD_eq_getLsbD, hplace, hindex, hi]
    intro
    omega

/-- The shift of a word whose first bit is out of the way. -/
theorem shift_word_ushiftRight {m : List Bool} (hfits : m.length + 1 ≤ w) :
  shift poly (word m >>> 1) = word m
  := by
  have htop : ¬ (word m >>> 1 : BitVec w).msb = true := by
    rw [BitVec.msb_eq_getLsbD_last, BitVec.getLsbD_ushiftRight, BitVec.getLsbD_of_ge _ _ (by omega)]
    exact Bool.false_ne_true
  rw [shift]
  rw [if_neg htop]
  apply BitVec.eq_of_getLsbD_eq
  intro i hi
  rw [BitVec.getLsbD_shiftLeft, BitVec.getLsbD_ushiftRight]
  cases i with
  | zero =>
      rw [getLsbD_word m hi, List.getD_eq_default _ _ (by omega)]
      simp
  | succ i =>
      have hindex : 1 + (i + 1 - 1) = i + 1 := by omega
      rw [hindex]
      simp [hi]

/-- The remainder after a message that fits in the register: the message is added at the top, and
shifted out. -/
theorem remainder_eq (r : BitVec w) {m : List Bool} (hfits : m.length ≤ w) :
  remainder poly r m = (shift poly)^[m.length] (r ^^^ word m)
  := by
  induction m generalizing r with
  | nil => simp [remainder, word]
  | cons b m ih =>
      rw [List.length_cons] at hfits
      change remainder poly (feed poly r b) m = _
      rw [ih _ (by omega), List.length_cons, Function.iterate_succ_apply, word, ← BitVec.xor_assoc,
        shift_xor, shift_word_ushiftRight hfits]
      rfl

/-- Messages of one length that fit in the register leave different remainders. -/
theorem remainder_word_ne (hpoly : poly.getLsbD 0 = true) (r : BitVec w) {m m' : List Bool}
    (hlen : m.length = m'.length) (hfits : m.length ≤ w) (hne : m ≠ m') :
  remainder poly r m ≠ remainder poly r m'
  := by
  rw [remainder_eq r hfits, remainder_eq r (hlen ▸ hfits), ← hlen]
  intro h
  have hword := (shift_injective hpoly).iterate m.length h
  rw [BitVec.xor_right_inj] at hword
  exact hne (word_injective hlen hfits hword)

/-- Different remainders stay different. -/
theorem remainder_injective (hpoly : poly.getLsbD 0 = true) (m : List Bool) :
  Function.Injective fun r : BitVec w => remainder poly r m
  := by
  induction m with
  | nil => exact Function.injective_id
  | cons b m ih =>
      intro r r' h
      have hshift := shift_injective hpoly (ih h)
      exact (BitVec.xor_left_inj _).mp hshift

/-- Two messages that differ, but in `w` consecutive bits only, leave different remainders. -/
theorem remainder_ne (hpoly : poly.getLsbD 0 = true) (r : BitVec w) {n first : ℕ} {f g : ℕ → Bool}
    (hne : ∃ i < n, f i ≠ g i) (hburst : ∀ i < n, f i ≠ g i → first ≤ i ∧ i < first + w) :
  remainder poly r ((List.range n).map f) ≠ remainder poly r ((List.range n).map g)
  := by
  have hsplit (f : ℕ → Bool) : (List.range n).map f
      = ((List.range n).map f).take first ++ ((((List.range n).map f).drop first).take w
        ++ (((List.range n).map f).drop first).drop w) := by
    rw [List.take_append_drop, List.take_append_drop]
  have hbefore : ((List.range n).map f).take first = ((List.range n).map g).take first := by
    apply List.ext_getElem
    · simp
    · intro i hi hi'
      simp at hi ⊢
      by_contra hdiff
      have := hburst i (by omega) hdiff
      omega
  have hafter : (((List.range n).map f).drop first).drop w
      = (((List.range n).map g).drop first).drop w := by
    apply List.ext_getElem
    · simp
    · intro i hi hi'
      simp at hi ⊢
      by_contra hdiff
      have := hburst _ (by omega) hdiff
      omega
  have hmiddle : (((List.range n).map f).drop first).take w
      ≠ (((List.range n).map g).drop first).take w := by
    intro hsame
    obtain ⟨i, hi, hdiff⟩ := hne
    have hall : (List.range n).map f = (List.range n).map g := by
      rw [hsplit f, hsplit g, hbefore, hsame, hafter]
    apply hdiff
    rw [List.map_inj_left] at hall
    exact hall i (List.mem_range.mpr hi)
  rw [hsplit f, hsplit g, hbefore, hafter, remainder_append, remainder_append, remainder_append,
    remainder_append]
  intro h
  apply remainder_word_ne hpoly _ _ _ hmiddle (remainder_injective hpoly _ h)
  · simp
  · rw [List.length_take]
    apply Nat.min_le_left

end VynxDesk.Crc
