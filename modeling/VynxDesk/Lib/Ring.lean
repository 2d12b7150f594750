import Mathlib.Data.List.Range
import Mathlib.Data.Nat.ModEq

/-!
# Ring buffers

The cells of a ring buffer are numbered modulo its capacity.  `ring cells capacity head count` is
the list of what it holds: the `count` cells from `head` on, the front first.  Writing the cell
after the last one appends, and moving the head past the front removes it.
-/

namespace VynxDesk

variable {α : Type*} {cells : ℕ → α} {capacity head count : ℕ}

/-- What a ring buffer holds, the front first. -/
def ring (cells : ℕ → α) (capacity head count : ℕ) : List α :=
  (List.range count).map fun i => cells ((head + i) % capacity)

@[simp]
theorem length_ring : (ring cells capacity head count).length = count
  := by
  simp [ring]

/-- Two cells less than a round apart are different cells. -/
theorem add_mod_ne {i j : ℕ} (hij : i < j) (hj : j < capacity) :
  (head + i) % capacity ≠ (head + j) % capacity
  := by
  intro h
  have hmod : i % capacity = j % capacity := Nat.ModEq.add_left_cancel' head h
  rw [Nat.mod_eq_of_lt (hij.trans hj), Nat.mod_eq_of_lt hj] at hmod
  apply Nat.ne_of_lt hij hmod

/-- Writing the cell after the last one appends to a ring buffer that is not full. -/
theorem ring_push (hcount : count < capacity) (a : α) :
  ring (fun i => if i = (head + count) % capacity then a else cells i) capacity head (count + 1) =
    ring cells capacity head count ++ [a]
  := by
  rw [ring, List.range_succ, List.map_append]
  congr 1
  · apply List.map_congr_left
    intro i hi
    rw [if_neg (add_mod_ne (List.mem_range.mp hi) hcount)]
  · simp

/-- The front of a ring buffer, and what it holds once the head has moved past it. -/
theorem ring_pop (hhead : head < capacity) :
  ring cells capacity head (count + 1) =
    cells head :: ring cells capacity ((head + 1) % capacity) count
  := by
  rw [ring, List.range_succ_eq_map, List.map_cons, List.map_map, Nat.add_zero,
    Nat.mod_eq_of_lt hhead]
  congr 1
  apply List.map_congr_left
  intro i _
  rw [Function.comp_apply, Nat.mod_add_mod, Nat.succ_eq_add_one, Nat.add_right_comm]
  rw [← Nat.add_assoc]

end VynxDesk
