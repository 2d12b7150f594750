/-!
# Extremal elements of lists

The first element of a list in an order, found by a fold that keeps one of two elements at a time:
with `≤` and `min` it is the least element, with `≥` and `max` the greatest.
-/

namespace VynxDesk

variable {α : Type u} {r : α → α → Prop} {choose : α → α → α} {xs : List α}

/-- An element of a list that stands before all of them. -/
structure Extremum (r : α → α → Prop) (xs : List α) (a : α) : Prop where
  mem : a ∈ xs
  first : ∀ x ∈ xs, r a x

/-- A choice of the earlier one of two elements of an order. -/
structure Chooses (r : α → α → Prop) (choose : α → α → α) : Prop where
  refl : ∀ a, r a a
  trans : ∀ {a b c}, r a b → r b c → r a c
  antisymm : ∀ {a b}, r a b → r b a → a = b
  either : ∀ a b, choose a b = a ∧ r a b ∨ choose a b = b ∧ r b a

/-- A list has one such element. -/
theorem Chooses.extremum_eq (h : Chooses r choose) {a b : α} (ha : Extremum r xs a)
    (hb : Extremum r xs b) :
  a = b
  := h.antisymm (ha.first b hb.mem) (hb.first a ha.mem)

theorem Chooses.left (h : Chooses r choose) (a b : α) : r (choose a b) a
  := by
  rcases h.either a b with ⟨ha, -⟩ | ⟨hb, hle⟩
  · rw [ha]
    exact h.refl a
  · rwa [hb]

theorem Chooses.right (h : Chooses r choose) (a b : α) : r (choose a b) b
  := by
  rcases h.either a b with ⟨ha, hle⟩ | ⟨hb, -⟩
  · rwa [ha]
  · rw [hb]
    exact h.refl b

theorem Chooses.foldl (h : Chooses r choose) (a : α) (xs : List α) :
  Extremum r (a :: xs) (xs.foldl choose a)
  := by
  induction xs generalizing a with
  | nil =>
      refine ⟨List.mem_singleton_self a, ?_⟩
      intro x hx
      rw [List.mem_singleton.mp hx]
      exact h.refl a
  | cons y ys ih =>
      obtain ⟨hmem, hfirst⟩ := ih (choose a y)
      rw [List.foldl_cons]
      have hchosen := hfirst _ List.mem_cons_self
      constructor
      · rcases List.mem_cons.mp hmem with heq | hys
        · rw [heq]
          rcases h.either a y with ⟨ha, -⟩ | ⟨hy, -⟩
          · rw [ha]
            exact List.mem_cons_self
          · rw [hy]
            exact List.mem_cons_of_mem _ List.mem_cons_self
        · exact List.mem_cons_of_mem _ (List.mem_cons_of_mem _ hys)
      · intro x hx
        rcases List.mem_cons.mp hx with rfl | hx
        · exact h.trans hchosen (h.left x y)
        · rcases List.mem_cons.mp hx with rfl | hx
          · exact h.trans hchosen (h.right a x)
          · exact hfirst x (List.mem_cons_of_mem _ hx)

/-- The fold may begin with an element that stands after all others. -/
theorem Chooses.foldl_last (h : Chooses r choose) {last : α} (hlast : ∀ a, r a last)
    (hne : xs ≠ []) :
  Extremum r xs (xs.foldl choose last)
  := by
  obtain ⟨hmem, hfirst⟩ := h.foldl last xs
  refine ⟨?_, fun x hx => hfirst x (List.mem_cons_of_mem _ hx)⟩
  rcases List.mem_cons.mp hmem with heq | hxs
  · obtain ⟨x, hx⟩ := List.exists_mem_of_ne_nil xs hne
    have hx' := hfirst x (List.mem_cons_of_mem _ hx)
    rw [heq] at hx' ⊢
    rwa [h.antisymm hx' (hlast x)]
  · exact hxs

end VynxDesk
