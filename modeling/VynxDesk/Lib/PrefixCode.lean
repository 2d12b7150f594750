import Mathlib.Data.Set.Function
import Mathlib.Order.Interval.Set.Defs

/-!
# Prefix codes

A code is prefix-free on a set of values when a code word of the set can be split off the front
of any word.  A concatenation of such code words is read off one by one, so it determines the list
of values (`PrefixFreeOn.injOn_flatMap`).  Words of a fixed length are prefix-free, and so is a
word after a prefix-free code of its length.
-/

namespace VynxDesk

variable {α β : Type*} {f : α → List β} {s : Set α}

/-- A code word of `s` can be split off the front of any word. -/
def PrefixFreeOn (f : α → List β) (s : Set α) : Prop :=
  ∀ a ∈ s, ∀ b ∈ s, ∀ x y, f a ++ x = f b ++ y → a = b ∧ x = y

namespace PrefixFreeOn

/-- A code whose words all have the same length is prefix-free where it is injective. -/
theorem of_length (n : Nat) (hlen : ∀ a ∈ s, (f a).length = n) (hinj : Set.InjOn f s) :
  PrefixFreeOn f s
  := by
  intro a ha b hb x y heq
  obtain ⟨hf, hxy⟩ := List.append_inj heq ((hlen a ha).trans (hlen b hb).symm)
  constructor
  · apply hinj ha hb hf
  · apply hxy

/-- A word after a prefix-free code of its length is prefix-free. -/
theorem lengthPrefixed {len : Nat → List β} {n : Nat} (hlen : PrefixFreeOn len (Set.Iio n)) :
  PrefixFreeOn (fun l => len l.length ++ l) { l | l.length < n }
  := by
  intro l hl l' hl' x y heq
  simp only [List.append_assoc] at heq
  obtain ⟨hlength, heq⟩ := hlen _ hl _ hl' _ _ heq
  apply List.append_inj heq hlength

/-- A list of values is determined by the concatenation of its code words. -/
theorem injOn_flatMap (hf : PrefixFreeOn f s) (hne : ∀ a ∈ s, f a ≠ []) :
  Set.InjOn (fun l : List α => l.flatMap f) { l | ∀ a ∈ l, a ∈ s }
  := by
  intro l
  induction l with
  | nil =>
      rintro - (_ | ⟨b, l'⟩) hl' heq
      · rfl
      · have hnil : f b = [] := by
          simp only [List.flatMap_nil, List.flatMap_cons] at heq
          apply (List.append_eq_nil_iff.mp heq.symm).1
        apply absurd hnil
        apply hne
        apply hl' b List.mem_cons_self
  | cons a l ih =>
      rintro hl (_ | ⟨b, l'⟩) hl' heq
      · have hnil : f a = [] := by
          simp only [List.flatMap_nil, List.flatMap_cons] at heq
          apply (List.append_eq_nil_iff.mp heq).1
        apply absurd hnil
        apply hne
        apply hl a List.mem_cons_self
      · simp only [List.flatMap_cons] at heq
        obtain ⟨rfl, htail⟩ := hf a (hl a List.mem_cons_self) b (hl' b List.mem_cons_self) _ _ heq
        congr 1
        apply ih _ _ htail
        · intro c hc
          apply hl c (List.mem_cons_of_mem _ hc)
        · intro c hc
          apply hl' c (List.mem_cons_of_mem _ hc)

end PrefixFreeOn

end VynxDesk
