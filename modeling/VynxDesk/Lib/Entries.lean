import Mathlib.Data.List.Nodup
import Mathlib.Data.List.Perm.Basic

/-!
# Maps as lists of entries

A hash map is the list of its entries, with different keys, in the order in which an iteration
finds them.  The lemmas say which entries there are after a change (`mem_modify`, `mem_insert`,
`mem_remove`), that the keys stay different, and that a lookup finds the entry there is
(`lookup_eq_some`), in whatever order the entries are (`Keyed.perm`).
-/

namespace VynxDesk.Entries

variable {κ ν : Type*} {k : κ} {v : ν} {entries entries' : List (κ × ν)}

/-- The keys of the entries are different. -/
def Keyed (entries : List (κ × ν)) : Prop :=
  (entries.map Prod.fst).Nodup

theorem Keyed.perm (h : Keyed entries) (hperm : entries'.Perm entries) :
  Keyed entries'
  := by
  apply (List.Perm.nodup_iff (hperm.map Prod.fst)).mpr h

/-- There is one entry with a key. -/
theorem Keyed.eq_of_mem (h : Keyed entries) {v' : ν} (hv : (k, v) ∈ entries)
    (hv' : (k, v') ∈ entries) :
  v = v'
  := by
  have heq := List.inj_on_of_nodup_map h hv hv' rfl
  exact (Prod.mk.inj heq).2

section Changes

variable [DecidableEq κ]

/-- The value at a key is changed by `f`, if there is one. -/
def modify (k : κ) (f : ν → ν) (entries : List (κ × ν)) : List (κ × ν) :=
  entries.map fun e => if e.1 = k then (e.1, f e.2) else e

/-- The entry at a key is removed, if there is one. -/
def remove (k : κ) (entries : List (κ × ν)) : List (κ × ν) :=
  entries.filter fun e => e.1 ≠ k

/-- An entry takes the place of the one with its key. -/
def insert (k : κ) (v : ν) (entries : List (κ × ν)) : List (κ × ν) :=
  (k, v) :: remove k entries

theorem map_fst_modify (k : κ) (f : ν → ν) (entries : List (κ × ν)) :
  (modify k f entries).map Prod.fst = entries.map Prod.fst
  := by
  rw [modify, List.map_map]
  apply List.map_congr_left
  intro e _
  rw [Function.comp_apply]
  split_ifs <;> rfl

theorem mem_modify {f : ν → ν} {e : κ × ν} :
  e ∈ modify k f entries ↔
    (e ∈ entries ∧ e.1 ≠ k) ∨ ∃ v, (k, v) ∈ entries ∧ e = (k, f v)
  := by
  rw [modify, List.mem_map]
  constructor
  · rintro ⟨e', he', rfl⟩
    split_ifs with hk
    · right
      subst hk
      exact ⟨e'.2, he', rfl⟩
    · exact .inl ⟨he', hk⟩
  · rintro (⟨he, hk⟩ | ⟨v, hv, rfl⟩)
    · exact ⟨e, he, if_neg hk⟩
    · exact ⟨(k, v), hv, if_pos rfl⟩

theorem mem_remove {e : κ × ν} :
  e ∈ remove k entries ↔ e ∈ entries ∧ e.1 ≠ k
  := by
  rw [remove, List.mem_filter, decide_eq_true_iff]

theorem mem_insert {e : κ × ν} :
  e ∈ insert k v entries ↔ e = (k, v) ∨ (e ∈ entries ∧ e.1 ≠ k)
  := by
  rw [insert, List.mem_cons, mem_remove]

theorem Keyed.modify (h : Keyed entries) (k : κ) (f : ν → ν) :
  Keyed (modify k f entries)
  := by
  rw [Keyed, map_fst_modify]
  exact h

theorem Keyed.remove (h : Keyed entries) (k : κ) :
  Keyed (remove k entries)
  := by
  apply List.Nodup.sublist _ h
  apply List.Sublist.map
  apply List.filter_sublist

theorem Keyed.insert (h : Keyed entries) (k : κ) (v : ν) :
  Keyed (insert k v entries)
  := by
  rw [Keyed, Entries.insert, List.map_cons, List.nodup_cons]
  constructor
  · intro hmem
    obtain ⟨e, he, hk⟩ := List.mem_map.mp hmem
    exact (mem_remove.mp he).2 hk
  · exact h.remove k

theorem mem_of_lookup (h : entries.lookup k = some v) :
  (k, v) ∈ entries
  := by
  obtain ⟨before, after, rfl, -⟩ := List.lookup_eq_some_iff.mp h
  simp

theorem Keyed.lookup_eq_some (h : Keyed entries) (hv : (k, v) ∈ entries) :
  entries.lookup k = some v
  := by
  cases hlookup : entries.lookup k with
  | none =>
      have hne := List.lookup_eq_none_iff.mp hlookup (k, v) hv
      simp at hne
  | some v' => rw [h.eq_of_mem hv (mem_of_lookup hlookup)]

end Changes

end VynxDesk.Entries
