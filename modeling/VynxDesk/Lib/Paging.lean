import Mathlib.Data.List.Basic
import Mathlib.Data.List.Enum

/-!
# Reading a list by pages

A reader asks for a list from an offset on and gets as many elements as there is room for, each with
the offset behind it; it goes on from the last one, and ends when it gets nothing.  Whatever the
rooms are, it reads every element once and in order (`readPages_eq`).
-/

namespace VynxDesk.Paging

variable {α : Type*}

/-- The elements from an offset on that there is room for, each with the offset behind it. -/
def page (xs : List α) (offset room : ℕ) : List (α × ℕ) :=
  ((xs.zipIdx 1).drop offset).take room

/-- What a reader reads of the pages that `pages` gives it, where `rooms` are the rooms it has for
them one after the other. -/
def readPages (pages : ℕ → ℕ → Option (List (α × ℕ))) : List ℕ → ℕ → Option (List α)
  | [], _ => none
  | room :: rooms, offset =>
      (pages offset room).bind fun read =>
        match read.getLast? with
        | none => some []
        | some last => (readPages pages rooms last.2).map (read.map Prod.fst ++ ·)

theorem map_fst_page (xs : List α) (offset room : ℕ) :
  (page xs offset room).map Prod.fst = (xs.drop offset).take room
  := by
  rw [page, List.map_take, List.map_drop, List.zipIdx_map_fst]

/-- A page goes to where there is no more room, or to the end. -/
theorem getLast?_page {xs : List α} {offset room : ℕ} {last : α × ℕ}
    (hlast : (page xs offset room).getLast? = some last) :
  last.2 = min (offset + room) xs.length
  := by
  rw [List.getLast?_eq_getElem?] at hlast
  obtain ⟨hlt, hget⟩ := List.getElem?_eq_some_iff.mp hlast
  simp only [page, List.length_take, List.length_drop, List.length_zipIdx] at hlt hget
  rw [List.getElem_take, List.getElem_drop, List.getElem_zipIdx] at hget
  rw [← hget]
  dsimp only
  omega

/-- There is nothing on a page when there is no room or nothing left. -/
theorem page_eq_nil {xs : List α} {offset room : ℕ} (hroom : 0 < room)
    (hpage : page xs offset room = []) :
  xs.drop offset = []
  := by
  have htake := congrArg (List.map Prod.fst) hpage
  rw [map_fst_page, List.map_nil, List.take_eq_nil_iff] at htake
  exact htake.resolve_left (Nat.pos_iff_ne_zero.mp hroom)

/-- Every element is read once and in order. -/
theorem readPages_eq {pages : ℕ → ℕ → Option (List (α × ℕ))} {xs : List α}
    (hpages : ∀ offset room, pages offset room = some (page xs offset room)) {rooms : List ℕ}
    (hrooms : ∀ room ∈ rooms, 0 < room) {offset : ℕ} (hlength : xs.length - offset < rooms.length) :
  readPages pages rooms offset = some (xs.drop offset)
  := by
  induction rooms generalizing offset with
  | nil => cases hlength
  | cons room rooms ih =>
      obtain ⟨hroom, hrest⟩ := List.forall_mem_cons.mp hrooms
      rw [readPages, hpages, Option.bind_some]
      cases hlast : (page xs offset room).getLast? with
      | none =>
          rw [List.getLast?_eq_none_iff] at hlast
          rw [page_eq_nil hroom hlast]
      | some last =>
          have hnext := getLast?_page hlast
          have hne : page xs offset room ≠ [] := by
            intro hnil
            rw [hnil] at hlast
            cases hlast
          have hoffset : offset < xs.length := by
            by_contra hle
            apply hne
            rw [page, List.drop_eq_nil_of_le, List.take_nil]
            rw [List.length_zipIdx]
            omega
          have hdrop : xs.drop last.2 = (xs.drop offset).drop room := by
            rw [List.drop_drop, hnext]
            rcases Nat.le_total (offset + room) xs.length with hle | hle
            · rw [Nat.min_eq_left hle]
            · rw [Nat.min_eq_right hle, List.drop_length, List.drop_eq_nil_of_le hle]
          rw [List.length_cons] at hlength
          dsimp only
          rw [ih hrest (by omega), hdrop, map_fst_page, Option.map_some, List.take_append_drop]

end VynxDesk.Paging
