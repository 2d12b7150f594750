import Mathlib.Data.List.Basic

/-!
# Readers

A reader has bytes left and gives them in pieces of any sizes: a read gets at least one byte, as
long as there is one, and may be interrupted.  Behind the last byte a read gets nothing, or fails.
-/

namespace VynxDesk

/-- What a read meets: an interruption, or at most so many bytes behind the first one. -/
inductive ReadEvent where
  | interrupted
  | upTo (more : ℕ)
  deriving DecidableEq, Repr

/-- The bytes that a reader has left, what the next reads meet, and whether a read behind the last
byte fails.  Reads that nothing is said about get all they want. -/
structure Reader where
  bytes : List UInt8
  events : List ReadEvent := []
  broken : Bool := false
  deriving DecidableEq, Repr

/-- What a read returns. -/
inductive ReadResult where
  | interrupted
  | failed
  | got (bytes : List UInt8)
  deriving DecidableEq, Repr

namespace Reader

/-- A read that gets at most `n` bytes. -/
def give (r : Reader) (n : ℕ) : ReadResult × Reader :=
  if r.bytes = [] then (if r.broken then .failed else .got [], r)
  else (.got (r.bytes.take n), { r with bytes := r.bytes.drop n })

/-- `read` into a buffer of `n` bytes. -/
def read (r : Reader) (n : ℕ) : ReadResult × Reader :=
  match r.events with
  | [] => r.give n
  | .interrupted :: events => (.interrupted, { r with events := events })
  | .upTo more :: events => { r with events := events }.give (min n (more + 1))

/-- What is left to happen. -/
def left (r : Reader) : ℕ := r.bytes.length + r.events.length

variable {r r' : Reader} {n : ℕ} {bytes : List UInt8}

theorem give_got (hn : 0 < n) (h : r.give n = (.got bytes, r')) :
  r'.events = r.events ∧ bytes.length ≤ n ∧ r.bytes = bytes ++ r'.bytes
    ∧ (bytes = [] → r.bytes = [])
  := by
  unfold give at h
  split_ifs at h with hnil hbroken
  · cases h
  · cases h
    exact ⟨rfl, Nat.zero_le _, rfl, fun _ => hnil⟩
  · cases h
    refine ⟨rfl, List.length_take_le _ _, (List.take_append_drop _ _).symm, ?_⟩
    intro htake
    rcases List.take_eq_nil_iff.mp htake with hzero | hbytes
    · omega
    · exact hbytes

theorem give_failed (h : r.give n = (.failed, r')) :
  r.bytes = []
  := by
  unfold give at h
  split at h
  · rename_i hnil
    exact hnil
  · cases h

theorem give_ne_interrupted : r.give n ≠ (.interrupted, r')
  := by
  unfold give
  split_ifs <;> simp

/-- An interrupted read leaves the bytes. -/
theorem read_interrupted (h : r.read n = (.interrupted, r')) :
  r'.bytes = r.bytes ∧ r'.events.length < r.events.length
  := by
  rw [read] at h
  split at h
  · exact absurd h give_ne_interrupted
  · rename_i hevents
    cases h
    rw [hevents]
    exact ⟨rfl, Nat.lt_succ_self _⟩
  · exact absurd h give_ne_interrupted

/-- A read fails only behind the last byte. -/
theorem read_failed (h : r.read n = (.failed, r')) :
  r.bytes = []
  := by
  rw [read] at h
  split at h
  · apply give_failed h
  · cases h
  · apply give_failed (r := { r with events := _ }) h

/-- A read gets the next bytes, and none only behind the last one. -/
theorem read_got (hn : 0 < n) (h : r.read n = (.got bytes, r')) :
  r'.events.length ≤ r.events.length ∧ bytes.length ≤ n ∧ r.bytes = bytes ++ r'.bytes
    ∧ (bytes = [] → r.bytes = [])
  := by
  rw [read] at h
  split at h
  · obtain ⟨hevents, hrest⟩ := give_got hn h
    rw [hevents]
    exact ⟨Nat.le_refl _, hrest⟩
  · cases h
  · rename_i more events hevents
    have hmin : 0 < min n (more + 1) := Nat.lt_min.mpr ⟨hn, Nat.succ_pos _⟩
    obtain ⟨hsame, hle, hrest⟩ := give_got (r := { r with events := events }) hmin h
    rw [hsame, hevents]
    exact ⟨Nat.le_succ _, Nat.le_trans hle (Nat.min_le_left _ _), hrest⟩

theorem left_read_interrupted (h : r.read n = (.interrupted, r')) :
  r'.left < r.left
  := by
  obtain ⟨hbytes, hevents⟩ := read_interrupted h
  rw [left, left, hbytes]
  omega

theorem left_read_got (hn : 0 < n) (h : r.read n = (.got bytes, r')) (hbytes : bytes ≠ []) :
  r'.left < r.left
  := by
  obtain ⟨hevents, -, hsplit, -⟩ := read_got hn h
  have hpos := List.length_pos_iff.mpr hbytes
  rw [left, left, hsplit, List.length_append]
  omega

end Reader

end VynxDesk
