import Mathlib.Data.List.Basic

/-!
# Byte channels with two modes

A byte channel carries framed messages while its writer frames them, and raw bytes once the writer
has left for the raw mode.  Its reader has a mode of its own.  `Holds ps ms ds` says that the
channel `ps` holds the messages `ms` and, after them, the raw bytes `ds`.
-/

namespace VynxDesk

/-- What one write puts on a byte channel: a framed message, or raw bytes. -/
inductive Packet (α β : Type*) where
  | framed (m : α)
  | raw (data : List β)

namespace Packet

variable {α β : Type*} {p : Packet α β} {ps : List (Packet α β)} {ms : List α} {ds : List (List β)}

/-- The bytes of a packet, when `encode` frames the messages. -/
def bytes (encode : α → List β) : Packet α β → List β
  | .framed m => encode m
  | .raw data => data

/-- A reader that frames may take the packet for the message `m`: it reads a framed message as it
is, and raw bytes as anything. -/
def Reads (m : α) : Packet α β → Prop
  | .framed m' => m' = m
  | .raw _ => True

/-- The packet is raw bytes. -/
def IsRaw : Packet α β → Prop
  | .framed _ => False
  | .raw _ => True

/-- The channel holds the messages `ms` and, after them, the raw bytes `ds`. -/
def Holds (ps : List (Packet α β)) (ms : List α) (ds : List (List β)) : Prop :=
  ps = ms.map .framed ++ ds.map .raw

/-- A channel that holds no raw bytes takes more messages. -/
theorem Holds.send (hps : Holds ps ms []) (l : List α) :
  Holds (ps ++ l.map .framed) (ms ++ l) []
  := by
  rw [Holds] at hps ⊢
  rw [hps]
  simp

/-- Every channel takes more raw bytes. -/
theorem Holds.write (hps : Holds ps ms ds) (data : List β) :
  Holds (ps ++ [.raw data]) ms (ds ++ [data])
  := by
  rw [Holds] at hps ⊢
  rw [hps]
  simp

/-- What a reader finds first: a message, or raw bytes when no message is left. -/
theorem Holds.head (hps : Holds (p :: ps) ms ds) :
  (∃ m ms', p = .framed m ∧ ms = m :: ms' ∧ Holds ps ms' ds)
    ∨ (∃ d ds', p = .raw d ∧ ms = [] ∧ ds = d :: ds' ∧ Holds ps [] ds')
  := by
  rw [Holds] at hps
  cases ms with
  | cons m ms' =>
      left
      rw [List.map_cons, List.cons_append, List.cons.injEq] at hps
      obtain ⟨rfl, hps⟩ := hps
      use m, ms', rfl, rfl, hps
  | nil =>
      right
      cases ds with
      | nil => cases hps
      | cons d ds' =>
          rw [List.map_nil, List.nil_append, List.map_cons, List.cons.injEq] at hps
          obtain ⟨rfl, hps⟩ := hps
          use d, ds', rfl, rfl, rfl, hps

/-- A channel that holds no message is one of raw bytes. -/
theorem Holds.isRaw (hps : Holds ps [] ds) :
  ∀ p ∈ ps, p.IsRaw
  := by
  intro p hp
  rw [hps] at hp
  obtain ⟨d, -, rfl⟩ := List.mem_map.mp hp
  trivial

/-- The bytes of a channel that holds no message. -/
theorem Holds.flatMap_bytes (hps : Holds ps [] ds) (encode : α → List β) :
  ps.flatMap (bytes encode) = ds.flatten
  := by
  rw [hps, List.map_nil, List.nil_append, List.flatMap_map, List.flatMap_def]
  congr 1
  apply List.map_id

end Packet

end VynxDesk
