import Mathlib.Data.List.Infix

/-!
# A queue that may lose its end

What is sent into a pipe arrives in order.  Once the pipe is cut, the end of what it holds may be
lost, and nothing more is sent into it.  `Pipe sent cut arrived queue` says that `arrived` has
arrived of what was sent, and that `queue` is still on its way.
-/

namespace VynxDesk

variable {μ : Type*}

/-- What has arrived and what is on its way is the first part of what was sent, and all of it unless
the pipe is cut. -/
structure Pipe (sent : List μ) (cut : Prop) (arrived queue : List μ) : Prop where
  order : arrived ++ queue <+: sent
  whole : ¬ cut → arrived ++ queue = sent

namespace Pipe

variable {sent arrived queue queue' : List μ} {cut cut' : Prop} {m : μ}

/-- A new pipe. -/
theorem nil :
  Pipe ([] : List μ) cut [] []
  := by
  constructor
  · apply List.prefix_rfl
  · intro _
    rfl

/-- What is sent is on its way. -/
theorem send (h : Pipe sent cut arrived queue) (hcut : ¬ cut) (ms : List μ) :
  Pipe (sent ++ ms) cut arrived (queue ++ ms)
  := by
  have hwhole : arrived ++ (queue ++ ms) = sent ++ ms := by
    rw [← List.append_assoc, h.whole hcut]
  constructor
  · rw [hwhole]
  · intro _
    exact hwhole

/-- The first message on its way arrives. -/
theorem deliver (h : Pipe sent cut arrived (m :: queue)) :
  Pipe sent cut (arrived ++ [m]) queue
  := by
  have hsame : arrived ++ [m] ++ queue = arrived ++ m :: queue := by
    simp
  constructor
  · rw [hsame]
    apply h.order
  · rw [hsame]
    apply h.whole

/-- A pipe that is cut may lose the end of what is on its way. -/
theorem cutOff (h : Pipe sent cut arrived queue) (hcut : cut') (hqueue : queue' <+: queue) :
  Pipe sent cut' arrived queue'
  := by
  constructor
  · apply List.IsPrefix.trans _ h.order
    apply (List.prefix_append_right_inj arrived).mpr hqueue
  · intro hnot
    exact absurd hcut hnot

/-- What has arrived was sent. -/
theorem arrived_prefix (h : Pipe sent cut arrived queue) :
  arrived <+: sent
  := by
  apply (List.prefix_append arrived queue).trans h.order

/-- What is on its way was sent. -/
theorem mem_sent (h : Pipe sent cut arrived queue) (hm : m ∈ queue) :
  m ∈ sent
  := h.order.subset (List.mem_append_right arrived hm)

end Pipe

end VynxDesk
