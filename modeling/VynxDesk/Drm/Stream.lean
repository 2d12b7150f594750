import Mathlib.Data.Int.Basic
import Mathlib.Data.List.Basic
import VynxDesk.Lib.Run

/-!
# The stream of captured frames

The streaming loop of `handle_drm_conn` of `ipc/drm.rs` takes messages from the channel of the capture
worker and sends them to a consumer, cursors at once and of the frames the last one it took, as long
as it has a credit: a frame that is sent takes one, and a byte that the consumer writes gives one
back.  `recv_thread` of `server/drm_capturer.rs` writes one byte for each frame it has handled.

The model is of a connection while it lasts: an error or a closed channel ends its run.
-/

namespace VynxDesk.Drm.Stream

variable {Desc Fd Displays : Type} {takes : Bool}

abbrev Bytes : Type := List UInt8

/-- `DrmProducerMsg`. -/
inductive DrmProducerMsg (Desc Fd Displays : Type) where
  | displays (displays : Displays)
  | frame (desc : Desc) (fd : Option Fd)
  | frameCpu (width height : UInt32) (data : Bytes)
  | cursor (id : UInt64) (width height : UInt32) (hotx hoty : Int32) (colors : Bytes)

/-- The messages that the loop sends, each with what follows it on the wire: the descriptor of a
frame with its field `has_fd` and the file descriptor passed along, or raw bytes. -/
inductive Data (Desc Fd Displays : Type) where
  | drmDisplaysChanged (displays : Displays)
  | drmFrameDmabuf (desc : Desc) (hasFd : Bool) (fd : Option Fd)
  | drmFrame (width height : UInt32) (raw : Bytes)
  | drmCursor (id : UInt64) (width height : UInt32) (hotx hoty : Int32) (raw : Bytes)

/-- Whether a message carries a frame. -/
def Data.isFrame : Data Desc Fd Displays → Bool
  | .drmFrameDmabuf _ _ _ => true
  | .drmFrame _ _ _ => true
  | _ => false

/-- Whether a message carries a cursor. -/
def Data.isCursor : Data Desc Fd Displays → Bool
  | .drmCursor _ _ _ _ _ _ => true
  | _ => false

namespace DrmProducerMsg

/-- Whether a message is a frame. -/
def isFrame : DrmProducerMsg Desc Fd Displays → Bool
  | .frame _ _ => true
  | .frameCpu _ _ _ => true
  | _ => false

/-- What is sent for a frame. -/
def frameData : DrmProducerMsg Desc Fd Displays → Option (Data Desc Fd Displays)
  | .frame desc fd => some (.drmFrameDmabuf desc fd.isSome fd)
  | .frameCpu width height data => some (.drmFrame width height data)
  | _ => none

/-- What is sent for a cursor. -/
def cursorData : DrmProducerMsg Desc Fd Displays → Option (Data Desc Fd Displays)
  | .cursor id width height hotx hoty colors => some (.drmCursor id width height hotx hoty colors)
  | _ => none

end DrmProducerMsg

/-- The capacity of the channel. -/
def channelCapacity : ℕ := 2

/-- `DRM_FRAME_CREDIT`. -/
def drmFrameCredit : ℤ := 2

/-- `MAX_ACK_READS`. -/
def maxAckReads : ℕ := 64

/-- The size of the buffer of `drain_frame_acks`. -/
def ackBufSize : ℕ := 64

/-- Where the loop stands: in one of its two drains, with so many reads done; at the choice of what
to receive first; at the check of the peer; with a message to forward; at the next message of the
channel; at the frame to send. -/
inductive Phase (Desc Fd Displays : Type) where
  | drainTop (reads : ℕ)
  | wait
  | authorize (first : Option (DrmProducerMsg Desc Fd Displays))
  | forward (msg : DrmProducerMsg Desc Fd Displays)
  | fetch
  | drainEnd (reads : ℕ)
  | ship

/-- The messages that the loop has taken from the channel and not handled. -/
def Phase.hand : Phase Desc Fd Displays → List (DrmProducerMsg Desc Fd Displays)
  | .authorize (some msg) => [msg]
  | .forward msg => [msg]
  | _ => []

/-- A connection.  `queue` is the channel, `held` and `latest` are `held_frame` and `latest_frame`,
`wire` are the messages on their way to the consumer, `handling` says whether the consumer is at a
frame, and `acks` are the bytes on their way back.  The history: what the worker queued, what the
loop took from the channel, what it sent, and how many bytes the consumer wrote. -/
structure System (Desc Fd Displays : Type) where
  queue : List (DrmProducerMsg Desc Fd Displays) := []
  credit : ℤ := drmFrameCredit
  framesGated : Bool := false
  held : Option (DrmProducerMsg Desc Fd Displays) := none
  latest : Option (DrmProducerMsg Desc Fd Displays) := none
  phase : Phase Desc Fd Displays := .drainTop 0
  wire : List (Data Desc Fd Displays) := []
  handling : Bool := false
  acks : ℕ := 0
  queued : List (DrmProducerMsg Desc Fd Displays) := []
  taken : List (DrmProducerMsg Desc Fd Displays) := []
  sent : List (Data Desc Fd Displays) := []
  written : ℕ := 0

namespace System

/-- A message goes out. -/
def send (s : System Desc Fd Displays) (data : Data Desc Fd Displays) : System Desc Fd Displays :=
  { s with wire := s.wire ++ [data], sent := s.sent ++ [data] }

/-- The end of a drain. -/
def drained (s : System Desc Fd Displays) : System Desc Fd Displays :=
  match s.phase with
  | .drainTop _ => { s with framesGated := s.credit ≤ 0, phase := .wait }
  | .drainEnd _ =>
      if s.credit ≤ 0 then { s with held := s.latest, latest := none, phase := .drainTop 0 }
      else { s with phase := .ship }
  | _ => s

/-- A read of `n` bytes in `drain_frame_acks`, the one after `reads` others. -/
def read (s : System Desc Fd Displays) (n reads : ℕ)
    (again : ℕ → Phase Desc Fd Displays) : System Desc Fd Displays :=
  let s := { s with credit := min (s.credit + n) drmFrameCredit, acks := s.acks - n }
  if drmFrameCredit ≤ s.credit ∨ maxAckReads ≤ reads + 1 then s.drained
  else { s with phase := again (reads + 1) }

/-- The first message of the channel is taken. -/
def takeMsg (s : System Desc Fd Displays) (msg : DrmProducerMsg Desc Fd Displays)
    (rest : List (DrmProducerMsg Desc Fd Displays)) (phase : Phase Desc Fd Displays) :
    System Desc Fd Displays :=
  { s with queue := rest, taken := s.taken ++ [msg], phase := phase }

/-- What the loop receives first: it goes on without a message if it holds a frame to send, or waits
for a credit. -/
def receiveFirst (s : System Desc Fd Displays) (takes : Bool) :
    Option (System Desc Fd Displays) :=
  if takes then
    match s.queue with
    | msg :: rest => some (s.takeMsg msg rest (.authorize (some msg)))
    | [] => none
  else if (s.held.isSome ∧ 0 < s.credit) ∨ s.credit ≤ 0 then
    some { s with phase := .authorize none }
  else none

/-- The next message of the channel, if there is one. -/
def fetch (s : System Desc Fd Displays) (takes : Bool) : Option (System Desc Fd Displays) :=
  if takes then
    match s.queue with
    | msg :: rest => some (s.takeMsg msg rest (.forward msg))
    | [] => none
  else some { s with phase := .drainEnd 0 }

/-- The loop takes the message it received first, after the check of the peer: the displays may have
changed. -/
def authorize (s : System Desc Fd Displays) (first : Option (DrmProducerMsg Desc Fd Displays))
    (changed : Option Displays) : System Desc Fd Displays :=
  let s :=
    match changed with
    | some fresh => s.send (.drmDisplaysChanged fresh)
    | none => s
  let phase :=
    match first with
    | some msg => .forward msg
    | none => .fetch
  { s with latest := s.held, held := none, phase := phase }

/-- The body of the loop over the messages of the channel. -/
def forward (s : System Desc Fd Displays) (msg : DrmProducerMsg Desc Fd Displays) :
    System Desc Fd Displays :=
  match msg with
  | .frame desc fd => { s with latest := some (.frame desc fd), phase := .fetch }
  | .frameCpu width height data =>
      { s with latest := some (.frameCpu width height data), phase := .fetch }
  | .cursor id width height hotx hoty colors =>
      { s.send (.drmCursor id width height hotx hoty colors) with phase := .fetch }
  | .displays _ => { s with phase := .fetch }

/-- The end of a round of the loop: the frame is sent, and one credit is taken. -/
def ship (s : System Desc Fd Displays) : System Desc Fd Displays :=
  let next := { s with latest := none, phase := .drainTop 0 }
  match s.latest with
  | some (.frame desc fd) =>
      { next.send (.drmFrameDmabuf desc fd.isSome fd) with credit := s.credit - 1 }
  | some (.frameCpu width height data) =>
      { next.send (.drmFrame width height data) with credit := s.credit - 1 }
  | _ => next

end System

/-- The steps: the worker queues a message; the loop reads bytes, or none are there; it receives a
message first or goes on without, passes the check, forwards, looks for the next message, sends; the
consumer receives a message, or acknowledges the frame it has handled; another consumer writes what
it likes. -/
inductive Label (Desc Fd Displays : Type) where
  | queue (msg : DrmProducerMsg Desc Fd Displays)
  | read (n : ℕ)
  | wouldBlock
  | wait (takes : Bool)
  | authorize (changed : Option Displays)
  | forward
  | fetch (takes : Bool)
  | ship
  | receive
  | ack
  | write (n : ℕ)

/-- A label of `recv_thread`, or of the loop or the worker. -/
def Label.honest : Label Desc Fd Displays → Bool
  | .write _ => false
  | _ => true

/-- One step. -/
def step (s : System Desc Fd Displays) :
    Label Desc Fd Displays → Option (System Desc Fd Displays)
  | .queue msg =>
      if s.queue.length < channelCapacity then
        some { s with queue := s.queue ++ [msg], queued := s.queued ++ [msg] }
      else none
  | .read n =>
      if 0 < n ∧ n ≤ s.acks ∧ n ≤ ackBufSize then
        match s.phase with
        | .drainTop reads => some (s.read n reads .drainTop)
        | .drainEnd reads => some (s.read n reads .drainEnd)
        | _ => none
      else none
  | .wouldBlock =>
      match s.phase with
      | .drainTop _ => some s.drained
      | .drainEnd _ => some s.drained
      | _ => none
  | .wait takes =>
      match s.phase with
      | .wait => s.receiveFirst takes
      | _ => none
  | .authorize changed =>
      match s.phase with
      | .authorize first => some (s.authorize first changed)
      | _ => none
  | .forward =>
      match s.phase with
      | .forward msg => some (s.forward msg)
      | _ => none
  | .fetch takes =>
      match s.phase with
      | .fetch => s.fetch takes
      | _ => none
  | .ship =>
      match s.phase with
      | .ship => some s.ship
      | _ => none
  | .receive =>
      match s.handling, s.wire with
      | false, data :: wire => some { s with wire := wire, handling := data.isFrame }
      | _, _ => none
  | .ack =>
      if s.handling then
        some { s with handling := false, acks := s.acks + 1, written := s.written + 1 }
      else none
  | .write n => some { s with acks := s.acks + n, written := s.written + n }

/-- The steps as a relation. -/
def Step (s : System Desc Fd Displays) (i : Label Desc Fd Displays)
    (s' : System Desc Fd Displays) : Prop := step s i = some s'

/-- What the steps do, and when they can be taken. -/
inductive Effect (s : System Desc Fd Displays) :
    Label Desc Fd Displays → System Desc Fd Displays → Prop where
  | queue (msg : DrmProducerMsg Desc Fd Displays) :
      Effect s (.queue msg) { s with queue := s.queue ++ [msg], queued := s.queued ++ [msg] }
  | readTop {n reads : ℕ} (hn : n ≤ s.acks) (hphase : s.phase = .drainTop reads) :
      Effect s (.read n) (s.read n reads .drainTop)
  | readEnd {n reads : ℕ} (hn : n ≤ s.acks) (hphase : s.phase = .drainEnd reads) :
      Effect s (.read n) (s.read n reads .drainEnd)
  | wouldBlock : Effect s .wouldBlock s.drained
  | wait {takes : Bool} {s' : System Desc Fd Displays} (hphase : s.phase = .wait)
      (hreceive : s.receiveFirst takes = some s') : Effect s (.wait takes) s'
  | authorize {first : Option (DrmProducerMsg Desc Fd Displays)} (changed : Option Displays)
      (hphase : s.phase = .authorize first) :
      Effect s (.authorize changed) (s.authorize first changed)
  | forward {msg : DrmProducerMsg Desc Fd Displays} (hphase : s.phase = .forward msg) :
      Effect s .forward (s.forward msg)
  | fetch {takes : Bool} {s' : System Desc Fd Displays} (hphase : s.phase = .fetch)
      (hfetch : s.fetch takes = some s') : Effect s (.fetch takes) s'
  | ship (hphase : s.phase = .ship) : Effect s .ship s.ship
  | receive {data : Data Desc Fd Displays} {wire : List (Data Desc Fd Displays)}
      (hhandling : s.handling = false) (hwire : s.wire = data :: wire) :
      Effect s .receive { s with wire := wire, handling := data.isFrame }
  | ack (hhandling : s.handling = true) :
      Effect s .ack { s with handling := false, acks := s.acks + 1, written := s.written + 1 }
  | write (n : ℕ) : Effect s (.write n) { s with acks := s.acks + n, written := s.written + n }

variable {s s' : System Desc Fd Displays} {done : List (DrmProducerMsg Desc Fd Displays)}
  {h : List (System Desc Fd Displays × Label Desc Fd Displays)} {i : Label Desc Fd Displays}

theorem Step.effect (hstep : Step s i s') :
  Effect s i s'
  := by
  unfold Step step at hstep
  cases i with
  | queue msg =>
      obtain ⟨-, hsome⟩ := Option.ite_none_right_eq_some.mp hstep
      obtain rfl := Option.some.inj hsome
      apply Effect.queue
  | read n =>
      obtain ⟨hn, hsome⟩ := Option.ite_none_right_eq_some.mp hstep
      split at hsome
      next hphase =>
          obtain rfl := Option.some.inj hsome
          apply Effect.readTop hn.2.1 hphase
      next hphase =>
          obtain rfl := Option.some.inj hsome
          apply Effect.readEnd hn.2.1 hphase
      next => cases hsome
  | wouldBlock =>
      dsimp only at hstep
      split at hstep
      next =>
          obtain rfl := Option.some.inj hstep
          apply Effect.wouldBlock
      next =>
          obtain rfl := Option.some.inj hstep
          apply Effect.wouldBlock
      next => cases hstep
  | wait takes =>
      dsimp only at hstep
      split at hstep
      next hphase => apply Effect.wait hphase hstep
      next => cases hstep
  | fetch takes =>
      dsimp only at hstep
      split at hstep
      next hphase => apply Effect.fetch hphase hstep
      next => cases hstep
  | ack =>
      obtain ⟨hhandling, hsome⟩ := Option.ite_none_right_eq_some.mp hstep
      obtain rfl := Option.some.inj hsome
      apply Effect.ack hhandling
  | write n =>
      obtain rfl := Option.some.inj hstep
      apply Effect.write
  | _ =>
      dsimp only at hstep
      split at hstep
      next =>
          obtain rfl := Option.some.inj hstep
          constructor
          all_goals assumption
      next => cases hstep

/-! ## Credits, frames and cursors -/

/-- The frame that the loop holds, from one round to the next or within a round. -/
def System.pending (s : System Desc Fd Displays) : Option (DrmProducerMsg Desc Fd Displays) :=
  s.latest.or s.held

/-- The frames that are sent and not acknowledged. -/
def System.unacked (s : System Desc Fd Displays) : ℕ :=
  s.wire.countP Data.isFrame + s.handling.toNat

/-- Whether the loop keeps its frame in `held` here, and not in `latest`. -/
def Phase.holds : Phase Desc Fd Displays → Bool
  | .drainTop _ => true
  | .wait => true
  | .authorize _ => true
  | _ => false

/-- What holds of the messages: `done` are those the loop has handled. -/
structure Flow (s : System Desc Fd Displays) (done : List (DrmProducerMsg Desc Fd Displays)) :
    Prop where
  queued : s.queued = s.taken ++ s.queue
  taken : s.taken = done ++ s.phase.hand
  cursors : s.sent.filter Data.isCursor = done.filterMap DrmProducerMsg.cursorData
  frames : (s.sent.filter Data.isFrame ++ s.pending.toList.filterMap DrmProducerMsg.frameData).Sublist
    (done.filterMap DrmProducerMsg.frameData)
  last : ∀ f, s.pending = some f → (done.filter DrmProducerMsg.isFrame).getLast? = some f
  slot : if s.phase.holds then s.latest = none else s.held = none

/-- What holds of the credit, whatever the consumer does. -/
structure Credit (s : System Desc Fd Displays) : Prop where
  nonneg : 0 ≤ s.credit
  ship : s.phase = .ship → 0 < s.credit
  spent : (s.sent.countP Data.isFrame : ℤ) + s.credit + s.acks ≤ drmFrameCredit + s.written

/-- What holds of the credit with the consumer of the source. -/
def Balanced (s : System Desc Fd Displays) : Prop :=
  s.credit + s.unacked + s.acks = drmFrameCredit

theorem flow_start :
  Flow ({} : System Desc Fd Displays) []
  := by
  constructor <;> simp [Phase.hand, System.pending, Phase.holds]

theorem credit_start :
  Credit ({} : System Desc Fd Displays)
  := by
  constructor <;> simp [drmFrameCredit]

theorem balanced_start :
  Balanced ({} : System Desc Fd Displays)
  := by
  simp [Balanced, System.unacked, drmFrameCredit]

/-! ### The steps and the messages -/

/-- A step that leaves the messages alone. -/
theorem Flow.same (h : Flow s done) (hqueued : s'.queued = s.queued) (hqueue : s'.queue = s.queue)
    (htaken : s'.taken = s.taken) (hhand : s'.phase.hand = s.phase.hand)
    (hsent : s'.sent = s.sent) (hpending : s'.pending = s.pending)
    (hslot : if s'.phase.holds then s'.latest = none else s'.held = none) :
  Flow s' done
  := by
  constructor
  · rw [hqueued, htaken, hqueue, h.queued]
  · rw [htaken, hhand, h.taken]
  · rw [hsent, h.cursors]
  · rw [hsent, hpending]
    exact h.frames
  · rw [hpending]
    exact h.last
  · exact hslot

/-- A drain ends. -/
theorem Flow.drained (h : Flow s done) :
  Flow s.drained done
  := by
  have hslot := h.slot
  rw [System.drained.eq_def]
  split
  next reads hphase =>
      rw [hphase] at hslot
      refine h.same rfl rfl rfl ?_ rfl rfl hslot
      rw [hphase]
      rfl
  next reads hphase =>
      rw [hphase] at hslot
      have hheld : s.held = none := hslot
      split
      next =>
          refine h.same rfl rfl rfl ?_ rfl ?_ rfl
          · rw [hphase]
            rfl
          · rw [System.pending, System.pending, hheld, Option.or_none]
            rfl
      next =>
          refine h.same rfl rfl rfl ?_ rfl rfl hheld
          rw [hphase]
          rfl
  next => exact h

theorem Flow.read (h : Flow s done) (n reads : ℕ) (again : ℕ → Phase Desc Fd Displays)
    (hhand : s.phase.hand = []) (hagain : ∀ k, (again k).hand = [])
    (hholds : ∀ k, (again k).holds = s.phase.holds) :
  Flow (s.read n reads again) done
  := by
  have hread : Flow { s with
      credit := min (s.credit + n) drmFrameCredit, acks := s.acks - n } done :=
    h.same rfl rfl rfl rfl rfl rfl h.slot
  rw [System.read]
  dsimp only
  split
  next => exact hread.drained
  next =>
      refine hread.same rfl rfl rfl ?_ rfl rfl ?_
      · exact (hagain _).trans hhand.symm
      · have hslot := h.slot
        rwa [← hholds (reads + 1)] at hslot

/-- A message is taken from the channel. -/
theorem Flow.takeMsg (h : Flow s done) {msg : DrmProducerMsg Desc Fd Displays}
    {rest : List (DrmProducerMsg Desc Fd Displays)} {phase : Phase Desc Fd Displays}
    (hqueue : s.queue = msg :: rest) (hhand : s.phase.hand = []) (hphase : phase.hand = [msg])
    (hholds : phase.holds = s.phase.holds) :
  Flow (s.takeMsg msg rest phase) done
  := by
  have htaken := h.taken
  rw [hhand, List.append_nil] at htaken
  constructor
  · rw [System.takeMsg, h.queued, hqueue, List.append_assoc, List.singleton_append]
  · rw [System.takeMsg, hphase, htaken]
  · exact h.cursors
  · exact h.frames
  · exact h.last
  · have hslot := h.slot
    rwa [← hholds] at hslot

theorem Flow.receiveFirst (h : Flow s done) (hphase : s.phase = .wait)
    (hstep : s.receiveFirst takes = some s') :
  Flow s' done
  := by
  rw [System.receiveFirst.eq_def] at hstep
  split at hstep
  next =>
      split at hstep
      next msg rest hqueue =>
          obtain rfl := Option.some.inj hstep
          exact h.takeMsg hqueue (by rw [hphase]; rfl) rfl (by rw [hphase]; rfl)
      next => cases hstep
  next =>
      split at hstep
      next =>
          obtain rfl := Option.some.inj hstep
          have hslot := h.slot
          rw [hphase] at hslot
          refine h.same rfl rfl rfl ?_ rfl rfl hslot
          rw [hphase]
          rfl
      next => cases hstep

theorem Flow.fetch (h : Flow s done) (hphase : s.phase = .fetch) (hstep : s.fetch takes = some s') :
  Flow s' done
  := by
  rw [System.fetch.eq_def] at hstep
  split at hstep
  next =>
      split at hstep
      next msg rest hqueue =>
          obtain rfl := Option.some.inj hstep
          exact h.takeMsg hqueue (by rw [hphase]; rfl) rfl (by rw [hphase]; rfl)
      next => cases hstep
  next =>
      obtain rfl := Option.some.inj hstep
      have hslot := h.slot
      rw [hphase] at hslot
      refine h.same rfl rfl rfl ?_ rfl rfl hslot
      rw [hphase]
      rfl

/-- The check of the peer is passed. -/
theorem Flow.authorize (h : Flow s done) {first : Option (DrmProducerMsg Desc Fd Displays)}
    (hphase : s.phase = .authorize first) (changed : Option Displays) :
  Flow (s.authorize first changed) done
  := by
  have hslot := h.slot
  have htaken := h.taken
  have hframes := h.frames
  have hlast := h.last
  rw [hphase] at hslot htaken
  have hlatest : s.latest = none := hslot
  rw [System.pending, hlatest, Option.none_or] at hframes hlast
  have hsent : (s.authorize first changed).sent.filter Data.isCursor = s.sent.filter Data.isCursor
      ∧ (s.authorize first changed).sent.filter Data.isFrame = s.sent.filter Data.isFrame := by
    cases changed <;> simp [System.authorize, System.send, Data.isCursor, Data.isFrame]
  have hrest : (s.authorize first changed).queued = s.queued
      ∧ (s.authorize first changed).queue = s.queue ∧ (s.authorize first changed).taken = s.taken
      ∧ (s.authorize first changed).pending = s.held := by
    cases changed <;> simp [System.authorize, System.send, System.pending]
  obtain ⟨hqueued, hqueue, htaken', hpending⟩ := hrest
  constructor
  · rw [hqueued, hqueue, htaken', h.queued]
  · rw [htaken', htaken]
    cases first <;> rfl
  · rw [hsent.1, h.cursors]
  · rwa [hsent.2, hpending]
  · rwa [hpending]
  · cases first <;> rfl

theorem filterMap_concat {α β : Type} (f : α → Option β) (xs : List α) (x : α) :
  (xs ++ [x]).filterMap f = xs.filterMap f ++ (f x).toList
  := by
  rw [List.filterMap_append]
  cases h : f x <;> simp [h]

/-- A message is forwarded, or kept as the latest frame. -/
theorem Flow.forward (h : Flow s done) {msg : DrmProducerMsg Desc Fd Displays}
    (hphase : s.phase = .forward msg) :
  Flow (s.forward msg) (done ++ [msg])
  := by
  have hslot := h.slot
  have htaken := h.taken
  rw [hphase] at hslot htaken
  have hheld : s.held = none := hslot
  have hframe : ∀ data, msg.frameData = some data → msg.cursorData = none → msg.isFrame = true →
      Flow { s with latest := some msg, phase := .fetch } (done ++ [msg]) := by
    intro data hdata hcursor hframe
    constructor
    · exact h.queued
    · rw [htaken]
      exact (List.append_nil _).symm
    · rw [filterMap_concat, hcursor, Option.toList_none, List.append_nil]
      exact h.cursors
    · have hpending : ([msg] : List _).filterMap DrmProducerMsg.frameData = [data] := by
        simp [hdata]
      rw [filterMap_concat, hdata, System.pending, Option.some_or, Option.toList_some, hpending]
      apply List.Sublist.append _ (List.Sublist.refl _)
      apply (List.sublist_append_left _ _).trans h.frames
    · rintro f hf
      obtain rfl : msg = f := Option.some.inj hf
      rw [List.filter_append, List.filter_singleton, hframe]
      exact List.getLast?_concat
    · exact hheld
  have hother : ∀ sent : List (Data Desc Fd Displays), msg.frameData = none →
      msg.isFrame = false →
      sent.filter Data.isCursor = done.filterMap DrmProducerMsg.cursorData
        ++ msg.cursorData.toList →
      sent.filter Data.isFrame = s.sent.filter Data.isFrame →
      ∀ wire, Flow { s with wire := wire, sent := sent, phase := .fetch } (done ++ [msg]) := by
    intro sent hdata hframe hcursors hframes wire
    constructor
    · exact h.queued
    · rw [htaken]
      exact (List.append_nil _).symm
    · rw [hcursors, filterMap_concat]
    · rw [filterMap_concat, hdata, Option.toList_none, List.append_nil, hframes]
      exact h.frames
    · rw [List.filter_append, List.filter_singleton, hframe, cond_false, List.append_nil]
      exact h.last
    · exact hheld
  cases msg with
  | frame desc fd => exact hframe _ rfl rfl rfl
  | frameCpu width height data => exact hframe _ rfl rfl rfl
  | cursor id width height hotx hoty colors =>
      apply hother _ rfl rfl
      · change List.filter _ (s.sent ++ [_]) = _
        rw [List.filter_append, h.cursors]
        rfl
      · change List.filter _ (s.sent ++ [_]) = _
        rw [List.filter_append]
        exact List.append_nil _
  | displays displays =>
      apply hother _ rfl rfl
      · rw [h.cursors]
        exact (List.append_nil _).symm
      · rfl

/-- The latest frame is sent. -/
theorem Flow.ship (h : Flow s done) (hphase : s.phase = .ship) :
  Flow s.ship done
  := by
  have hslot := h.slot
  have htaken := h.taken
  have hframes := h.frames
  rw [hphase] at hslot htaken
  have hheld : s.held = none := hslot
  rw [System.pending, hheld, Option.or_none] at hframes
  have hsent : ∀ (sent wire : List (Data Desc Fd Displays)) (credit : ℤ),
      sent.filter Data.isCursor = s.sent.filter Data.isCursor →
      (sent.filter Data.isFrame).Sublist (done.filterMap DrmProducerMsg.frameData) →
      Flow { s with
        latest := none, phase := .drainTop 0, wire := wire, sent := sent, credit := credit } done := by
    intro sent wire credit hcursors hsub
    have hpending : System.pending { s with
        latest := none, phase := .drainTop 0, wire := wire, sent := sent, credit := credit }
          = none := by
      rw [System.pending, hheld]
      rfl
    constructor
    · exact h.queued
    · exact htaken
    · rw [hcursors, h.cursors]
    · rw [hpending]
      simpa using hsub
    · rw [hpending]
      nofun
    · rfl
  rw [System.ship.eq_def]
  dsimp only
  split
  next desc fd hlatest =>
      rw [hlatest] at hframes
      apply hsent
      · change List.filter _ (s.sent ++ [_]) = _
        rw [List.filter_append]
        exact List.append_nil _
      · change (List.filter _ (s.sent ++ [_])).Sublist _
        rw [List.filter_append]
        exact hframes
  next width height data hlatest =>
      rw [hlatest] at hframes
      apply hsent
      · change List.filter _ (s.sent ++ [_]) = _
        rw [List.filter_append]
        exact List.append_nil _
      · change (List.filter _ (s.sent ++ [_])).Sublist _
        rw [List.filter_append]
        exact hframes
  next => exact hsent s.sent s.wire s.credit rfl ((List.sublist_append_left _ _).trans hframes)

/-- Every step keeps what holds of the messages. -/
theorem flow_step (h : Flow s done) (hstep : Step s i s') :
  ∃ done', Flow s' done'
  := by
  cases hstep.effect with
  | queue msg =>
      use done
      refine ⟨?_, h.taken, h.cursors, h.frames, h.last, h.slot⟩
      rw [h.queued, List.append_assoc]
  | readTop _ hphase =>
      use done
      apply h.read <;> simp [hphase, Phase.hand, Phase.holds]
  | readEnd _ hphase =>
      use done
      apply h.read <;> simp [hphase, Phase.hand, Phase.holds]
  | wouldBlock => exact ⟨done, h.drained⟩
  | wait hphase hreceive => exact ⟨done, h.receiveFirst hphase hreceive⟩
  | authorize changed hphase => exact ⟨done, h.authorize hphase changed⟩
  | forward hphase => exact ⟨_, h.forward hphase⟩
  | fetch hphase hfetch => exact ⟨done, h.fetch hphase hfetch⟩
  | ship hphase => exact ⟨done, h.ship hphase⟩
  | _ => exact ⟨done, h.same rfl rfl rfl rfl rfl rfl h.slot⟩

/-! ### The steps and the credit -/

/-- A step that leaves the credit alone, and what counts against it. -/
structure SameCredit (s s' : System Desc Fd Displays) : Prop where
  credit : s'.credit = s.credit
  acks : s'.acks = s.acks
  written : s'.written = s.written
  frames : s'.sent.countP Data.isFrame = s.sent.countP Data.isFrame
  unacked : s'.unacked = s.unacked
  ship : s'.phase = .ship → 0 < s'.credit

theorem Credit.same (h : Credit s) (hs : SameCredit s s') :
  Credit s'
  := by
  refine ⟨?_, hs.ship, ?_⟩
  · rw [hs.credit]
    exact h.nonneg
  · rw [hs.credit, hs.acks, hs.written, hs.frames]
    exact h.spent

theorem Balanced.same (h : Balanced s) (hs : SameCredit s s') :
  Balanced s'
  := by
  rwa [Balanced, hs.credit, hs.acks, hs.unacked]

theorem sameCredit_drained (h : Credit s) :
  SameCredit s s.drained
  := by
  rw [System.drained.eq_def]
  split
  next => exact ⟨rfl, rfl, rfl, rfl, rfl, nofun⟩
  next =>
      split
      next => exact ⟨rfl, rfl, rfl, rfl, rfl, nofun⟩
      next hpos => exact ⟨rfl, rfl, rfl, rfl, rfl, fun _ => Int.not_le.mp hpos⟩
  next => exact ⟨rfl, rfl, rfl, rfl, rfl, h.ship⟩

theorem sameCredit_authorize (s : System Desc Fd Displays)
    (first : Option (DrmProducerMsg Desc Fd Displays)) (changed : Option Displays) :
  SameCredit s (s.authorize first changed)
  := by
  have hship : ∀ next : Phase Desc Fd Displays, next = (match first with
      | some msg => .forward msg
      | none => .fetch) → next ≠ .ship := by
    rintro next rfl
    cases first <;> nofun
  cases changed with
  | none => exact ⟨rfl, rfl, rfl, rfl, rfl, fun h => absurd h (hship _ rfl)⟩
  | some fresh =>
      refine ⟨rfl, rfl, rfl, ?_, ?_, fun h => absurd h (hship _ rfl)⟩
      · simp [System.authorize, System.send, Data.isFrame]
      · simp [System.authorize, System.send, System.unacked, Data.isFrame]

theorem sameCredit_forward (s : System Desc Fd Displays)
    (msg : DrmProducerMsg Desc Fd Displays) :
  SameCredit s (s.forward msg)
  := by
  cases msg with
  | cursor id width height hotx hoty colors =>
      refine ⟨rfl, rfl, rfl, ?_, ?_, nofun⟩
      · simp [System.forward, System.send, Data.isFrame]
      · simp [System.forward, System.send, System.unacked, Data.isFrame]
  | frame desc fd => exact ⟨rfl, rfl, rfl, rfl, rfl, nofun⟩
  | frameCpu width height data => exact ⟨rfl, rfl, rfl, rfl, rfl, nofun⟩
  | displays displays => exact ⟨rfl, rfl, rfl, rfl, rfl, nofun⟩

/-- What a step does to the credit: nothing, a read, a frame that is sent, an acknowledgement of the
consumer, or what another consumer writes. -/
inductive CreditStep (s s' : System Desc Fd Displays) : Label Desc Fd Displays → Prop where
  | same {i : Label Desc Fd Displays} (h : SameCredit s s') : CreditStep s s' i
  | read {n : ℕ} (hn : n ≤ s.acks)
      (h : SameCredit { s with credit := min (s.credit + n) drmFrameCredit, acks := s.acks - n } s') :
      CreditStep s s' (.read n)
  | ship (hpos : 0 < s.credit) (hcredit : s'.credit = s.credit - 1) (hacks : s'.acks = s.acks)
      (hwritten : s'.written = s.written)
      (hframes : s'.sent.countP Data.isFrame = s.sent.countP Data.isFrame + 1)
      (hunacked : s'.unacked = s.unacked + 1) (hship : s'.phase ≠ .ship) : CreditStep s s' .ship
  | ack (hunacked : s.unacked = s'.unacked + 1)
      (h : SameCredit { s with acks := s.acks + 1, written := s.written + 1, handling := false } s') :
      CreditStep s s' .ack
  | write {n : ℕ} (h : SameCredit { s with acks := s.acks + n, written := s.written + n } s') :
      CreditStep s s' (.write n)

theorem sameCredit_receiveFirst (hstep : s.receiveFirst takes = some s') :
  SameCredit s s'
  := by
  rw [System.receiveFirst.eq_def] at hstep
  split at hstep
  next =>
      split at hstep
      next =>
          obtain rfl := Option.some.inj hstep
          exact ⟨rfl, rfl, rfl, rfl, rfl, nofun⟩
      next => cases hstep
  next =>
      split at hstep
      next =>
          obtain rfl := Option.some.inj hstep
          exact ⟨rfl, rfl, rfl, rfl, rfl, nofun⟩
      next => cases hstep

theorem sameCredit_fetch (hstep : s.fetch takes = some s') :
  SameCredit s s'
  := by
  rw [System.fetch.eq_def] at hstep
  split at hstep
  next =>
      split at hstep
      next =>
          obtain rfl := Option.some.inj hstep
          exact ⟨rfl, rfl, rfl, rfl, rfl, nofun⟩
      next => cases hstep
  next =>
      obtain rfl := Option.some.inj hstep
      exact ⟨rfl, rfl, rfl, rfl, rfl, nofun⟩

theorem creditStep_read (h : Credit s) {n : ℕ} (hn : n ≤ s.acks) (reads : ℕ)
    {again : ℕ → Phase Desc Fd Displays} (hphase : s.phase ≠ .ship)
    (hagain : ∀ k, again k ≠ .ship) :
  CreditStep s (s.read n reads again) (.read n)
  := by
  have hcredit : Credit { s with
      credit := min (s.credit + n) drmFrameCredit, acks := s.acks - n } := by
    have hnonneg := h.nonneg
    have hspent := h.spent
    refine ⟨?_, fun hship => absurd hship hphase, ?_⟩
    · simp only [drmFrameCredit]
      omega
    · simp only
      omega
  apply CreditStep.read hn
  rw [System.read]
  dsimp only
  split
  next => exact sameCredit_drained hcredit
  next => exact ⟨rfl, rfl, rfl, rfl, rfl, fun hship => absurd hship (hagain _)⟩

theorem creditStep_ship (h : Credit s) (hphase : s.phase = .ship) :
  CreditStep s s.ship .ship
  := by
  have hsend : ∀ data : Data Desc Fd Displays, data.isFrame = true →
      CreditStep s { ({ s with latest := none, phase := .drainTop 0 } : System _ _ _).send data with
        credit := s.credit - 1 } .ship := by
    intro data hdata
    apply CreditStep.ship (h.ship hphase)
    · rfl
    · rfl
    · rfl
    · simp [System.send, hdata]
    · simp only [System.send, System.unacked, List.countP_append, List.countP_singleton, hdata,
        if_true]
      omega
    · nofun
  rw [System.ship.eq_def]
  dsimp only
  split
  next => apply hsend _ rfl
  next => apply hsend _ rfl
  next => exact .same ⟨rfl, rfl, rfl, rfl, rfl, nofun⟩

theorem creditStep_of_step (h : Credit s) (hstep : Step s i s') :
  CreditStep s s' i
  := by
  cases hstep.effect with
  | queue msg => exact .same ⟨rfl, rfl, rfl, rfl, rfl, h.ship⟩
  | readTop hn hphase => exact creditStep_read h hn _ (by rw [hphase]; nofun) nofun
  | readEnd hn hphase => exact creditStep_read h hn _ (by rw [hphase]; nofun) nofun
  | wouldBlock => exact .same (sameCredit_drained h)
  | wait _ hreceive => exact .same (sameCredit_receiveFirst hreceive)
  | authorize changed _ => exact .same (sameCredit_authorize s _ changed)
  | forward _ => exact .same (sameCredit_forward s _)
  | fetch _ hfetch => exact .same (sameCredit_fetch hfetch)
  | ship hphase => exact creditStep_ship h hphase
  | @receive data wire hhandling hwire =>
      refine .same ⟨rfl, rfl, rfl, rfl, ?_, h.ship⟩
      simp only [System.unacked, hhandling, hwire, List.countP_cons]
      cases data.isFrame <;> simp
  | ack hhandling =>
      apply CreditStep.ack
      · simp [System.unacked, hhandling]
      · exact ⟨rfl, rfl, rfl, rfl, rfl, h.ship⟩
  | write n => exact .write ⟨rfl, rfl, rfl, rfl, rfl, h.ship⟩

/-- Every step keeps what holds of the credit. -/
theorem credit_step (h : Credit s) (hstep : Step s i s') :
  Credit s'
  := by
  have hnonneg := h.nonneg
  have hspent := h.spent
  cases creditStep_of_step h hstep with
  | same hs => exact h.same hs
  | read hn hs =>
      constructor
      · rw [hs.credit]
        simp only [drmFrameCredit]
        omega
      · exact hs.ship
      · rw [hs.credit, hs.acks, hs.written, hs.frames]
        simp only
        omega
  | ship hpos hcredit hacks hwritten hframes _ hship =>
      refine ⟨by omega, fun h => absurd h hship, ?_⟩
      rw [hcredit, hacks, hwritten, hframes]
      push_cast
      omega
  | ack _ hs =>
      refine ⟨?_, hs.ship, ?_⟩
      · rw [hs.credit]
        exact hnonneg
      · rw [hs.credit, hs.acks, hs.written, hs.frames]
        push_cast
        omega
  | write hs =>
      refine ⟨?_, hs.ship, ?_⟩
      · rw [hs.credit]
        exact hnonneg
      · rw [hs.credit, hs.acks, hs.written, hs.frames]
        push_cast
        omega

/-- Every step with the consumer of the source keeps the balance: a read is never cut off. -/
theorem balanced_step (hc : Credit s) (h : Balanced s) (hi : i.honest = true)
    (hstep : Step s i s') :
  Balanced s'
  := by
  cases creditStep_of_step hc hstep with
  | same hs => exact h.same hs
  | read hn hs =>
      rw [Balanced] at h ⊢
      rw [hs.credit, hs.acks, hs.unacked]
      change min _ _ + (s.unacked : ℤ) + ((s.acks - _ : ℕ) : ℤ) = _
      simp only [drmFrameCredit] at h ⊢
      omega
  | ship _ hcredit hacks _ _ hunacked _ =>
      rw [Balanced] at h ⊢
      rw [hcredit, hacks, hunacked]
      push_cast
      omega
  | ack hunacked hs =>
      rw [Balanced] at h ⊢
      rw [hs.credit, hs.acks]
      push_cast
      omega
  | write => cases hi

/-! ### Runs -/

theorem credit_of_run (hrun : Run Step {} h s) :
  Credit s
  := by
  apply hrun.invariant Credit credit_start
  intro s i s' hs hstep
  apply credit_step hs hstep

theorem flow_of_run (hrun : Run Step {} h s) :
  ∃ done, Flow s done
  := by
  apply hrun.invariant (fun s => ∃ done, Flow s done) ⟨[], flow_start⟩
  rintro s i s' ⟨done, hs⟩ hstep
  apply flow_step hs hstep

theorem balanced_of_run (hrun : Run Step {} h s) (hhonest : ∀ x ∈ h, x.2.honest = true) :
  Balanced s
  := by
  apply And.right (a := Credit s)
  apply hrun.invariant_of (fun _ i => i.honest = true) (fun s => Credit s ∧ Balanced s)
    ⟨credit_start, balanced_start⟩ _ hhonest
  intro s i s' hs hi hstep
  exact ⟨credit_step hs.1 hstep, balanced_step hs.1 hs.2 hi hstep⟩

/-- The credits with the consumer of the source: they are conserved, at most two frames are not yet
handled, and no read of acknowledgements is cut off at the cap. -/
structure Conserved (h : List (System Desc Fd Displays × Label Desc Fd Displays))
    (s : System Desc Fd Displays) : Prop where
  balance : s.credit + s.unacked + s.acks = drmFrameCredit
  nonneg : 0 ≤ s.credit
  le : s.credit ≤ drmFrameCredit
  unacked : s.unacked ≤ 2
  uncut : ∀ x ∈ h, ∀ n, x.2 = .read n → x.1.credit + n ≤ drmFrameCredit

/-- The messages: the frames sent are some of those queued, in order, each the last one taken from
the channel when it was sent; the cursors sent are those queued, in order, but for those that the
loop has in its hand or has not taken; and the frames sent are at most two more than the bytes that
were written. -/
structure Newest (h : List (System Desc Fd Displays × Label Desc Fd Displays))
    (s : System Desc Fd Displays) : Prop where
  frames : (s.sent.filter Data.isFrame).Sublist (s.queued.filterMap DrmProducerMsg.frameData)
  last : ∀ x ∈ h, x.2 = .ship → ∀ f, x.1.latest = some f →
    (x.1.taken.filter DrmProducerMsg.isFrame).getLast? = some f
  cursors : s.sent.filter Data.isCursor
      ++ (s.phase.hand ++ s.queue).filterMap DrmProducerMsg.cursorData
    = s.queued.filterMap DrmProducerMsg.cursorData
  spent : s.sent.countP Data.isFrame ≤ 2 + s.written

theorem Flow.queued_eq (h : Flow s done) :
  s.queued = done ++ (s.phase.hand ++ s.queue)
  := by
  rw [h.queued, h.taken, List.append_assoc]

/-- Where a frame is sent, it is the last one that was taken. -/
theorem Flow.ship_last (h : Flow s done) (hphase : s.phase = .ship)
    {f : DrmProducerMsg Desc Fd Displays} (hlatest : s.latest = some f) :
  (s.taken.filter DrmProducerMsg.isFrame).getLast? = some f
  := by
  have htaken := h.taken
  rw [hphase] at htaken
  rw [htaken]
  change ((done ++ []).filter _).getLast? = _
  rw [List.append_nil]
  apply h.last
  rw [System.pending, hlatest, Option.some_or]

theorem phase_of_ship (hstep : Step s .ship s') :
  s.phase = .ship
  := by
  cases hstep.effect with
  | ship hphase => exact hphase

theorem le_acks_of_read {n : ℕ} (hstep : Step s (.read n) s') :
  n ≤ s.acks
  := by
  cases hstep.effect with
  | readTop hn _ => exact hn
  | readEnd hn _ => exact hn

/-- In every run of a connection the messages are as `Newest` says; with the consumer of the source
the credits are as `Conserved` says, too. -/
theorem stream_of_run {h : List (System Desc Fd Displays × Label Desc Fd Displays)}
    {s : System Desc Fd Displays} (hrun : Run Step {} h s) :
  ((∀ x ∈ h, x.2.honest = true) → Conserved h s) ∧ Newest h s
  := by
  have hcredit := credit_of_run hrun
  have hnonneg := hcredit.nonneg
  constructor
  · intro hhonest
    have hbalanced := balanced_of_run hrun hhonest
    rw [Balanced] at hbalanced
    refine ⟨hbalanced, hnonneg, by omega, ?_, ?_⟩
    · simp only [drmFrameCredit] at hbalanced
      omega
    · rintro ⟨s₁, i⟩ hx n rfl
      obtain ⟨before, after, rfl⟩ := List.append_of_mem hx
      obtain ⟨hbefore, s₂, hstep⟩ := hrun.before
      have hn := le_acks_of_read hstep
      have hbefore := balanced_of_run hbefore fun x hx => hhonest x (List.mem_append_left _ hx)
      rw [Balanced] at hbefore
      simp only
      omega
  · obtain ⟨done, hflow⟩ := flow_of_run hrun
    constructor
    · rw [hflow.queued_eq, List.filterMap_append]
      apply ((List.sublist_append_left _ _).trans hflow.frames).trans
      apply List.sublist_append_left
    · rintro ⟨s₁, i⟩ hx rfl f hlatest
      obtain ⟨before, after, rfl⟩ := List.append_of_mem hx
      obtain ⟨hbefore, s₂, hstep⟩ := hrun.before
      obtain ⟨done₁, hflow₁⟩ := flow_of_run hbefore
      apply hflow₁.ship_last (phase_of_ship hstep) hlatest
    · rw [hflow.queued_eq, hflow.cursors, ← List.filterMap_append]
    · have hspent := hcredit.spent
      simp only [drmFrameCredit] at hspent
      omega

/-- Two frames and a cursor are queued; the later frame is sent, handled and acknowledged. -/
def sampleLabels : List (Label Unit Unit Unit) :=
  [.queue (.frame () none), .wouldBlock, .wait true,
    .queue (.cursor 1 1 1 0 0 [0, 0, 0, 0]), .queue (.frameCpu 1 1 [1, 2, 3, 4]), .authorize none,
    .forward, .fetch true, .forward, .fetch true, .forward, .fetch false, .wouldBlock, .ship,
    .receive, .receive, .ack, .read 1]

theorem stream_sample :
  ∃ (h : List (System Unit Unit Unit × Label Unit Unit Unit)) (s : System Unit Unit Unit),
    Run Step {} h s ∧ s.sent.length = 2 ∧ s.credit = 2 ∧ Conserved h s ∧ Newest h s
  := by
  obtain ⟨h, s, hrun, htest⟩ := Run.exists_of_traceM step {} sampleLabels
    (fun h s => h.all (fun x => x.2.honest) && s.sent.length == 2 && s.credit == 2) (by decide)
  simp only [Bool.and_eq_true, List.all_eq_true, beq_iff_eq] at htest
  obtain ⟨⟨hhonest, hsent⟩, hcredit⟩ := htest
  obtain ⟨hconserved, hnewest⟩ := stream_of_run hrun
  exact ⟨h, s, hrun, hsent, hcredit, hconserved hhonest, hnewest⟩

end VynxDesk.Drm.Stream
