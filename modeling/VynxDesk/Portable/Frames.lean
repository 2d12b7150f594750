import Mathlib.Algebra.Group.Nat.Defs
import VynxDesk.Lib.Run

/-!
# Frames in shared memory

The portable service captures frames (`run_capture` of `src/server/portable_service.rs`) and hands
them to a client in another process (`CapturerPortable::frame`) through cells of shared memory.  The
service waits for the client to copy the counter of frames before it captures the next one.  But the
client copies the counter before it reads the frame, and so reads what the service has meanwhile
stored over it (`not_whole`).  In runs where no frame is stored while the client is at another, and
the client turns to none that is being stored, what the client has is one frame that was published
(`whole_of_run`).
-/

namespace VynxDesk.PortableFrames

abbrev Bytes : Type := List UInt8

/-- `FrameInfo`. -/
structure FrameInfo where
  length : ℕ := 0
  width : ℕ := 0
  height : ℕ := 0
  deriving DecidableEq, Repr

/-- What was captured of a display, and the size of the display. -/
structure Frame where
  data : Bytes
  width : ℕ
  height : ℕ
  deriving DecidableEq, Repr

def Frame.info (f : Frame) : FrameInfo := ⟨f.data.length, f.width, f.height⟩

/-! ### The cells -/

/-- The cells that the service and the client share: the two counters of frames, whether capturing
would block, and the frame. -/
structure Shmem where
  wptr : ℕ := 0
  rptr : ℕ := 0
  wouldblock : Bool := true
  info : FrameInfo := {}
  frame : ℕ → UInt8 := fun _ => 0

namespace Shmem

/-- `counter_equal`. -/
def CounterEqual (m : Shmem) : Prop := m.wptr = m.rptr

instance (m : Shmem) : Decidable m.CounterEqual := inferInstanceAs (Decidable (_ = _))

/-- What `counter_ready` does when the counters differ. -/
def copyCounter (m : Shmem) : Shmem := { m with rptr := m.wptr }

/-- `increase_counter`, which reads one counter twice. -/
def increaseCounter (m : Shmem) : Shmem :=
  let iw := m.wptr
  let ir := m.wptr
  let iwPlus1 := if iw = 2 ^ 31 - 1 then 0 else iw + 1
  if ir = iwPlus1 then { m with wptr := iwPlus1, rptr := iw } else { m with wptr := iwPlus1 }

/-- `set_frame_info`. -/
def setFrameInfo (m : Shmem) (info : FrameInfo) : Shmem := { m with info := info }

/-- The bytes of `data` from `start` up to `stop` are stored. -/
def write (m : Shmem) (data : Bytes) (start stop : ℕ) : Shmem :=
  { m with frame := fun i => if start ≤ i ∧ i < stop then data.getD i (m.frame i) else m.frame i }

/-- At most `n` bytes from `start` on, of a slice of that length. -/
def read (m : Shmem) (length start n : ℕ) : Bytes :=
  (List.range (min n (length - start))).map fun i => m.frame (start + i)

end Shmem

/-! ### The service and the client -/

/-- `MAX_DXGI_FAIL_TIME`. -/
def maxDxgiFailTime : ℕ := 5

/-- What the capturer of the service returns.  A failure comes with whether it is one of GDI. -/
inductive Captured where
  | pixelBuffer (data : Bytes)
  | texture
  | desktopChanged
  | wouldBlock
  | failed (isGdi : Bool)
  deriving DecidableEq, Repr

/-- Where the service is in its loop. -/
inductive ServicePc where
  | top
  | capture
  | setFrameInfo (f : Frame)
  | write (f : Frame) (stored : ℕ)
  | wouldblock (f : Frame)
  | increaseCounter (f : Frame)
  | exit
  deriving DecidableEq, Repr

/-- The variables of `run_capture`.  A capturer has the size of its display. -/
structure Service where
  capturer : Option (ℕ × ℕ) := none
  firstFrameCaptured : Bool := false
  dxgiFailedTimes : ℕ := 0
  pc : ServicePc := .top
  deriving DecidableEq, Repr

/-- What `CapturerPortable::frame` returned, and what its caller has read of the pixels: where, and
the bytes. -/
structure Returned where
  info : FrameInfo
  parts : List (ℕ × Bytes) := []
  deriving DecidableEq, Repr

/-- The kinds of the errors of `CapturerPortable::frame`. -/
inductive ErrorKind where
  | wouldBlock
  | invalidData
  | other
  deriving DecidableEq, Repr

/-- Where the client is: between two calls, in a call, or at what a call returned. -/
inductive ClientPc where
  | idle (error : Option ErrorKind)
  | copyCounter
  | length
  | width (length : ℕ)
  | height (length : ℕ)
  | frame (returned : Returned)
  deriving DecidableEq, Repr

/-- The cells, the two parties, the size that the client expects, and what was published, the newest
first. -/
structure State where
  shmem : Shmem := {}
  service : Service := {}
  client : ClientPc := .idle none
  size : ℕ × ℕ
  published : List Frame := []

/-- A step of the service: a round of its loop, which may have to recreate the capturer or get a new
one; a capture; a store, of `n + 1` pixels where it is one of pixels.  Or of the client: the next
one of a call; a read of at most `n + 1` pixels; the end of its use of them. -/
inductive Label where
  | round (recreate : Bool) (created : Option (ℕ × ℕ))
  | capture (captured : Captured)
  | store (n : ℕ)
  | frame
  | read (start n : ℕ)
  | drop
  deriving DecidableEq, Repr

namespace State

/-- The start of a round. -/
def round (s : State) (recreate : Bool) (created : Option (ℕ × ℕ)) : State :=
  match s.service.capturer with
  | none =>
      match created with
      | none => s
      | some size =>
          { s with service := {
              capturer := some size
              firstFrameCaptured := false
              dxgiFailedTimes :=
                if s.service.dxgiFailedTimes > maxDxgiFailTime then 0 else s.service.dxgiFailedTimes
              pc := .capture } }
  | some _ =>
      if recreate then { s with service := { s.service with capturer := none } }
      else if s.service.firstFrameCaptured ∧ ¬ s.shmem.CounterEqual then s
      else { s with service := { s.service with pc := .capture } }

/-- What the service does with what was captured, where `capacity` bytes fit in the cells. -/
def capture (capacity : ℕ) (s : State) : Captured → State
  | .pixelBuffer data =>
      if data.length > capacity then { s with service := { s.service with pc := .exit } }
      else
        let size := s.service.capturer.getD (0, 0)
        { s with service := { s.service with pc := .setFrameInfo ⟨data, size.1, size.2⟩ } }
  | .texture => { s with service := { s.service with pc := .top } }
  | .desktopChanged => { s with service := { s.service with capturer := none, pc := .top } }
  | .wouldBlock =>
      { s with
        shmem := { s.shmem with wouldblock := true }
        service := { s.service with pc := .top } }
  | .failed isGdi =>
      let times := s.service.dxgiFailedTimes + if isGdi then 0 else 1
      if times > maxDxgiFailTime then
        { s with
          shmem := { s.shmem with wouldblock := false }
          service := { s.service with capturer := none, dxgiFailedTimes := times, pc := .top } }
      else { s with service := { s.service with dxgiFailedTimes := times, pc := .top } }

/-- The next store of a frame. -/
def store (s : State) (n : ℕ) : Option State :=
  match s.service.pc with
  | .setFrameInfo f => some { s with
      shmem := s.shmem.setFrameInfo f.info
      service := { s.service with pc := .write f 0 } }
  | .write f stored => some (
      if stored < f.data.length then { s with
        shmem := s.shmem.write f.data stored (stored + (n + 1))
        service := { s.service with pc := .write f (stored + (n + 1)) } }
      else { s with service := { s.service with pc := .wouldblock f } })
  | .wouldblock f => some { s with
      shmem := { s.shmem with wouldblock := true }
      service := { s.service with pc := .increaseCounter f } }
  | .increaseCounter f => some { s with
      shmem := s.shmem.increaseCounter
      service := { s.service with firstFrameCaptured := true, dxgiFailedTimes := 0, pc := .top }
      published := f :: s.published }
  | _ => none

/-- The client goes on. -/
def goOn (s : State) (client : ClientPc) : State := { s with client := client }

/-- The next step of `CapturerPortable::frame`. -/
def frame (capacity : ℕ) (s : State) : Option State :=
  match s.client with
  | .idle _ => some (
      if s.shmem.CounterEqual then
        s.goOn (.idle (some (if s.shmem.wouldblock then .wouldBlock else .other)))
      else s.goOn .copyCounter)
  | .copyCounter => some { s with shmem := s.shmem.copyCounter, client := .length }
  | .length => some (
      let length := s.shmem.info.length
      if 0 < length ∧ length ≤ capacity then s.goOn (.width length)
      else s.goOn (.idle (some .invalidData)))
  | .width length => some (
      if s.shmem.info.width ≠ s.size.1 then s.goOn (.idle (some .wouldBlock))
      else s.goOn (.height length))
  | .height length => some (
      if s.shmem.info.height ≠ s.size.2 then s.goOn (.idle (some .wouldBlock))
      else s.goOn (.frame ⟨⟨length, s.size.1, s.size.2⟩, []⟩))
  | .frame _ => none

/-- What the client has of a frame. -/
def returned (s : State) : Option Returned :=
  match s.client with
  | .frame r => some r
  | _ => none

/-- What a step leads to. -/
def next (capacity : ℕ) (s : State) : Label → Option State
  | .round recreate created =>
      if s.service.pc = .top then some (s.round recreate created) else none
  | .capture captured =>
      if s.service.pc = .capture then some (s.capture capacity captured) else none
  | .store n => s.store n
  | .frame => s.frame capacity
  | .read start n => s.returned.map fun r =>
      s.goOn (.frame { r with
        parts := (start, s.shmem.read r.info.length start (n + 1)) :: r.parts })
  | .drop => s.returned.map fun _ => s.goOn (.idle none)

end State

/-- What the client has is the frame `f`, or parts of it. -/
def Returned.Of (r : Returned) (f : Frame) : Prop :=
  r.info = f.info ∧ ∀ p ∈ r.parts, p.2 = (f.data.drop p.1).take p.2.length

instance (r : Returned) (f : Frame) : Decidable (r.Of f) :=
  inferInstanceAs (Decidable (_ ∧ _))

/-- What the client has is of one frame that was published. -/
def State.Whole (s : State) : Prop :=
  ∀ r ∈ s.returned, ∃ f ∈ s.published, r.Of f

instance (s : State) : Decidable s.Whole :=
  inferInstanceAs (Decidable (∀ r ∈ s.returned, ∃ f ∈ s.published, r.Of f))

/-- The frame that is being stored, and how much of it is. -/
def ServicePc.storing : ServicePc → Option (Frame × ℕ)
  | .write f stored => some (f, stored)
  | .wouldblock f | .increaseCounter f => some (f, f.data.length)
  | _ => none

/-- The client is not at a frame. -/
def ClientPc.isIdle : ClientPc → Bool
  | .idle _ => true
  | _ => false

/-- The service begins to store a frame only when the client is at none, and the client turns to a
new one only when none is being stored. -/
def State.Apart (s : State) : Label → Prop
  | .store _ => s.service.pc.storing.isSome ∨ s.client.isIdle
  | .frame => s.client.isIdle → s.service.pc.storing.isSome → s.shmem.CounterEqual
  | _ => True

instance (s : State) (label : Label) : Decidable (s.Apart label) :=
  match label with
  | .store _ => inferInstanceAs (Decidable (_ ∨ _))
  | .frame => inferInstanceAs (Decidable (_ → _ → s.shmem.CounterEqual))
  | .round _ _ | .capture _ | .read _ _ | .drop => inferInstanceAs (Decidable True)

/-! ### What the cells hold -/

/-- The cells hold a frame up to its first `stored` bytes. -/
structure Shmem.Holds (m : Shmem) (f : Frame) (stored : ℕ) : Prop where
  info : m.info = f.info
  frame : ∀ i b, i < stored → f.data[i]? = some b → m.frame i = b

section

variable {m m' : Shmem} {f : Frame} {stored : ℕ}

@[simp] theorem info_increaseCounter (m : Shmem) : m.increaseCounter.info = m.info
  := by
  rw [Shmem.increaseCounter]
  split <;> split <;> rfl

@[simp] theorem frame_increaseCounter (m : Shmem) : m.increaseCounter.frame = m.frame
  := by
  rw [Shmem.increaseCounter]
  split <;> split <;> rfl

/-- Only the frame and what is said of it matter. -/
theorem Shmem.Holds.congr (h : m.Holds f stored) (hinfo : m'.info = m.info)
    (hframe : m'.frame = m.frame) :
  m'.Holds f stored
  := by
  constructor
  · rw [hinfo, h.info]
  · rw [hframe]
    exact h.frame

theorem Shmem.Holds.setFrameInfo (m : Shmem) (f : Frame) : (m.setFrameInfo f.info).Holds f 0
  := ⟨rfl, nofun⟩

theorem Shmem.Holds.write (h : m.Holds f stored) (stop : ℕ) :
  (m.write f.data stored stop).Holds f stop
  := by
  refine ⟨h.info, ?_⟩
  intro i b hi hb
  change (if stored ≤ i ∧ i < stop then f.data.getD i (m.frame i) else m.frame i) = b
  split
  · rw [List.getD_eq_getElem?_getD, hb]
    rfl
  · exact h.frame i b (by omega) hb

/-- What is behind the end of a frame is not stored. -/
theorem Shmem.Holds.whole (h : m.Holds f stored) (hstored : f.data.length ≤ stored) :
  m.Holds f f.data.length
  := by
  refine ⟨h.info, ?_⟩
  intro i b hi hb
  exact h.frame i b (by omega) hb

/-- A read of a frame that the cells hold. -/
theorem Shmem.Holds.read (h : m.Holds f f.data.length) (start n : ℕ) :
  m.read f.data.length start n = (f.data.drop start).take n
  := by
  have hlength : (m.read f.data.length start n).length = ((f.data.drop start).take n).length := by
    rw [Shmem.read, List.length_map, List.length_range, List.length_take, List.length_drop]
  apply List.ext_getElem hlength
  intro i hread htake
  rw [List.getElem_take, List.getElem_drop]
  have hi : start + i < f.data.length := by
    rw [List.length_take, List.length_drop] at htake
    omega
  simp only [Shmem.read, List.getElem_map, List.getElem_range]
  exact h.frame _ _ hi (List.getElem?_eq_getElem hi)

end

/-! ### The invariant -/

/-- What the client knows of the frame it is at. -/
def ClientPc.Knows (size : ℕ × ℕ) (f : Frame) : ClientPc → Prop
  | .idle _ | .copyCounter | .length => True
  | .width n => n = f.data.length
  | .height n => n = f.data.length ∧ f.width = size.1
  | .frame r => r.Of f

/-- What holds in runs where the service and the client stay apart: the cells hold the frame that is
being stored, or else the one that was published last, which is the one that the client is at. -/
structure Inv (s : State) : Prop where
  storing : ∀ f stored, s.service.pc.storing = some (f, stored) →
    s.client.isIdle ∧ s.shmem.Holds f stored
  stored : s.service.pc.storing = none → ∀ f ∈ s.published.head?, s.shmem.Holds f f.data.length
  unread : s.published = [] → s.shmem.CounterEqual
  client : s.client.isIdle ∨ ∃ f ∈ s.published.head?, s.client.Knows s.size f

section

variable {capacity : ℕ} {size : ℕ × ℕ} {s s' : State} {label : Label}

theorem Inv.start : Inv { size := size } := ⟨nofun, nofun, fun _ => rfl, .inl rfl⟩

/-- Where a round leaves the service. -/
theorem round_eq (s : State) (recreate : Bool) (created : Option (ℕ × ℕ)) :
  ∃ service, s.round recreate created = { s with service := service }
    ∧ (service = s.service ∨ service.pc = s.service.pc ∨ service.pc = .capture)
  := by
  rw [State.round.eq_def]
  split
  · split
    · exact ⟨_, rfl, .inl rfl⟩
    · exact ⟨_, rfl, .inr (.inr rfl)⟩
  · split
    · exact ⟨_, rfl, .inr (.inl rfl)⟩
    · split
      · exact ⟨_, rfl, .inl rfl⟩
      · exact ⟨_, rfl, .inr (.inr rfl)⟩

/-- Where a capture leaves the service. -/
theorem capture_eq (s : State) (captured : Captured) :
  ∃ service wouldblock, s.capture capacity captured
      = { s with service := service, shmem := { s.shmem with wouldblock := wouldblock } }
    ∧ service.pc.storing = none
  := by
  cases captured with
  | pixelBuffer data =>
      rw [State.capture]
      split
      · exact ⟨{ s.service with pc := .exit }, s.shmem.wouldblock, rfl, rfl⟩
      · exact ⟨{ s.service with pc := .setFrameInfo _ }, s.shmem.wouldblock, rfl, rfl⟩
  | texture => exact ⟨_, _, rfl, rfl⟩
  | desktopChanged => exact ⟨_, _, rfl, rfl⟩
  | wouldBlock => exact ⟨_, _, rfl, rfl⟩
  | failed isGdi =>
      rw [State.capture]
      dsimp only
      generalize s.service.dxgiFailedTimes + (if isGdi then 0 else 1) = times
      split
      · exact ⟨{ s.service with capturer := none, dxgiFailedTimes := times, pc := .top }, false,
          rfl, rfl⟩
      · exact ⟨{ s.service with dxgiFailedTimes := times, pc := .top }, s.shmem.wouldblock, rfl,
          rfl⟩

/-- A step of the service that stores nothing of a frame. -/
theorem Inv.service (hinv : Inv s) (hbefore : s.service.pc.storing = none) {service : Service}
    {wouldblock : Bool} (hafter : service.pc.storing = none) :
  Inv { s with service := service, shmem := { s.shmem with wouldblock := wouldblock } }
  := by
  constructor
  · intro f stored hstoring
    cases hafter.symm.trans hstoring
  · intro _ f hf
    exact (hinv.stored hbefore f hf).congr rfl rfl
  · exact hinv.unread
  · exact hinv.client

/-- A store that leaves a frame half stored, while the client is at none. -/
theorem Inv.storePart (hinv : Inv s) {f : Frame} {stored : ℕ} (hidle : s.client.isIdle)
    (hclient : s'.client = s.client) (hpublished : s'.published = s.published)
    (hequal : s.shmem.CounterEqual → s'.shmem.CounterEqual)
    (hstoring : s'.service.pc.storing = some (f, stored)) (hholds : s'.shmem.Holds f stored) :
  Inv s'
  := by
  have hidle' : s'.client.isIdle := by rwa [hclient]
  refine ⟨?_, ?_, ?_, .inl hidle'⟩
  · intro g n hg
    cases hstoring.symm.trans hg
    exact ⟨hidle', hholds⟩
  · intro hnone
    cases hnone.symm.trans hstoring
  · intro hnil
    rw [hpublished] at hnil
    exact hequal (hinv.unread hnil)

/-- A store keeps the invariant. -/
theorem Inv.store (hinv : Inv s) {n : ℕ} (hapart : s.Apart (.store n))
    (hstep : s.store n = some s') :
  Inv s'
  := by
  rw [State.store] at hstep
  split at hstep
  · rename_i f hpc
    cases hstep
    have hidle : s.client.isIdle := by
      rcases hapart with hstoring | hidle
      · rw [hpc] at hstoring
        cases hstoring
      · exact hidle
    exact hinv.storePart hidle rfl rfl id rfl (Shmem.Holds.setFrameInfo _ _)
  · rename_i f stored hpc
    obtain ⟨hidle, hholds⟩ := hinv.storing f stored (by rw [hpc]; rfl)
    split at hstep
    · cases hstep
      exact hinv.storePart hidle rfl rfl id rfl (hholds.write _)
    · rename_i hend
      cases hstep
      exact hinv.storePart hidle rfl rfl id rfl (hholds.whole (by omega))
  · rename_i f hpc
    cases hstep
    obtain ⟨hidle, hholds⟩ := hinv.storing f f.data.length (by rw [hpc]; rfl)
    exact hinv.storePart hidle rfl rfl id rfl (hholds.congr rfl rfl)
  · rename_i f hpc
    cases hstep
    obtain ⟨hidle, hholds⟩ := hinv.storing f f.data.length (by rw [hpc]; rfl)
    refine ⟨nofun, ?_, nofun, .inl hidle⟩
    intro _ f' hf
    cases hf
    exact hholds.congr (info_increaseCounter _) (frame_increaseCounter _)
  · cases hstep

/-- The client goes on, and knows of the frame what it should. -/
theorem Inv.goOn (hinv : Inv s) {client : ClientPc} (hbusy : s.client.isIdle = false)
    (hknows : ∀ f, f ∈ s.published.head? → s.client.Knows s.size f →
      s.shmem.Holds f f.data.length → client.isIdle ∨ client.Knows s.size f) :
  Inv (s.goOn client)
  := by
  have hnone : s.service.pc.storing = none := by
    cases hstoring : s.service.pc.storing with
    | none => rfl
    | some x => exact absurd (hinv.storing _ _ hstoring).1 (by rw [hbusy]; nofun)
  refine ⟨?_, hinv.stored, hinv.unread, ?_⟩
  · intro f stored hstoring
    cases hnone.symm.trans hstoring
  · rcases hinv.client with hidle | ⟨f, hf, hknown⟩
    · rw [hbusy] at hidle
      cases hidle
    · rcases hknows f hf hknown (hinv.stored hnone f hf) with hidle | hknown
      · exact .inl hidle
      · exact .inr ⟨f, hf, hknown⟩

/-- A step of a call keeps the invariant. -/
theorem Inv.frame (hinv : Inv s) (hapart : s.Apart .frame) (hstep : s.frame capacity = some s') :
  Inv s'
  := by
  rw [State.frame] at hstep
  split at hstep
  · rename_i error hclient
    cases hstep
    split
    · exact ⟨fun f n hstoring => ⟨rfl, (hinv.storing f n hstoring).2⟩, hinv.stored, hinv.unread,
        .inl rfl⟩
    · rename_i hunequal
      have hidle : s.client.isIdle := by rw [hclient]; rfl
      -- none is being stored, as the client would not turn to another one then
      have hnone : s.service.pc.storing = none := by
        rw [← Option.not_isSome_iff_eq_none]
        intro hstoring
        exact hunequal (hapart hidle hstoring)
      refine ⟨?_, hinv.stored, hinv.unread, ?_⟩
      · intro f n hstoring
        cases hnone.symm.trans hstoring
      · cases hpublished : s.published with
        | nil => exact absurd (hinv.unread hpublished) hunequal
        | cons f published => exact .inr ⟨f, by simp [State.goOn, hpublished], trivial⟩
  · rename_i hclient
    cases hstep
    have hcopied := hinv.goOn (by rw [hclient]; rfl) fun f _ _ _ =>
      .inr (show ClientPc.length.Knows s.size f from trivial)
    refine ⟨fun f n hstoring => ?_, ?_, fun _ => rfl, hcopied.client⟩
    · cases (hcopied.storing f n hstoring).1
    intro hnone f hf
    exact (hinv.stored hnone f hf).congr rfl rfl
  · rename_i hclient
    cases hstep
    dsimp only
    split
    · apply hinv.goOn (by rw [hclient]; rfl)
      intro f _ _ hholds
      right
      exact congrArg FrameInfo.length hholds.info
    · exact hinv.goOn (by rw [hclient]; rfl) fun _ _ _ _ => .inl rfl
  · rename_i length hclient
    cases hstep
    split
    · exact hinv.goOn (by rw [hclient]; rfl) fun _ _ _ _ => .inl rfl
    · rename_i hwidth
      apply hinv.goOn (by rw [hclient]; rfl)
      intro f _ hknown hholds
      rw [hclient] at hknown
      right
      refine ⟨hknown, ?_⟩
      rw [← not_not.mp hwidth, hholds.info]
      rfl
  · rename_i length hclient
    cases hstep
    split
    · exact hinv.goOn (by rw [hclient]; rfl) fun _ _ _ _ => .inl rfl
    · rename_i hheight
      apply hinv.goOn (by rw [hclient]; rfl)
      intro f _ hknown hholds
      rw [hclient] at hknown
      obtain ⟨rfl, hwidth⟩ := hknown
      have hheight : f.height = s.size.2 := by
        rw [← not_not.mp hheight, hholds.info]
        rfl
      right
      refine ⟨?_, nofun⟩
      rw [Frame.info, hwidth, hheight]
  · cases hstep

theorem returned_eq_some {r : Returned} : s.returned = some r ↔ s.client = .frame r
  := by
  rw [State.returned]
  split
  · rename_i hclient
    rw [hclient, Option.some.injEq, ClientPc.frame.injEq]
  · rename_i hother
    exact ⟨nofun, fun hclient => absurd hclient (hother r)⟩

/-- The client reads some pixels. -/
theorem Inv.read (hinv : Inv s) {r : Returned} (hclient : s.client = .frame r) (start n : ℕ) :
  Inv (s.goOn (.frame { r with
    parts := (start, s.shmem.read r.info.length start (n + 1)) :: r.parts }))
  := by
  apply hinv.goOn (by rw [hclient]; rfl)
  intro f _ hknown hholds
  rw [hclient] at hknown
  obtain ⟨hinfo, hparts⟩ := hknown
  right
  refine ⟨hinfo, ?_⟩
  rw [List.forall_mem_cons]
  refine ⟨?_, hparts⟩
  have hread : s.shmem.read r.info.length start (n + 1) = (f.data.drop start).take (n + 1) := by
    rw [hinfo]
    exact hholds.read start (n + 1)
  dsimp only
  rw [hread, List.length_take, ← List.take_eq_take_min]

theorem Inv.step (hinv : Inv s) (hapart : s.Apart label) (hstep : s.next capacity label = some s') :
  Inv s'
  := by
  cases label with
  | round recreate created =>
      rw [State.next] at hstep
      split_ifs at hstep with hpc
      cases hstep
      obtain ⟨service, heq, hservice⟩ := round_eq s recreate created
      rw [heq]
      have hbefore : s.service.pc.storing = none := by rw [hpc]; rfl
      have hafter : service.pc.storing = none := by
        rcases hservice with rfl | hsame | hcapture
        · exact hbefore
        · rw [hsame, hbefore]
        · rw [hcapture]
          rfl
      exact hinv.service hbefore hafter
  | capture captured =>
      rw [State.next] at hstep
      split_ifs at hstep with hpc
      cases hstep
      obtain ⟨service, wouldblock, heq, hafter⟩ := @capture_eq capacity s captured
      rw [heq]
      exact hinv.service (by rw [hpc]; rfl) hafter
  | store n => exact hinv.store hapart hstep
  | frame => exact hinv.frame hapart hstep
  | read start n =>
      obtain ⟨r, hr, rfl⟩ := Option.map_eq_some_iff.mp hstep
      exact hinv.read (returned_eq_some.mp hr) start n
  | drop =>
      obtain ⟨r, hr, rfl⟩ := Option.map_eq_some_iff.mp hstep
      exact hinv.goOn (by rw [returned_eq_some.mp hr]; rfl) fun _ _ _ _ => .inl rfl

theorem Inv.whole (hinv : Inv s) : s.Whole
  := by
  intro r hr
  have hclient := returned_eq_some.mp hr
  rcases hinv.client with hidle | ⟨f, hf, hknown⟩
  · rw [hclient] at hidle
    cases hidle
  · rw [hclient] at hknown
    exact ⟨f, List.mem_of_mem_head? hf, hknown⟩

/-- In every run where the service begins to store a frame only when the client is at none, and the
client turns to a new one only when none is being stored, what the client has is one frame that was
published, in every state. -/
theorem whole_of_run {h : List (State × Label)}
    (hrun : Run (fun s label s' => s.next capacity label = some s') { size := size } h s)
    (hapart : ∀ x ∈ h, x.1.Apart x.2) :
  (∀ x ∈ h, x.1.Whole) ∧ s.Whole
  := by
  have hinv := hrun.forall_of State.Apart Inv Inv Inv.start (fun _ => id)
    (fun _ _ _ hinv hapart => hinv.step hapart) hapart
  exact ⟨fun x hx => (hinv.1 x hx).whole, hinv.2.whole⟩

/-- A frame is published. -/
def publish (data : Bytes) : List Label :=
  [.capture (.pixelBuffer data), .store 0, .store 0, .store 0, .store 0, .store 0, .store 0]

/-- Two frames are published, and each is read before the next one is stored. -/
theorem whole_sample :
  ∃ h s, Run (fun s label s' => State.next 8 s label = some s') { size := (2, 1) } h s
    ∧ s.published.length = 2 ∧ s.returned = some ⟨⟨2, 2, 1⟩, [(1, [4]), (0, [3])]⟩ ∧ s.Whole
  := by
  obtain ⟨h, s, hrun, htest⟩ := Run.exists_of_traceM (State.next 8) { size := (2, 1) }
    (.round false (some (2, 1)) :: publish [1, 2] ++ List.replicate 5 .frame ++ [.read 0 1, .drop]
      ++ .round false none :: publish [3, 4] ++ List.replicate 5 .frame ++ [.read 0 0, .read 1 7])
    (fun h s => s.published.length = 2 ∧ s.returned = some ⟨⟨2, 2, 1⟩, [(1, [4]), (0, [3])]⟩
      ∧ ∀ x ∈ h, x.1.Apart x.2)
    (by decide +kernel)
  obtain ⟨hpublished, hreturned, hapart⟩ := of_decide_eq_true htest
  exact ⟨h, s, hrun, hpublished, hreturned, (whole_of_run hrun hapart).2⟩

/-- The client copies the counter, and before it reads the frame, half of the next one is stored. -/
theorem not_whole :
  ¬ ∀ (capacity : ℕ) (size : ℕ × ℕ) (h : List (State × Label)) (s : State),
    Run (fun s label s' => s.next capacity label = some s') { size := size } h s → s.Whole
  := by
  intro hall
  obtain ⟨h, s, hrun, hmixed⟩ := Run.exists_of_traceM (State.next 8) { size := (2, 1) }
    (.round false (some (2, 1)) :: publish [1, 2] ++ [.frame, .frame, .round false none,
      .capture (.pixelBuffer [3, 4]), .store 0, .store 0, .frame, .frame, .frame, .read 0 1])
    (fun _ s => ¬ s.Whole) (by decide +kernel)
  exact of_decide_eq_true hmixed (hall _ _ _ _ hrun)

end

end VynxDesk.PortableFrames
