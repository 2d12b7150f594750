import Mathlib.Algebra.Group.Nat.Defs
import Mathlib.Logic.Function.Basic
import VynxDesk.Lib.Run

/-!
# Verdicts on the availability of direct capture

`DRM_STATE` of `server/drm_capturer.rs` keeps the last verdict on whether displays can be captured
directly.  Availability probes, refreshes of either verdict, the warm-up at the start and the refresh
at a login query the displays without its lock and publish what they found under it; a hotplug swap
publishes a list that it was sent.  `DRM_STATE_GEN` counts the publishes.  A refresh compares it with
its value before the query; `probe_and_publish` and `warm_availability` do not, and publish what
others have overtaken (`Availability.not_fresh`).  `DRM_PROBE_IN_FLIGHT` keeps the probes and the
refreshes apart (`Single`), so that this is left to the warm-ups, the refresh at a login and the
swaps (`Availability.fresh_of_run`).

A moment in time is a number of seconds.
-/

namespace VynxDesk.Drm.Availability

/-- `NEGATIVE_TTL`. -/
def negativeTtl : ℕ := 30

/-- `POSITIVE_TTL`. -/
def positiveTtl : ℕ := 15

/-- `DRM_PROBE_MAX_FAILURES`. -/
def drmProbeMaxFailures : UInt32 := 5

/-- `DRM_REFRESH_MAX_FAILURES`. -/
def drmRefreshMaxFailures : UInt32 := 3

/-- `ProbeState`. -/
inductive ProbeState (Display : Type) where
  | unknown
  | unavailable (since : ℕ)
  | available (since : ℕ) (displays : List Display)
  deriving DecidableEq, Repr

/-- `RefreshOutcome`. -/
inductive RefreshOutcome where
  | publish
  | unavailable
  | restamp
  | giveUp
  deriving DecidableEq, Repr

/-- `refresh_outcome`. -/
def refreshOutcome (probe : Option ℕ) (failures : UInt32) : RefreshOutcome :=
  match probe with
  | some 0 => .unavailable
  | some _ => .publish
  | none => if drmRefreshMaxFailures ≤ failures then .giveUp else .restamp

/-- Who queries the displays: `probe_and_publish`, `refresh_available_async`,
`refresh_unavailable_async`, `warm_availability`, `refresh_displays_for_login`. -/
inductive Writer where
  | probe
  | refreshAvailable
  | refreshUnavailable
  | warm
  | login
  deriving DecidableEq, Repr

/-- Where a task stands: about to look at the state, to take `DRM_PROBE_IN_FLIGHT`, to look again
and sample the generation, to begin its query; with its query under way; about to let go of
`DRM_PROBE_IN_FLIGHT`.  A task that did not sample the generation carries `none`.  The numbers
`seen` and `began` are not in the source: they say how many verdicts were published when the task
last looked, and when its query began. -/
inductive Phase where
  | look
  | flag
  | sample
  | query (sampledGen : Option UInt64) (seen : ℕ)
  | waiting (sampledGen : Option UInt64) (seen began : ℕ)
  | release
  deriving DecidableEq, Repr

/-- A task; `attempts` are the rounds left of the loop of `warm_availability`. -/
structure Task where
  writer : Writer
  attempts : ℕ
  phase : Phase
  deriving DecidableEq, Repr

variable {Display : Type} {sampledGen : Option UInt64} {t : ℕ}

/-- The state of the process.  `verdicts` is its history: for each verdict that was published, how
many had been published when its query began, or `none` for a list that was sent. -/
structure System (Display : Type) where
  now : ℕ
  state : ProbeState Display
  gen : UInt64
  inFlight : Bool
  probeFailures : UInt32
  refreshFailures : UInt32
  tasks : ℕ → Option Task
  verdicts : List (Option ℕ)

/-- The process as it starts. -/
def System.start : System Display where
  now := 0
  state := .unknown
  gen := 0
  inFlight := false
  probeFailures := 0
  refreshFailures := 0
  tasks := fun _ => none
  verdicts := []

namespace System

/-- A task moves on, or ends. -/
def setTask (s : System Display) (t : ℕ) (task : Option Task) : System Display :=
  { s with tasks := Function.update s.tasks t task }

/-- `publish_probe_state`, for a verdict whose query began when `began` verdicts were published. -/
def publishProbeState (s : System Display) (began : Option ℕ) (next : ProbeState Display) :
    System Display :=
  { s with state := next, gen := s.gen + 1, verdicts := s.verdicts ++ [began] }

/-- Whether a negative verdict is to be verified again. -/
def staleNo (s : System Display) : Bool :=
  match s.state with
  | .unavailable since => negativeTtl ≤ s.now - since
  | _ => false

/-- Whether there is a positive verdict. -/
def isAvailable (s : System Display) : Bool :=
  match s.state with
  | .available _ _ => true
  | _ => false

/-- What a call does after its look at the state: `availability` and `availability_cached` for a
probe. -/
def look (s : System Display) (task : Task) : Option Task :=
  match task.writer with
  | .probe =>
      match s.state with
      | .available since _ =>
          if positiveTtl ≤ s.now - since then
            some { task with writer := .refreshAvailable, phase := .flag }
          else none
      | .unavailable _ =>
          if s.staleNo then some { task with writer := .refreshUnavailable, phase := .flag }
          else none
      | .unknown => some { task with phase := .flag }
  | .warm =>
      if s.isAvailable then none
      else some { task with phase := .query none s.verdicts.length }
  | .login =>
      if s.isAvailable then
        some { task with phase := .query (some s.gen) s.verdicts.length }
      else none
  | _ => none

/-- A task takes the flag, or ends if another one has it. -/
def takeFlag (s : System Display) (t : ℕ) (task : Task) : System Display :=
  if s.inFlight then s.setTask t none
  else
    let phase := if task.writer = .probe then .query none s.verdicts.length else .sample
    { s with inFlight := true }.setTask t (some { task with phase := phase })

/-- A refresh looks again and samples the generation. -/
def sample (s : System Display) (task : Task) : Task :=
  let goes := if task.writer = .refreshUnavailable then s.staleNo else s.isAvailable
  { task with phase := if goes then .query (some s.gen) s.verdicts.length else .release }

/-- The end of `probe_and_publish`. -/
def finishProbe (s : System Display) (began : ℕ) (result : Option (List Display)) :
    System Display :=
  match result with
  | some [] => s.publishProbeState (some began) (.unavailable s.now)
  | some list =>
      { s with probeFailures := 0 }.publishProbeState (some began) (.available s.now list)
  | none =>
      let n := s.probeFailures + 1
      let s := { s with probeFailures := n }
      if drmProbeMaxFailures ≤ n then s.publishProbeState (some began) (.unavailable s.now) else s

/-- The end of `refresh_unavailable_async`. -/
def finishRefreshUnavailable (s : System Display) (sampledGen : Option UInt64) (began : ℕ)
    (result : Option (List Display)) : System Display :=
  if some s.gen ≠ sampledGen then s
  else
    match result with
    | some (display :: list) =>
        { s with probeFailures := 0 }.publishProbeState (some began)
          (.available s.now (display :: list))
    | _ => s.publishProbeState (some began) (.unavailable s.now)

/-- The end of `refresh_available_async`. -/
def finishRefreshAvailable (s : System Display) (sampledGen : Option UInt64) (began : ℕ)
    (result : Option (List Display)) : System Display :=
  if some s.gen ≠ sampledGen then s
  else
    let failures := if result.isSome then 0 else s.refreshFailures + 1
    let s := { s with refreshFailures := failures }
    match refreshOutcome (result.map List.length) failures with
    | .publish => s.publishProbeState (some began) (.available s.now (result.getD []))
    | .unavailable => s.publishProbeState (some began) (.unavailable s.now)
    | .restamp =>
        match s.state with
        | .available _ displays => { s with state := .available s.now displays }
        | _ => s
    | .giveUp => { s with refreshFailures := 0 }.publishProbeState (some began) .unknown

/-- The end of `refresh_displays_for_login`. -/
def finishLogin (s : System Display) (sampledGen : Option UInt64) (began : ℕ)
    (result : Option (List Display)) : System Display :=
  match result with
  | some (display :: list) =>
      if some s.gen ≠ sampledGen then s
      else if s.isAvailable then
        s.publishProbeState (some began) (.available s.now (display :: list))
      else s
  | _ => s

/-- The end of a query of `warm_availability`. -/
def finishWarm (s : System Display) (t : ℕ) (task : Task) (began : ℕ)
    (result : Option (List Display)) : System Display :=
  match result with
  | some (display :: list) =>
      (s.publishProbeState (some began) (.available s.now (display :: list))).setTask t none
  | _ =>
      s.setTask t
        (if task.attempts = 0 then none
          else some { task with attempts := task.attempts - 1, phase := .look })

/-- The end of a query, under the lock of `DRM_STATE`. -/
def finish (s : System Display) (t : ℕ) (task : Task) (sampledGen : Option UInt64) (began : ℕ)
    (result : Option (List Display)) : System Display :=
  let releasing := some { task with phase := .release }
  match task.writer with
  | .probe => (s.finishProbe began result).setTask t releasing
  | .refreshAvailable => (s.finishRefreshAvailable sampledGen began result).setTask t releasing
  | .refreshUnavailable => (s.finishRefreshUnavailable sampledGen began result).setTask t releasing
  | .warm => s.finishWarm t task began result
  | .login => (s.finishLogin sampledGen began result).setTask t none

/-- `swap_available_displays`. -/
def swapAvailableDisplays (s : System Display) (list : List Display) : System Display :=
  if s.isAvailable then
    if list.isEmpty then s.publishProbeState none (.unavailable s.now)
    else s.publishProbeState none (.available s.now list)
  else s

end System

/-- The steps: time goes on; a call of an availability check (`probe`), of `warm_availability` or of
`refresh_displays_for_login`; the sections of its task, one by one; a hotplug swap. -/
inductive Label (Display : Type) where
  | tick (seconds : ℕ)
  | call (t : ℕ) (writer : Writer)
  | look (t : ℕ)
  | gate (t : ℕ)
  | flag (t : ℕ)
  | sample (t : ℕ)
  | abort (t : ℕ)
  | begin (t : ℕ)
  | finish (t : ℕ) (result : Option (List Display))
  | release (t : ℕ)
  | swap (list : List Display)

/-- One step.  A `gate` is a round of `warm_availability` under X11; an `abort` is a thread that
cannot be spawned. -/
def step (s : System Display) : Label Display → Option (System Display)
  | .tick seconds => some { s with now := s.now + seconds }
  | .call t writer =>
      if (s.tasks t).isNone && (writer == .probe || writer == .warm || writer == .login) then
        some (s.setTask t (some ⟨writer, 9, .look⟩))
      else none
  | .look t =>
      match s.tasks t with
      | some ⟨writer, attempts, .look⟩ => some (s.setTask t (s.look ⟨writer, attempts, .look⟩))
      | _ => none
  | .gate t =>
      match s.tasks t with
      | some ⟨.warm, attempts, .look⟩ =>
          some (s.setTask t (if attempts = 0 then none else some ⟨.warm, attempts - 1, .look⟩))
      | _ => none
  | .flag t =>
      match s.tasks t with
      | some ⟨writer, attempts, .flag⟩ => some (s.takeFlag t ⟨writer, attempts, .flag⟩)
      | _ => none
  | .sample t =>
      match s.tasks t with
      | some ⟨writer, attempts, .sample⟩ =>
          some (s.setTask t (some (s.sample ⟨writer, attempts, .sample⟩)))
      | _ => none
  | .abort t =>
      match s.tasks t with
      | some ⟨writer, attempts, .query _ _⟩ =>
          if writer = .warm ∨ writer = .login then none
          else some (s.setTask t (some ⟨writer, attempts, .release⟩))
      | _ => none
  | .begin t =>
      match s.tasks t with
      | some ⟨writer, attempts, .query sampledGen seen⟩ =>
          some (s.setTask t
            (some ⟨writer, attempts, .waiting sampledGen seen s.verdicts.length⟩))
      | _ => none
  | .finish t result =>
      match s.tasks t with
      | some ⟨writer, attempts, .waiting sampledGen seen began⟩ =>
          some (s.finish t ⟨writer, attempts, .waiting sampledGen seen began⟩ sampledGen began
            result)
      | _ => none
  | .release t =>
      match s.tasks t with
      | some ⟨_, _, .release⟩ => some ({ s with inFlight := false }.setTask t none)
      | _ => none
  | .swap list => some (s.swapAvailableDisplays list)

/-- The steps as a relation. -/
def Step (s : System Display) (i : Label Display) (s' : System Display) : Prop := step s i = some s'

/-! ## Freshness -/

/-- No verdict replaces a newer one: before a verdict is published, no other one is since its query
began. -/
def Fresh (s : System Display) : Prop :=
  ∀ (k b : ℕ), s.verdicts[k]? = some (some b) → b = k

namespace System

/-- A query of `writer` is under way, other than that of the task `t`. -/
def Queries (s : System Display) (t : Option ℕ) (writer : Writer) : Prop :=
  ∃ t' attempts sampledGen seen began,
    some t' ≠ t ∧ s.tasks t' = some ⟨writer, attempts, .waiting sampledGen seen began⟩

/-- Whether a task publishes a verdict at the end of its query, or at least passes the check of the
generation. -/
def publishes (s : System Display) (writer : Writer) (sampledGen : Option UInt64)
    (result : Option (List Display)) : Bool :=
  match writer with
  | .probe => result.isSome || drmProbeMaxFailures ≤ s.probeFailures + 1
  | .warm => !(result.getD []).isEmpty
  | .login => some s.gen = sampledGen && s.isAvailable && !(result.getD []).isEmpty
  | .refreshAvailable | .refreshUnavailable => some s.gen = sampledGen

end System

/-- Nothing is published while the query of another `warm_availability` is under way, and by
`warm_availability`, `refresh_displays_for_login` or a swap nothing while that of a
`probe_and_publish` is; and no task sees the generation wrap around. -/
def Apart (s : System Display) : Label Display → Prop
  | .finish t result =>
      match s.tasks t with
      | some ⟨writer, _, .waiting sampledGen seen _⟩ =>
          s.verdicts.length < seen + 2 ^ 64 ∧
            (s.publishes writer sampledGen result = true → ¬ s.Queries (some t) .warm ∧
              (writer = .warm ∨ writer = .login → ¬ s.Queries (some t) .probe))
      | _ => True
  | .swap _ => s.isAvailable = true → ¬ s.Queries none .warm ∧ ¬ s.Queries none .probe
  | _ => True

/-! ### What a step does -/

/-- What a task remembers is right, where `n` verdicts are published. -/
def Phase.Sound (n : ℕ) : Phase → Prop
  | .query sampledGen seen => seen ≤ n ∧ ∀ g, sampledGen = some g → g = UInt64.ofNat seen
  | .waiting sampledGen seen began =>
      seen ≤ began ∧ began ≤ n ∧ ∀ g, sampledGen = some g → g = UInt64.ofNat seen
  | _ => True

theorem Phase.Sound.mono {n m : ℕ} {phase : Phase} (h : phase.Sound n) (hle : n ≤ m) :
  phase.Sound m
  := by
  cases phase with
  | query sampledGen seen => exact ⟨Nat.le_trans h.1 hle, h.2⟩
  | waiting sampledGen seen began => exact ⟨h.1, Nat.le_trans h.2.1 hle, h.2.2⟩
  | _ => trivial

/-- The task of a step. -/
def Label.task : Label Display → Option ℕ
  | .call t _ | .look t | .gate t | .flag t | .sample t | .abort t | .begin t | .finish t _
  | .release t => some t
  | .tick _ | .swap _ => none

/-- The task has `DRM_PROBE_IN_FLIGHT`. -/
def Task.Holds (task : Task) : Prop :=
  match task.phase with
  | .look | .flag => False
  | .sample | .release => True
  | .query _ _ | .waiting _ _ _ => task.writer ≠ .warm ∧ task.writer ≠ .login

/-- The query of the task is under way, and began when `n` verdicts were published. -/
def Task.Began (task : Task) (n : ℕ) : Prop :=
  match task.phase with
  | .waiting _ _ began => began = n
  | _ => True

/-- The task `t` of the state moves on to `x`: it has the flag only if it had it, and begins its query
only now. -/
structure Moves (s : System Display) (t : ℕ) (x : Task) : Prop where
  sound : s.gen = UInt64.ofNat s.verdicts.length →
    (∀ y, s.tasks t = some y → y.phase.Sound s.verdicts.length) → x.phase.Sound s.verdicts.length
  began : x.Began s.verdicts.length
  holds : x.Holds → ∃ y, s.tasks t = some y ∧ y.Holds

/-- What a step does. -/
inductive Effect (s : System Display) (i : Label Display) (s' : System Display) : Prop where
  | ticks (seconds : ℕ) (heq : s' = { s with now := s.now + seconds })
  | moves (t : ℕ) (task : Option Task) (hi : i.task = some t) (heq : s' = s.setTask t task)
      (hmoves : ∀ x, task = some x → Moves s t x)
  /-- A task takes the flag. -/
  | takes (t : ℕ) (task : Task) (hi : i.task = some t) (hfree : s.inFlight = false)
      (heq : s' = { s with inFlight := true }.setTask t (some task))
      (hsound : task.phase.Sound s.verdicts.length) (hbegan : ∀ n, task.Began n)
  /-- A task lets the flag go. -/
  | releases (t : ℕ) (task : Task) (hi : i.task = some t) (htask : s.tasks t = some task)
      (hholds : task.Holds) (heq : s' = { s with inFlight := false }.setTask t none)
  /-- A query ends. -/
  | ends (t : ℕ) (result : Option (List Display)) (writer : Writer) (attempts : ℕ)
      (sampledGen : Option UInt64) (seen began : ℕ) (hi : i = .finish t result)
      (htask : s.tasks t = some ⟨writer, attempts, .waiting sampledGen seen began⟩)
      (heq : s' = s.finish t ⟨writer, attempts, .waiting sampledGen seen began⟩ sampledGen began
        result)
  | swaps (list : List Display) (hi : i = .swap list) (heq : s' = s.swapAvailableDisplays list)

/-- Within `2 ^ 64` steps a counter shows how many they are. -/
theorem eq_of_ofNat_eq {n m : ℕ} (h : UInt64.ofNat n = UInt64.ofNat m) (hle : m ≤ n)
    (hlt : n < m + 2 ^ 64) :
  n = m
  := by
  have hmod := congrArg UInt64.toNat h
  rw [UInt64.toNat_ofNat', UInt64.toNat_ofNat'] at hmod
  omega

variable {s s' : System Display}

/-- A task that is about to look or to take the flag. -/
theorem Moves.idle {x : Task} (h : x.phase = .look ∨ x.phase = .flag) :
  Moves s t x
  := by
  obtain ⟨writer, attempts, phase⟩ := x
  rcases h with rfl | rfl <;> exact ⟨fun _ _ => trivial, trivial, False.elim⟩

/-- A task that has sampled what is right now, or lets the flag go. -/
theorem Moves.sampled {x : Task} {g : Option UInt64} (hgen : ∀ n, g = some n → n = s.gen)
    (h : x.phase = .query g s.verdicts.length ∨ x.phase = .release)
    (hholds : x.Holds → ∃ y, s.tasks t = some y ∧ y.Holds) :
  Moves s t x
  := by
  obtain ⟨writer, attempts, phase⟩ := x
  rcases h with rfl | rfl
  · refine ⟨?_, trivial, hholds⟩
    intro hcount _
    refine ⟨Nat.le_refl _, ?_⟩
    intro n hn
    rw [hgen n hn, hcount]
  · exact ⟨fun _ _ => trivial, trivial, hholds⟩

/-- What a task does after its look: it ends, takes the flag, or samples the generation. -/
theorem look_cases {task x : Task} (hx : s.look task = some x) :
  x.phase = .flag
    ∨ (x.writer = .warm ∧ x.phase = .query none s.verdicts.length)
    ∨ x.writer = .login ∧ x.phase = .query (some s.gen) s.verdicts.length
  := by
  rw [System.look.eq_def] at hx
  split at hx
  next =>
      left
      split at hx
      next =>
          split at hx
          next =>
              obtain rfl := Option.some.inj hx
              rfl
          next => cases hx
      next =>
          split at hx
          next =>
              obtain rfl := Option.some.inj hx
              rfl
          next => cases hx
      next =>
          obtain rfl := Option.some.inj hx
          rfl
  next hwriter =>
      right; left
      split at hx
      next => cases hx
      next =>
          obtain rfl := Option.some.inj hx
          exact ⟨hwriter, rfl⟩
  next hwriter =>
      right; right
      split at hx
      next =>
          obtain rfl := Option.some.inj hx
          exact ⟨hwriter, rfl⟩
      next => cases hx
  next => cases hx

/-- A refresh samples the generation, or lets the flag go. -/
theorem sample_cases (s : System Display) (task : Task) :
  (s.sample task).phase = .query (some s.gen) s.verdicts.length ∨ (s.sample task).phase = .release
  := by
  rw [System.sample]
  dsimp only
  split
  next =>
      split
      next => exact Or.inl rfl
      next => exact Or.inr rfl
  next =>
      split
      next => exact Or.inl rfl
      next => exact Or.inr rfl

theorem effect_of_step {i : Label Display} (hstep : Step s i s') :
  Effect s i s'
  := by
  rw [Step] at hstep
  cases i with
  | tick seconds =>
      obtain rfl := Option.some.inj hstep
      exact .ticks seconds rfl
  | call t writer =>
      rw [step] at hstep
      split at hstep
      next =>
          obtain rfl := Option.some.inj hstep
          apply Effect.moves t _ rfl rfl
          rintro x ⟨⟩
          exact .idle (.inl rfl)
      next => cases hstep
  | look t =>
      rw [step] at hstep
      split at hstep
      next =>
          obtain rfl := Option.some.inj hstep
          apply Effect.moves t _ rfl rfl
          intro x hx
          rcases look_cases hx with hphase | ⟨hwriter, hphase⟩ | ⟨hwriter, hphase⟩
          · exact .idle (.inr hphase)
          · apply Moves.sampled (g := none) nofun (.inl hphase)
            intro hholds
            rw [Task.Holds, hphase] at hholds
            exact absurd hwriter hholds.1
          · apply Moves.sampled _ (.inl hphase)
            · intro hholds
              rw [Task.Holds, hphase] at hholds
              exact absurd hwriter hholds.2
            · rintro g ⟨⟩
              rfl
      next => cases hstep
  | gate t =>
      rw [step] at hstep
      split at hstep
      next =>
          obtain rfl := Option.some.inj hstep
          apply Effect.moves t _ rfl rfl
          intro x hx
          split at hx
          next => cases hx
          next =>
              obtain rfl := Option.some.inj hx
              exact .idle (.inl rfl)
      next => cases hstep
  | flag t =>
      rw [step] at hstep
      split at hstep
      next =>
          obtain rfl := Option.some.inj hstep
          rw [System.takeFlag]
          split
          next => exact .moves t none rfl rfl nofun
          next hfree =>
              rw [Bool.not_eq_true] at hfree
              apply Effect.takes t _ rfl hfree rfl
              · dsimp only
                split
                next => exact ⟨Nat.le_refl _, nofun⟩
                next => trivial
              · intro n
                rw [Task.Began]
                dsimp only
                split_ifs <;> trivial
      next => cases hstep
  | sample t =>
      rw [step] at hstep
      split at hstep
      next writer attempts htask =>
          obtain rfl := Option.some.inj hstep
          apply Effect.moves t _ rfl rfl
          rintro x ⟨⟩
          apply Moves.sampled _ (sample_cases s ⟨writer, attempts, .sample⟩)
          · intro _
            exact ⟨_, htask, trivial⟩
          · rintro g ⟨⟩
            rfl
      next => cases hstep
  | abort t =>
      rw [step] at hstep
      split at hstep
      next htask =>
          split at hstep
          next => cases hstep
          next hwriter =>
              obtain rfl := Option.some.inj hstep
              apply Effect.moves t _ rfl rfl
              rintro x ⟨⟩
              apply Moves.sampled (g := none) nofun (.inr rfl)
              intro _
              exact ⟨_, htask, not_or.mp hwriter⟩
      next => cases hstep
  | begin t =>
      rw [step] at hstep
      split at hstep
      next htask =>
          obtain rfl := Option.some.inj hstep
          apply Effect.moves t _ rfl rfl
          rintro x ⟨⟩
          refine ⟨?_, rfl, fun hholds => ⟨_, htask, hholds⟩⟩
          intro _ hsound
          obtain ⟨hseen, hsampled⟩ := hsound _ htask
          exact ⟨hseen, Nat.le_refl _, hsampled⟩
      next => cases hstep
  | finish t result =>
      rw [step] at hstep
      split at hstep
      next htask =>
          obtain rfl := Option.some.inj hstep
          exact .ends t result _ _ _ _ _ rfl htask rfl
      next => cases hstep
  | release t =>
      rw [step] at hstep
      split at hstep
      next htask =>
          obtain rfl := Option.some.inj hstep
          exact .releases t _ rfl htask trivial rfl
      next => cases hstep
  | swap list =>
      obtain rfl := Option.some.inj hstep
      exact .swaps list rfl rfl

/-- What a section under the lock does to the verdicts, when `p` says whether it may publish: it
publishes nothing, or `v`. -/
structure Publishes (p : Prop) (v : Option ℕ) (s s' : System Display) : Prop where
  tasks : s'.tasks = s.tasks
  inFlight : s'.inFlight = s.inFlight
  verdicts : (s'.verdicts = s.verdicts ∧ s'.gen = s.gen)
    ∨ p ∧ s'.verdicts = s.verdicts ++ [v] ∧ s'.gen = s.gen + 1

theorem Publishes.same {p : Prop} {v : Option ℕ} (htasks : s'.tasks = s.tasks)
    (hflight : s'.inFlight = s.inFlight) (hverdicts : s'.verdicts = s.verdicts)
    (hgen : s'.gen = s.gen) :
  Publishes p v s s'
  := ⟨htasks, hflight, Or.inl ⟨hverdicts, hgen⟩⟩

theorem Publishes.publish {p : Prop} (v : Option ℕ) (next : ProbeState Display) (hp : p)
    (htasks : s'.tasks = s.tasks) (hflight : s'.inFlight = s.inFlight)
    (hverdicts : s'.verdicts = s.verdicts) (hgen : s'.gen = s.gen) :
  Publishes p v s (s'.publishProbeState v next)
  := by
  refine ⟨htasks, hflight, Or.inr ⟨hp, ?_, ?_⟩⟩
  · rw [System.publishProbeState, hverdicts]
  · rw [System.publishProbeState, hgen]

theorem publishes_finishProbe (s : System Display) (sampledGen : Option UInt64) (began : ℕ)
    (result : Option (List Display)) :
  Publishes (s.publishes .probe sampledGen result = true) (some began) s
    (s.finishProbe began result)
  := by
  rw [System.finishProbe.eq_def]
  split
  next => exact .publish _ _ rfl rfl rfl rfl rfl
  next => exact .publish _ _ rfl rfl rfl rfl rfl
  next =>
      dsimp only
      split
      next hmax => exact .publish _ _ (by simpa [System.publishes] using hmax) rfl rfl rfl rfl
      next => exact .same rfl rfl rfl rfl

theorem publishes_finishRefreshUnavailable (s : System Display) (sampledGen : Option UInt64)
    (began : ℕ) (result : Option (List Display)) :
  Publishes (s.publishes .refreshUnavailable sampledGen result = true) (some began) s
    (s.finishRefreshUnavailable sampledGen began result)
  := by
  rw [System.finishRefreshUnavailable.eq_def]
  split
  next => exact .same rfl rfl rfl rfl
  next hgen =>
      have hp : s.publishes .refreshUnavailable sampledGen result = true :=
        decide_eq_true (not_not.mp hgen)
      split <;> exact .publish _ _ hp rfl rfl rfl rfl

theorem publishes_finishRefreshAvailable (s : System Display) (sampledGen : Option UInt64)
    (began : ℕ) (result : Option (List Display)) :
  Publishes (s.publishes .refreshAvailable sampledGen result = true) (some began) s
    (s.finishRefreshAvailable sampledGen began result)
  := by
  rw [System.finishRefreshAvailable.eq_def]
  split
  next => exact .same rfl rfl rfl rfl
  next hgen =>
      have hp : s.publishes .refreshAvailable sampledGen result = true :=
        decide_eq_true (not_not.mp hgen)
      dsimp only
      split
      next => exact .publish _ _ hp rfl rfl rfl rfl
      next => exact .publish _ _ hp rfl rfl rfl rfl
      next => split <;> exact .same rfl rfl rfl rfl
      next => exact .publish _ _ hp rfl rfl rfl rfl

theorem publishes_finishLogin (s : System Display) (sampledGen : Option UInt64) (began : ℕ)
    (result : Option (List Display)) :
  Publishes (s.publishes .login sampledGen result = true) (some began) s
    (s.finishLogin sampledGen began result)
  := by
  rw [System.finishLogin.eq_def]
  split
  next =>
      split
      next => exact .same rfl rfl rfl rfl
      next hgen =>
          split
          next havailable =>
              refine .publish _ _ ?_ rfl rfl rfl rfl
              simp [System.publishes, havailable, not_not.mp hgen]
          next => exact .same rfl rfl rfl rfl
  next => exact .same rfl rfl rfl rfl

theorem publishes_swap (s : System Display) (list : List Display) :
  Publishes (s.isAvailable = true) none s (s.swapAvailableDisplays list)
  := by
  rw [System.swapAvailableDisplays]
  split
  next havailable =>
      split
      next => exact .publish _ _ havailable rfl rfl rfl rfl
      next => exact .publish _ _ havailable rfl rfl rfl rfl
  next => exact .same rfl rfl rfl rfl

/-- The end of a query publishes or not, and then its task looks again, is about to let the flag go,
or ends. -/
theorem finish_cases (s : System Display) (t attempts seen began : ℕ) (writer : Writer)
    (sampledGen : Option UInt64) (result : Option (List Display)) :
  ∃ s₁ task, Publishes (s.publishes writer sampledGen result = true) (some began) s s₁
    ∧ s.finish t ⟨writer, attempts, .waiting sampledGen seen began⟩ sampledGen began result
      = s₁.setTask t task
    ∧ ∀ x, task = some x → x.phase = .look
      ∨ x.phase = .release ∧ writer ≠ .warm ∧ writer ≠ .login
  := by
  rw [System.finish.eq_def]
  cases writer with
  | probe =>
      refine ⟨_, _, publishes_finishProbe s sampledGen began result, rfl, ?_⟩
      rintro x ⟨⟩
      exact .inr ⟨rfl, nofun, nofun⟩
  | refreshAvailable =>
      refine ⟨_, _, publishes_finishRefreshAvailable s sampledGen began result, rfl, ?_⟩
      rintro x ⟨⟩
      exact .inr ⟨rfl, nofun, nofun⟩
  | refreshUnavailable =>
      refine ⟨_, _, publishes_finishRefreshUnavailable s sampledGen began result, rfl, ?_⟩
      rintro x ⟨⟩
      exact .inr ⟨rfl, nofun, nofun⟩
  | warm =>
      dsimp only
      rw [System.finishWarm.eq_def]
      split
      next display list =>
          exact ⟨_, none, .publish (some began) (.available s.now (display :: list)) rfl rfl rfl rfl
            rfl, rfl, nofun⟩
      next =>
          refine ⟨s, _, .same rfl rfl rfl rfl, rfl, ?_⟩
          intro x hx
          left
          split at hx
          next => cases hx
          next =>
              obtain rfl := Option.some.inj hx
              rfl
  | login => exact ⟨_, none, publishes_finishLogin s sampledGen began result, rfl, nofun⟩

/-! ### The single flight -/

/-- The task `t` has the flag. -/
def System.Holder (s : System Display) (t : ℕ) : Prop := ∃ x, s.tasks t = some x ∧ x.Holds

/-- Probes and refreshes are under way one at a time, and with `DRM_PROBE_IN_FLIGHT` set. -/
structure Single (s : System Display) : Prop where
  flag : ∀ t, s.Holder t → s.inFlight = true
  unique : ∀ t t', s.Holder t → s.Holder t' → t = t'

/-- What the task of a step is afterwards, and what the other ones are. -/
theorem tasks_setTask {t' : ℕ} {task : Option Task} {x : Task}
    (hx : (s.setTask t task).tasks t' = some x) :
  (t' = t ∧ task = some x) ∨ t' ≠ t ∧ s.tasks t' = some x
  := by
  change Function.update s.tasks t task t' = some x at hx
  rcases eq_or_ne t' t with rfl | hne
  · rw [Function.update_self] at hx
    exact .inl ⟨rfl, hx⟩
  · rw [Function.update_of_ne hne] at hx
    exact .inr ⟨hne, hx⟩

theorem Single.mono (h : Single s) (hflight : s'.inFlight = s.inFlight)
    (hholders : ∀ t, s'.Holder t → s.Holder t) :
  Single s'
  := by
  constructor
  · intro t ht
    rw [hflight]
    apply h.flag t (hholders t ht)
  · intro t t' ht ht'
    apply h.unique t t' (hholders t ht) (hholders t' ht')

/-- No task gets the flag by a move that keeps it. -/
theorem holder_setTask {t' : ℕ} {task : Option Task}
    (hholds : ∀ x, task = some x → x.Holds → s.Holder t) (ht' : (s.setTask t task).Holder t') :
  s.Holder t'
  := by
  obtain ⟨x, hx, hx'⟩ := ht'
  rcases tasks_setTask hx with ⟨rfl, htask⟩ | ⟨-, hsame⟩
  · apply hholds x htask hx'
  · exact ⟨x, hsame, hx'⟩

theorem Single.step {i : Label Display} (h : Single s) (hstep : Step s i s') :
  Single s'
  := by
  cases effect_of_step hstep with
  | ticks seconds heq =>
      subst heq
      exact ⟨h.flag, h.unique⟩
  | moves t task hi heq hmoves =>
      subst heq
      exact h.mono rfl fun t' => holder_setTask fun x hx => (hmoves x hx).holds
  | takes t task hi hfree heq hsound hbegan =>
      subst heq
      have hnone : ∀ t', ¬ s.Holder t' := by
        intro t' ht'
        rw [h.flag t' ht'] at hfree
        cases hfree
      have honly : ∀ t', (({ s with inFlight := true } : System Display).setTask t
          (some task)).Holder t' → t' = t := by
        rintro t' ⟨x, hx, hx'⟩
        rcases tasks_setTask hx with ⟨rfl, -⟩ | ⟨-, hsame⟩
        · rfl
        · exact absurd ⟨x, hsame, hx'⟩ (hnone t')
      constructor
      · intro _ _
        rfl
      · intro t₁ t₂ ht₁ ht₂
        rw [honly t₁ ht₁, honly t₂ ht₂]
  | releases t task hi htask hholds heq =>
      subst heq
      have hnone : ∀ t', ¬ (({ s with inFlight := false } : System Display).setTask t
          none).Holder t' := by
        rintro t' ⟨x, hx, hx'⟩
        rcases tasks_setTask hx with ⟨-, hnone⟩ | ⟨hne, hsame⟩
        · cases hnone
        · exact hne (h.unique t' t ⟨x, hsame, hx'⟩ ⟨task, htask, hholds⟩)
      constructor
      · intro t' ht'
        exact absurd ht' (hnone t')
      · intro t₁ t₂ ht₁
        exact absurd ht₁ (hnone t₁)
  | ends t result writer attempts sampledGen seen began hi htask heq =>
      obtain ⟨s₁, task, hp, hfinish, hphase⟩ :=
        finish_cases s t attempts seen began writer sampledGen result
      rw [hfinish] at heq
      subst heq
      have hflight : (s₁.setTask t task).inFlight = s.inFlight := hp.inFlight
      apply h.mono hflight
      intro t' ht'
      have hsame : ∀ t', s₁.Holder t' → s.Holder t' := by
        rintro t' ⟨x, hx, hx'⟩
        rw [hp.tasks] at hx
        exact ⟨x, hx, hx'⟩
      apply hsame
      apply holder_setTask _ ht'
      intro x hx hx'
      refine ⟨⟨writer, attempts, .waiting sampledGen seen began⟩, ?_, ?_⟩
      · rw [hp.tasks, htask]
      · rcases hphase x hx with hlook | ⟨-, hwriter⟩
        · rw [Task.Holds, hlook] at hx'
          exact hx'.elim
        · exact hwriter
  | swaps list hi heq =>
      subst heq
      have hp := publishes_swap s list
      apply h.mono hp.inFlight
      rintro t ⟨x, hx, hx'⟩
      rw [hp.tasks] at hx
      exact ⟨x, hx, hx'⟩

/-! ### The runs whose queries are apart -/

/-- The invariant of the runs in which the queries are apart: the verdicts are counted, none has
replaced a newer one, and nothing was published since the query of a probe or a warm-up began. -/
structure Inv (s : System Display) : Prop where
  gen : s.gen = UInt64.ofNat s.verdicts.length
  fresh : Fresh s
  tasks : ∀ t task, s.tasks t = some task → task.phase.Sound s.verdicts.length
  single : Single s
  current : ∀ t task, s.tasks t = some task → task.writer = .probe ∨ task.writer = .warm →
    task.Began s.verdicts.length

theorem inv_start :
  Inv (System.start : System Display)
  := by
  refine ⟨rfl, ?_, nofun, ⟨?_, ?_⟩, nofun⟩
  · intro k b h
    cases h
  · rintro t ⟨x, ⟨⟩, -⟩
  · rintro t t' ⟨x, ⟨⟩, -⟩

/-- A move of a task by which nothing is published. -/
theorem Inv.setTask (h : Inv s) (hsingle : Single s') (t : ℕ) (task : Option Task)
    (htasks : s'.tasks = (s.setTask t task).tasks) (hverdicts : s'.verdicts = s.verdicts)
    (hgen : s'.gen = s.gen) (hsound : ∀ x, task = some x → x.phase.Sound s.verdicts.length)
    (hbegan : ∀ x, task = some x → x.Began s.verdicts.length) :
  Inv s'
  := by
  refine ⟨?_, ?_, ?_, hsingle, ?_⟩
  · rw [hgen, hverdicts, h.gen]
  · rw [Fresh, hverdicts]
    exact h.fresh
  · intro t' x hx
    rw [htasks] at hx
    rw [hverdicts]
    rcases tasks_setTask hx with ⟨-, htask⟩ | ⟨-, hsame⟩
    · apply hsound x htask
    · apply h.tasks t' x hsame
  · intro t' x hx hwriter
    rw [htasks] at hx
    rw [hverdicts]
    rcases tasks_setTask hx with ⟨-, htask⟩ | ⟨-, hsame⟩
    · apply hbegan x htask
    · apply h.current t' x hsame hwriter

/-- A verdict is published whose query knew all others, while no query is under way that another
verdict could overtake. -/
theorem Inv.publish (h : Inv s) (hsingle : Single s') {v : Option ℕ}
    (hverdicts : s'.verdicts = s.verdicts ++ [v]) (hgen : s'.gen = s.gen + 1)
    (hv : ∀ b, v = some b → b = s.verdicts.length) (htasks : ∀ t x, s'.tasks t = some x →
      s.tasks t = some x ∨ ∀ n, x.phase.Sound n ∧ x.Began n)
    (hcurrent : ∀ t x, s'.tasks t = some x → x.writer = .probe ∨ x.writer = .warm →
      ∀ n, x.Began n) :
  Inv s'
  := by
  refine ⟨?_, ?_, ?_, hsingle, ?_⟩
  · rw [hverdicts, hgen, h.gen, List.length_append, List.length_singleton, UInt64.ofNat_add]
    rfl
  · intro k b hk
    rw [hverdicts, List.getElem?_append] at hk
    split at hk
    next => apply h.fresh k b hk
    next hge =>
        obtain ⟨hlt, heq⟩ := List.getElem?_eq_some_iff.mp hk
        rw [List.length_singleton] at hlt
        have hb := hv b (by simpa using heq)
        omega
  · intro t x hx
    rcases htasks t x hx with hsame | hnew
    · apply (h.tasks t x hsame).mono
      rw [hverdicts]
      simp
    · apply (hnew _).1
  · intro t x hx hwriter
    apply hcurrent t x hx hwriter

/-- Where a task that has sampled the generation finds it again, its query knew all verdicts. -/
theorem began_of_sampled (h : Inv s) {seen began : ℕ}
    (hsound : (Phase.waiting sampledGen seen began).Sound s.verdicts.length)
    (hlt : s.verdicts.length < seen + 2 ^ 64) (hgen : some s.gen = sampledGen) :
  began = s.verdicts.length
  := by
  obtain ⟨hseen, hbegan, hsampled⟩ := hsound
  have hcount := hsampled s.gen hgen.symm
  rw [h.gen] at hcount
  have heq := eq_of_ofNat_eq hcount (Nat.le_trans hseen hbegan) hlt
  omega

/-- What is published at the end of a query knew all verdicts. -/
theorem Inv.began (h : Inv s) {attempts seen began : ℕ} {writer : Writer}
    {result : Option (List Display)}
    (htask : s.tasks t = some ⟨writer, attempts, .waiting sampledGen seen began⟩)
    (hlt : s.verdicts.length < seen + 2 ^ 64)
    (hpublishes : s.publishes writer sampledGen result = true) :
  began = s.verdicts.length
  := by
  have hsampled := began_of_sampled h (h.tasks t _ htask) hlt
  cases writer with
  | probe => exact h.current t _ htask (.inl rfl)
  | warm => exact h.current t _ htask (.inr rfl)
  | refreshAvailable => exact hsampled (of_decide_eq_true hpublishes)
  | refreshUnavailable => exact hsampled (of_decide_eq_true hpublishes)
  | login =>
      rw [System.publishes, Bool.and_eq_true, Bool.and_eq_true] at hpublishes
      exact hsampled (of_decide_eq_true hpublishes.1.1)

/-- The query of a probe that is under way has the flag. -/
theorem holder_of_queries {task : Task} {seen began : ℕ} (htask : s.tasks t = some task)
    (hphase : task.phase = .waiting sampledGen seen began)
    (hwriter : task.writer ≠ .warm ∧ task.writer ≠ .login) :
  s.Holder t
  := by
  refine ⟨task, htask, ?_⟩
  rw [Task.Holds, hphase]
  exact hwriter

/-- A task whose query is not under way began none, and a probe that is under way has the flag. -/
theorem began_or_queries {t₀ : Option ℕ} {task : Task} (htask : s.tasks t = some task)
    (hne : some t ≠ t₀) (hwriter : task.writer = .probe ∨ task.writer = .warm)
    (hwarm : ¬ s.Queries t₀ .warm) :
  (∀ n, task.Began n) ∨ s.Queries t₀ .probe ∧ s.Holder t
  := by
  obtain ⟨writer, attempts, phase⟩ := task
  cases phase with
  | waiting sampledGen seen began =>
      right
      rcases hwriter with rfl | rfl
      · exact ⟨⟨t, attempts, sampledGen, seen, began, hne, htask⟩,
          holder_of_queries htask rfl ⟨nofun, nofun⟩⟩
      · exact absurd ⟨t, attempts, sampledGen, seen, began, hne, htask⟩ hwarm
  | _ =>
      left
      intro n
      trivial

/-- The end of a query keeps the invariant. -/
theorem Inv.finish (h : Inv s) {attempts seen began : ℕ} {writer : Writer}
    {result : Option (List Display)}
    (htask : s.tasks t = some ⟨writer, attempts, .waiting sampledGen seen began⟩)
    (hapart : Apart s (.finish t result))
    (hsingle : Single (s.finish t ⟨writer, attempts, .waiting sampledGen seen began⟩ sampledGen
      began result)) :
  Inv (s.finish t ⟨writer, attempts, .waiting sampledGen seen began⟩ sampledGen began result)
  := by
  rw [Apart, htask] at hapart
  obtain ⟨hlt, hapart⟩ := hapart
  obtain ⟨s₁, task, hp, hfinish, hphase⟩ :=
    finish_cases s t attempts seen began writer sampledGen result
  rw [hfinish] at hsingle ⊢
  have hnew : ∀ x, task = some x → ∀ n, x.phase.Sound n ∧ x.Began n := by
    intro x hx n
    rcases hphase x hx with hlook | ⟨hrelease, -⟩
    · rw [Task.Began, hlook]
      exact ⟨trivial, trivial⟩
    · rw [Task.Began, hrelease]
      exact ⟨trivial, trivial⟩
  obtain ⟨hverdicts, hgen⟩ | ⟨hpublishes, hverdicts, hgen⟩ := hp.verdicts
  · apply h.setTask hsingle t task _ hverdicts hgen
    · intro x hx
      apply (hnew x hx _).1
    · intro x hx
      apply (hnew x hx _).2
    · rw [System.setTask, System.setTask, hp.tasks]
  · obtain ⟨hwarm, hprobe⟩ := hapart hpublishes
    have hothers : ∀ t' x, (s₁.setTask t task).tasks t' = some x →
        (t' ≠ t ∧ s.tasks t' = some x) ∨ ∀ n, x.phase.Sound n ∧ x.Began n := by
      intro t' x hx
      rcases tasks_setTask hx with ⟨-, hx⟩ | ⟨hne, hx⟩
      · right
        apply hnew x hx
      · rw [hp.tasks] at hx
        exact .inl ⟨hne, hx⟩
    apply h.publish hsingle (v := some began) hverdicts hgen
    · rintro b ⟨⟩
      apply h.began htask hlt hpublishes
    · intro t' x hx
      rcases hothers t' x hx with ⟨-, hx⟩ | hx
      · exact .inl hx
      · exact .inr hx
    · intro t' x hx hwriter
      rcases hothers t' x hx with ⟨hne, hx⟩ | hx
      · have hother : some t' ≠ some t := fun heq => hne (Option.some.inj heq)
        rcases began_or_queries hx hother hwriter hwarm with hnot | ⟨hqueries, hholder⟩
        · exact hnot
        · exfalso
          by_cases hfree : writer = .warm ∨ writer = .login
          · exact hprobe hfree hqueries
          · -- the flag keeps probes and refreshes away from the query of a probe
            apply hne
            apply h.single.unique t' t hholder
            exact holder_of_queries htask rfl (not_or.mp hfree)
      · intro n
        apply (hx n).2

/-- A swap keeps the invariant. -/
theorem Inv.swap (h : Inv s) {list : List Display} (hapart : Apart s (.swap list))
    (hsingle : Single (s.swapAvailableDisplays list)) :
  Inv (s.swapAvailableDisplays list)
  := by
  have hp := publishes_swap s list
  obtain ⟨hverdicts, hgen⟩ | ⟨hpublishes, hverdicts, hgen⟩ := hp.verdicts
  · refine ⟨?_, ?_, ?_, hsingle, ?_⟩
    · rw [hgen, hverdicts, h.gen]
    · rw [Fresh, hverdicts]
      exact h.fresh
    · rw [hp.tasks, hverdicts]
      exact h.tasks
    · rw [hp.tasks, hverdicts]
      exact h.current
  · obtain ⟨hwarm, hprobe⟩ := hapart hpublishes
    apply h.publish hsingle (v := none) hverdicts hgen nofun
    · intro t x hx
      rw [hp.tasks] at hx
      exact .inl hx
    · intro t x hx hwriter
      rw [hp.tasks] at hx
      rcases began_or_queries hx (Option.some_ne_none t) hwriter hwarm with hnot | ⟨hqueries, -⟩
      · exact hnot
      · exact absurd hqueries hprobe

/-- Every step whose query is apart keeps the invariant. -/
theorem inv_step {i : Label Display} (h : Inv s) (hapart : Apart s i) (hstep : Step s i s') :
  Inv s'
  := by
  have hsingle := h.single.step hstep
  cases effect_of_step hstep with
  | ticks seconds heq =>
      subst heq
      exact ⟨h.gen, h.fresh, h.tasks, hsingle, h.current⟩
  | moves t task hi heq hmoves =>
      subst heq
      apply h.setTask hsingle t task rfl rfl rfl
      · intro x hx
        apply (hmoves x hx).sound h.gen (h.tasks t)
      · intro x hx
        apply (hmoves x hx).began
  | takes t task hi hfree heq hsound hbegan =>
      subst heq
      apply h.setTask hsingle t (some task) rfl rfl rfl
      · rintro x ⟨⟩
        exact hsound
      · rintro x ⟨⟩
        apply hbegan
  | releases t task hi htask hholds heq =>
      subst heq
      exact h.setTask hsingle t none rfl rfl rfl nofun nofun
  | ends t result writer attempts sampledGen seen began hi htask heq =>
      subst hi heq
      exact h.finish htask hapart hsingle
  | swaps list hi heq =>
      subst hi heq
      exact h.swap hapart hsingle

/-- In every run in which no query of a warm-up is overtaken, and none of a probe is by a warm-up,
by the refresh at a login or by a swap, no verdict replaces a newer one. -/
theorem fresh_of_run {h : List (System Display × Label Display)} {s : System Display}
    (hrun : Run Step System.start h s) (hapart : ∀ x ∈ h, Apart x.1 x.2) :
  Fresh s
  := by
  apply Inv.fresh
  apply hrun.invariant_of Apart Inv inv_start _ hapart
  intro s i s' hs hi hstep
  apply inv_step hs hi hstep

/-- A warm-up finds nothing while the query of a probe is under way, which then finds a display; a
second check of the availability finds the flag taken. -/
def probed : List (Label ℕ) :=
  [.call 0 .probe, .call 1 .warm, .look 0, .look 1, .flag 0, .begin 1, .begin 0, .finish 1 none,
    .call 2 .probe, .look 2, .flag 2, .finish 0 (some [7]), .release 0]

theorem fresh_probed :
  ∃ h s, Run Step (System.start : System ℕ) h s ∧ s.verdicts = [some 0] ∧ Fresh s
  := by
  have htrace : Run.traceM step (System.start : System ℕ) probed = some (_, _) := rfl
  have hrun := Run.of_traceM probed htrace
  refine ⟨_, _, hrun, rfl, fresh_of_run hrun ?_⟩
  simp only [List.forall_mem_cons]
  refine ⟨trivial, trivial, trivial, trivial, trivial, trivial, trivial, ?_, trivial, trivial,
    trivial, ?_, trivial, nofun⟩
  · exact ⟨by decide, nofun⟩
  · refine ⟨by decide, ?_⟩
    intro _
    refine ⟨?_, nofun⟩
    rintro ⟨t', attempts, sampledGen, seen, began, hne, htask⟩
    match t' with
    | 0 => exact hne rfl
    | 1 => cases htask
    | 2 => cases htask
    | t' + 3 => cases htask

/-- A warm-up publishes a display while the query of a probe is under way, which then publishes that
there is none. -/
def overtaken : List (Label ℕ) :=
  [.call 0 .probe, .call 1 .warm, .look 0, .look 1, .flag 0, .begin 0, .begin 1,
    .finish 1 (some [7]), .finish 0 (some [])]

theorem not_fresh :
  ∃ h s, Run Step (System.start : System ℕ) h s ∧ ¬ Fresh s
  := by
  obtain ⟨h, s, hrun, htest⟩ := Run.exists_of_traceM step System.start overtaken
    (fun _ s => s.verdicts == [some 0, some 0]) (by decide)
  rw [beq_iff_eq] at htest
  refine ⟨h, s, hrun, ?_⟩
  intro hfresh
  have hstale := hfresh 1 0 (by rw [htest]; rfl)
  cases hstale

end VynxDesk.Drm.Availability
