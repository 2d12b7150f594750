import Mathlib.Logic.Function.Basic
import VynxDesk.Drm.Geometry
import VynxDesk.Lib.Run

/-!
# Changes of the layout

A capturer keeps the layout that it was built on until `SNAPSHOT_GENERATION` is bumped; only the
layout poll of `server/display_service.rs` bumps it.  The poll knows from `WaylandLayout`, from the
latch `UNROTATED_SNAPSHOT_PENDING` and from `PROMOTION_OWED` what the capturers were built on.
Session inits, capturer builds and the poll share these step by step.  No capturer is missed, and
while the layout stays there is no second bump (`Layout.rebuilt_of_run`).

A generation is a number of bumps, which is what the `u64` holds in a run of fewer than `2 ^ 64`
bumps; the statements are about such runs of the source.
-/

namespace VynxDesk.Drm

/-- `DisplayRect`. -/
structure DisplayRect where
  name : String
  x : Int32
  y : Int32
  w : Int32
  h : Int32
  transform : Int32
  deriving DecidableEq, Repr

/-- `oriented_physical`. -/
def orientedPhysical (d : WaylandDisplayInfo) : Int32 × Int32 :=
  if d.transform = 90 ∨ d.transform = 270 then (d.height, d.width) else (d.width, d.height)

/-- `logical_rects_of`. -/
def logicalRectsOf (displays : List WaylandDisplayInfo) : List DisplayRect :=
  displays.map fun d =>
    let size :=
      if displays.length = 1 then orientedPhysical d
      else d.logicalSize.getD (orientedPhysical d)
    ⟨d.name, d.x, d.y, size.1, size.2, d.transform⟩

@[simp]
theorem logicalRectsOf_eq_nil (displays : List WaylandDisplayInfo) :
  logicalRectsOf displays = [] ↔ displays = []
  := by
  rw [logicalRectsOf, List.map_eq_nil_iff]

/-- `WaylandLayout`. -/
structure WaylandLayout where
  baseline : List DisplayRect
  live : List DisplayRect
  seen : List DisplayRect
  unseenBuild : Option ℕ
  deriving DecidableEq, Repr

namespace WaylandLayout

/-- The default of `WaylandLayout`. -/
def empty : WaylandLayout where
  baseline := []
  live := []
  seen := []
  unseenBuild := none

/-- `WaylandLayout::reset_baseline`. -/
def resetBaseline (self : WaylandLayout) (baseline : List DisplayRect) : WaylandLayout where
  baseline := baseline
  live := []
  seen := if self.seen = [] then self.baseline else self.seen
  unseenBuild := self.unseenBuild

/-- `WaylandLayout::edge`. -/
def edge (self : WaylandLayout) (live : List DisplayRect) (snapshotMissing : Bool)
    (generation : ℕ) : Bool :=
  if self.unseenBuild = some generation then true
  else if self.seen ≠ [] then self.seen != live
  else if self.baseline = [] then snapshotMissing
  else self.baseline != live

/-- `WaylandLayout::observe`. -/
def observe (self : WaylandLayout) (live : List DisplayRect) : WaylandLayout where
  baseline := self.baseline
  live := live
  seen := live
  unseenBuild := none

/-- `WaylandLayout::note_capturer`. -/
def noteCapturer (self : WaylandLayout) (builtOn : List DisplayRect) (builtGen : ℕ) :
    WaylandLayout :=
  if builtOn = [] then self
  else if self.seen = [] then { self with seen := builtOn }
  else if self.seen ≠ builtOn then
    { self with unseenBuild := some (self.unseenBuild.elim builtGen fun g => max g builtGen) }
  else self

theorem live_noteCapturer (self : WaylandLayout) (builtOn : List DisplayRect) (builtGen : ℕ) :
  (self.noteCapturer builtOn builtGen).live = self.live
  := by
  rw [noteCapturer]
  split_ifs
  all_goals rfl

theorem baseline_noteCapturer (self : WaylandLayout) (builtOn : List DisplayRect)
    (builtGen : ℕ) :
  (self.noteCapturer builtOn builtGen).baseline = self.baseline
  := by
  rw [noteCapturer]
  split_ifs
  all_goals rfl

/-- What is remembered of a capturer of the current generation: the layout it was built on, or that
one was built on another layout than the one that is remembered. -/
def Remembers (self : WaylandLayout) (generation : ℕ) (builtOn : List DisplayRect) : Prop :=
  builtOn ≠ [] ∧ self.seen = builtOn ∨ self.unseenBuild = some generation

variable {self : WaylandLayout} {generation : ℕ} {builtOn : List DisplayRect}

/-- A poll finds an edge if a capturer that is remembered was built on another layout. -/
theorem edge_of_remembers (h : self.Remembers generation builtOn) (live : List DisplayRect)
    (snapshotMissing : Bool) :
  self.edge live snapshotMissing generation = true ∨ builtOn = live
  := by
  rw [edge]
  rcases h with ⟨hne, rfl⟩ | hunseen
  · rcases eq_or_ne self.seen live with heq | hother
    · apply Or.inr heq
    · apply Or.inl
      simp [hne, hother]
  · apply Or.inl
    rw [if_pos hunseen]

theorem Remembers.resetBaseline (h : self.Remembers generation builtOn)
    (baseline : List DisplayRect) :
  (self.resetBaseline baseline).Remembers generation builtOn
  := by
  rcases h with ⟨hne, rfl⟩ | hunseen
  · apply Or.inl
    exact ⟨hne, if_neg hne⟩
  · apply Or.inr hunseen

theorem unseenBuild_noteCapturer_le {builtGen : ℕ} (hgen : builtGen ≤ generation)
    (hunseen : ∀ g, self.unseenBuild = some g → g ≤ generation) :
  ∀ g, (self.noteCapturer builtOn builtGen).unseenBuild = some g → g ≤ generation
  := by
  intro g hg
  rw [noteCapturer] at hg
  split at hg
  next => apply hunseen g hg
  next =>
      split at hg
      next => apply hunseen g hg
      next =>
          split at hg
          next =>
              obtain rfl := Option.some.inj hg
              cases hold : self.unseenBuild with
              | none => exact hgen
              | some g => exact Nat.max_le.mpr ⟨hunseen g hold, hgen⟩
          next => apply hunseen g hg

/-- Noting another capturer does not make the poll forget one. -/
theorem Remembers.noteCapturer (h : self.Remembers generation builtOn) {builtGen : ℕ}
    (hgen : builtGen ≤ generation) (builtOn' : List DisplayRect) :
  (self.noteCapturer builtOn' builtGen).Remembers generation builtOn
  := by
  rw [WaylandLayout.noteCapturer]
  split
  next => exact h
  next =>
      split
      next hseen =>
          rcases h with ⟨hne, rfl⟩ | hunseen
          · cases hne hseen
          · exact Or.inr hunseen
      next =>
          split
          next =>
              rcases h with ⟨hne, hseen⟩ | hunseen
              · exact Or.inl ⟨hne, hseen⟩
              · apply Or.inr
                simp [hunseen, hgen]
          next => exact h

/-- A capturer that is noted is remembered, or older than the current generation. -/
theorem remembers_noteCapturer (hne : builtOn ≠ []) {builtGen : ℕ} (hgen : builtGen ≤ generation)
    (hunseen : ∀ g, self.unseenBuild = some g → g ≤ generation) :
  builtGen < generation ∨ (self.noteCapturer builtOn builtGen).Remembers generation builtOn
  := by
  rcases Nat.lt_or_eq_of_le hgen with hlt | rfl
  · apply Or.inl hlt
  · apply Or.inr
    rw [noteCapturer, if_neg hne]
    split
    next => exact Or.inl ⟨hne, rfl⟩
    next =>
        split
        next =>
            apply Or.inr
            cases hold : self.unseenBuild with
            | none => simp
            | some g =>
                have hle := hunseen g hold
                simp [hle]
        next hseen => exact Or.inl ⟨hne, not_not.mp hseen⟩

end WaylandLayout

namespace Layout

/-- A capturer whose build has completed, with the generation that it read and the layout that it
was built on. -/
structure Capturer where
  snapshotGen : ℕ
  builtOn : List DisplayRect
  deriving DecidableEq, Repr

/-- Whether the next `frame()` asks for a rebuild. -/
def Capturer.layoutChanged (c : Capturer) (generation : ℕ) : Bool := generation != c.snapshotGen

/-- Where a session init stands: the cache is cleared; a desktop rect was found; the layout that is
to be the baseline was read. -/
inductive Init where
  | cleared
  | rect
  | read (layout : List DisplayRect)
  deriving DecidableEq, Repr

/-- Where the build of a capturer stands, after it has read the generation. -/
inductive Build where
  | sampled (snapshotGen : ℕ)
  | snapshot (snapshotGen : ℕ) (drm : List DrmDisplayInfo) (wl : List WaylandDisplayInfo)
  | transformed (snapshotGen : ℕ) (wl : List WaylandDisplayInfo)
  deriving DecidableEq, Repr

/-- Where the polling thread stands.  The number `begun` is not in the source: it says how many
capturers were built before the poll. -/
inductive Poll where
  | idle
  | read (live : List DisplayRect) (begun : ℕ)
  | observed (live : List DisplayRect) (liveChanged : Bool) (begun : ℕ)
  | taken (live : List DisplayRect) (owes : Bool) (begun : ℕ)
  | owing (live : List DisplayRect) (begun : ℕ)
  | clearing (live : List DisplayRect) (begun : ℕ)
  | bumping (live : List DisplayRect) (begun : ℕ)
  | resetting (live : List DisplayRect) (begun : ℕ)
  | setting (live : List DisplayRect) (begun : ℕ)
  | over (live : List DisplayRect) (begun : ℕ) (available : Bool)
  deriving DecidableEq, Repr

/-- The state of the compositor and of the process: `DISPLAYS`, `SNAPSHOT_GENERATION`,
`UNROTATED_SNAPSHOT_PENDING`, `PROMOTION_OWED`, `WAYLAND_LAYOUT`, and the threads.  The list `built`
is its history: the capturers that were built, the oldest first. -/
structure System where
  compositor : List WaylandDisplayInfo
  displays : Option (List WaylandDisplayInfo)
  snapshotGeneration : ℕ
  unrotatedSnapshotPending : Bool
  promotionOwed : Bool
  layout : WaylandLayout
  inits : ℕ → Option Init
  builds : ℕ → Option Build
  poll : Poll
  built : List Capturer

/-- The process as it starts. -/
def System.start (compositor : List WaylandDisplayInfo) : System where
  compositor := compositor
  displays := none
  snapshotGeneration := 0
  unrotatedSnapshotPending := false
  promotionOwed := false
  layout := .empty
  inits := fun _ => none
  builds := fun _ => none
  poll := .idle
  built := []

namespace System

/-- What `get_displays` returns, where `ok` says whether a query of the compositor succeeds. -/
def getDisplays (s : System) (ok : Bool) : List WaylandDisplayInfo :=
  s.displays.getD (if ok then s.compositor else [])

/-- What `get_displays` leaves in the cache. -/
def lookedUp (s : System) (ok : Bool) : System :=
  { s with displays := s.displays.or (if ok then some s.compositor else none) }

/-- A session init moves on, or ends. -/
def setInit (s : System) (i : ℕ) (init : Option Init) : System :=
  { s with inits := Function.update s.inits i init }

/-- A build moves on, or ends. -/
def setBuild (s : System) (b : ℕ) (build : Option Build) : System :=
  { s with builds := Function.update s.builds b build }

/-- What a session init does after it has looked for the desktop rect. -/
def rectOf (s : System) (ok : Bool) : Init :=
  if s.getDisplays ok = [] then .read [] else .rect

/-- A poll begins; `ok` says whether its query of the compositor succeeds. -/
def pollRead (s : System) (ok : Bool) : System :=
  if ok ∧ s.compositor ≠ [] then
    { s with poll := .read (logicalRectsOf s.compositor) s.built.length }
  else { s with poll := .idle }

/-- The next step of a poll; `available` says whether DRM is. -/
def pollNext (s : System) (available : Bool) : Option System :=
  match s.poll with
  | .read live begun =>
      let liveChanged := s.layout.edge live s.displays.isNone s.snapshotGeneration
      some { s with layout := s.layout.observe live, poll := .observed live liveChanged begun }
  | .observed live liveChanged begun =>
      let blindBuild := s.unrotatedSnapshotPending
      some { s with
        unrotatedSnapshotPending := false, poll := .taken live (liveChanged || blindBuild) begun }
  | .taken live owes begun =>
      some { s with promotionOwed := s.promotionOwed || owes, poll := .owing live begun }
  | .owing live begun =>
      if s.promotionOwed ∧ available then
        some { s with promotionOwed := false, poll := .clearing live begun }
      else some { s with poll := .over live begun available }
  | .clearing live begun => some { s with displays := none, poll := .bumping live begun }
  | .bumping live begun =>
      some { s with
        snapshotGeneration := s.snapshotGeneration + 1, poll := .resetting live begun }
  | .resetting live begun =>
      some { s with layout := s.layout.resetBaseline live, poll := .setting live begun }
  | .setting live begun =>
      some { s with layout := { s.layout with live := live }, poll := .over live begun true }
  | .idle | .over _ _ _ => none

/-- The end of a build. -/
def finishBuild (s : System) (b snapshotGen : ℕ) (wl : List WaylandDisplayInfo) : System :=
  { s with
    layout := s.layout.noteCapturer (logicalRectsOf wl) snapshotGen
    builds := Function.update s.builds b none
    built := s.built ++ [⟨snapshotGen, logicalRectsOf wl⟩] }

end System

/-- The steps: the layout changes; the cache is cleared, or filled, by others; the sections of
session inits, of capturer builds and of the poll, one by one. -/
inductive Label where
  | change (wl : List WaylandDisplayInfo)
  | clear
  | lookUp (ok : Bool)
  | initClear (i : ℕ)
  | initRect (i : ℕ) (ok : Bool)
  | initRead (i : ℕ) (ok : Bool)
  | initReset (i : ℕ)
  | initFail (i : ℕ)
  | buildSample (b : ℕ)
  | buildSnapshot (b : ℕ) (drm : List DrmDisplayInfo) (ok : Bool)
  | buildTransform (b : ℕ)
  | buildNote (b : ℕ)
  | pollRead (ok : Bool)
  | pollNext (available : Bool)

/-- One step.  A capturer is built for one of the connectors of a list. -/
def step (s : System) : Label → Option System
  | .change wl => some { s with compositor := wl }
  | .clear => some { s with displays := none }
  | .lookUp ok => some (s.lookedUp ok)
  | .initClear i =>
      match s.inits i with
      | none => some ({ s with displays := none }.setInit i (some .cleared))
      | _ => none
  | .initRect i ok =>
      match s.inits i with
      | some .cleared => some ((s.lookedUp ok).setInit i (some (s.rectOf ok)))
      | _ => none
  | .initRead i ok =>
      match s.inits i with
      | some .rect =>
          some ((s.lookedUp ok).setInit i (some (.read (logicalRectsOf (s.getDisplays ok)))))
      | _ => none
  | .initReset i =>
      match s.inits i with
      | some (.read layout) =>
          some ({ s with layout := s.layout.resetBaseline layout }.setInit i none)
      | _ => none
  | .initFail i => some (s.setInit i none)
  | .buildSample b =>
      match s.builds b with
      | none => some (s.setBuild b (some (.sampled s.snapshotGeneration)))
      | _ => none
  | .buildSnapshot b drm ok =>
      match s.builds b with
      | some (.sampled g) =>
          if drm = [] then none
          else some ((s.lookedUp ok).setBuild b (some (.snapshot g drm (s.getDisplays ok))))
      | _ => none
  | .buildTransform b =>
      match s.builds b with
      | some (.snapshot g drm wl) =>
          let pending := s.unrotatedSnapshotPending || setsUnrotatedSnapshotPending drm wl
          some ({ s with unrotatedSnapshotPending := pending }.setBuild b
            (some (.transformed g wl)))
      | _ => none
  | .buildNote b =>
      match s.builds b with
      | some (.transformed g wl) => some (s.finishBuild b g wl)
      | _ => none
  | .pollRead ok =>
      match s.poll with
      | .idle | .over _ _ _ => some (s.pollRead ok)
      | _ => none
  | .pollNext available => s.pollNext available

/-- The steps as a relation. -/
def Step (s : System) (i : Label) (s' : System) : Prop := step s i = some s'

/-! ## What the steps do -/

/-- Whether the variables of a poll say that a bump is to come. -/
def Poll.promotes : Poll → Bool
  | .observed _ liveChanged _ => liveChanged
  | .taken _ owes _ => owes
  | .clearing _ _ | .bumping _ _ => true
  | _ => false

/-- What the steps of a poll do, and when they can be taken. -/
inductive PollEffect (s : System) (available : Bool) : System → Prop where
  | observe {live : List DisplayRect} {begun : ℕ} (hpoll : s.poll = .read live begun) :
      PollEffect s available { s with
        layout := s.layout.observe live
        poll := .observed live (s.layout.edge live s.displays.isNone s.snapshotGeneration) begun }
  | take {live : List DisplayRect} {liveChanged : Bool} {begun : ℕ}
      (hpoll : s.poll = .observed live liveChanged begun) :
      PollEffect s available { s with
        unrotatedSnapshotPending := false
        poll := .taken live (liveChanged || s.unrotatedSnapshotPending) begun }
  | owe {live : List DisplayRect} {owes : Bool} {begun : ℕ}
      (hpoll : s.poll = .taken live owes begun) :
      PollEffect s available
        { s with promotionOwed := s.promotionOwed || owes, poll := .owing live begun }
  | promote {live : List DisplayRect} {begun : ℕ} (hpoll : s.poll = .owing live begun)
      (howed : s.promotionOwed = true ∧ available = true) :
      PollEffect s available { s with promotionOwed := false, poll := .clearing live begun }
  | finish {live : List DisplayRect} {begun : ℕ} (hpoll : s.poll = .owing live begun)
      (hquiet : ¬ (s.promotionOwed = true ∧ available = true)) :
      PollEffect s available { s with poll := .over live begun available }
  | clear {live : List DisplayRect} {begun : ℕ} (hpoll : s.poll = .clearing live begun) :
      PollEffect s available { s with displays := none, poll := .bumping live begun }
  | bump {live : List DisplayRect} {begun : ℕ} (hpoll : s.poll = .bumping live begun) :
      PollEffect s available { s with
        snapshotGeneration := s.snapshotGeneration + 1, poll := .resetting live begun }
  | reset {live : List DisplayRect} {begun : ℕ} (hpoll : s.poll = .resetting live begun) :
      PollEffect s available
        { s with layout := s.layout.resetBaseline live, poll := .setting live begun }
  | adopt {live : List DisplayRect} {begun : ℕ} (hpoll : s.poll = .setting live begun) :
      PollEffect s available
        { s with layout := { s.layout with live := live }, poll := .over live begun true }

variable {s s' : System} {wl : List WaylandDisplayInfo} {rects : List DisplayRect}
  {available : Bool}

theorem PollEffect.of_pollNext (hstep : s.pollNext available = some s') :
  PollEffect s available s'
  := by
  rw [System.pollNext] at hstep
  split at hstep
  next hpoll =>
      obtain rfl := Option.some.inj hstep
      apply PollEffect.observe hpoll
  next hpoll =>
      obtain rfl := Option.some.inj hstep
      apply PollEffect.take hpoll
  next hpoll =>
      obtain rfl := Option.some.inj hstep
      apply PollEffect.owe hpoll
  next hpoll =>
      split at hstep
      next howed =>
          obtain rfl := Option.some.inj hstep
          apply PollEffect.promote hpoll howed
      next hquiet =>
          obtain rfl := Option.some.inj hstep
          apply PollEffect.finish hpoll hquiet
  next hpoll =>
      obtain rfl := Option.some.inj hstep
      apply PollEffect.clear hpoll
  next hpoll =>
      obtain rfl := Option.some.inj hstep
      apply PollEffect.bump hpoll
  next hpoll =>
      obtain rfl := Option.some.inj hstep
      apply PollEffect.reset hpoll
  next hpoll =>
      obtain rfl := Option.some.inj hstep
      apply PollEffect.adopt hpoll
  next => cases hstep
  next => cases hstep

/-- What the steps do, and when they can be taken. -/
inductive Effect (s : System) : Label → System → Prop where
  | change (wl : List WaylandDisplayInfo) :
      Effect s (.change wl) { s with compositor := wl }
  | clear : Effect s .clear { s with displays := none }
  | lookUp (ok : Bool) : Effect s (.lookUp ok) (s.lookedUp ok)
  | initClear (i : ℕ) :
      Effect s (.initClear i) ({ s with displays := none }.setInit i (some .cleared))
  | initRect (i : ℕ) (ok : Bool) :
      Effect s (.initRect i ok) ((s.lookedUp ok).setInit i (some (s.rectOf ok)))
  | initRead (i : ℕ) (ok : Bool) :
      Effect s (.initRead i ok)
        ((s.lookedUp ok).setInit i (some (.read (logicalRectsOf (s.getDisplays ok)))))
  | initReset {i : ℕ} {layout : List DisplayRect} (hi : s.inits i = some (.read layout)) :
      Effect s (.initReset i)
        ({ s with layout := s.layout.resetBaseline layout }.setInit i none)
  | initFail (i : ℕ) : Effect s (.initFail i) (s.setInit i none)
  | buildSample (b : ℕ) :
      Effect s (.buildSample b) (s.setBuild b (some (.sampled s.snapshotGeneration)))
  | buildSnapshot {b g : ℕ} {drm : List DrmDisplayInfo} (ok : Bool)
      (hb : s.builds b = some (.sampled g)) (hdrm : drm ≠ []) :
      Effect s (.buildSnapshot b drm ok)
        ((s.lookedUp ok).setBuild b (some (.snapshot g drm (s.getDisplays ok))))
  | buildTransform {b g : ℕ} {drm : List DrmDisplayInfo} {wl : List WaylandDisplayInfo}
      (hb : s.builds b = some (.snapshot g drm wl)) :
      Effect s (.buildTransform b)
        ({ s with
          unrotatedSnapshotPending :=
            s.unrotatedSnapshotPending || setsUnrotatedSnapshotPending drm wl }.setBuild b
          (some (.transformed g wl)))
  | buildNote {b g : ℕ} {wl : List WaylandDisplayInfo}
      (hb : s.builds b = some (.transformed g wl)) :
      Effect s (.buildNote b) (s.finishBuild b g wl)
  | pollRead (ok : Bool) (hpoll : s.poll.promotes = false) :
      Effect s (.pollRead ok) (s.pollRead ok)
  | pollNext {available : Bool} {s' : System} (heffect : PollEffect s available s') :
      Effect s (.pollNext available) s'

theorem Step.effect {i : Label} (hstep : Step s i s') :
  Effect s i s'
  := by
  unfold Step step at hstep
  cases i with
  | change wl =>
      obtain rfl := Option.some.inj hstep
      apply Effect.change
  | clear =>
      obtain rfl := Option.some.inj hstep
      apply Effect.clear
  | lookUp ok =>
      obtain rfl := Option.some.inj hstep
      apply Effect.lookUp
  | initFail i =>
      obtain rfl := Option.some.inj hstep
      apply Effect.initFail
  | buildSnapshot b drm ok =>
      dsimp only at hstep
      split at hstep
      next hb =>
          obtain ⟨hdrm, hsome⟩ := Option.ite_none_left_eq_some.mp hstep
          obtain rfl := Option.some.inj hsome
          apply Effect.buildSnapshot ok hb hdrm
      next => cases hstep
  | pollRead ok =>
      dsimp only at hstep
      split at hstep
      next hpoll =>
          obtain rfl := Option.some.inj hstep
          apply Effect.pollRead
          rw [hpoll]
          rfl
      next hpoll =>
          obtain rfl := Option.some.inj hstep
          apply Effect.pollRead
          rw [hpoll]
          rfl
      next => cases hstep
  | pollNext available => exact .pollNext (.of_pollNext hstep)
  | _ =>
      dsimp only at hstep
      split at hstep
      next =>
          obtain rfl := Option.some.inj hstep
          constructor
          all_goals assumption
      next => cases hstep

/-! ## No capturer is missed -/

/-- How many capturers were built before a poll. -/
def Poll.begun : Poll → ℕ
  | .read _ n | .observed _ _ n | .taken _ _ n | .owing _ n | .clearing _ n | .bumping _ n
  | .resetting _ n | .setting _ n | .over _ n _ => n
  | .idle => 0

/-- A bump is to come. -/
def System.Debt (s : System) : Prop :=
  s.promotionOwed = true ∨ s.unrotatedSnapshotPending = true ∨ s.poll.promotes = true

/-- A capturer is older than the current generation, or a bump is to come, or the next poll
remembers it. -/
def System.Covers (s : System) (c : Capturer) : Prop :=
  c.snapshotGen < s.snapshotGeneration ∨ s.Debt
    ∨ s.layout.Remembers s.snapshotGeneration c.builtOn

/-- What a poll has found out about a capturer that was built before it. -/
def System.Accounts (s : System) (c : Capturer) : Prop :=
  match s.poll with
  | .observed live _ _ => c.snapshotGen < s.snapshotGeneration ∨ s.Debt ∨ c.builtOn = live
  | .taken live owes _ =>
      c.snapshotGen < s.snapshotGeneration ∨ (s.promotionOwed || owes) = true ∨ c.builtOn = live
  | .owing live _ =>
      c.snapshotGen < s.snapshotGeneration ∨ s.promotionOwed = true ∨ c.builtOn = live
  | .resetting _ _ | .setting _ _ => c.snapshotGen < s.snapshotGeneration
  | .over live _ true => c.snapshotGen < s.snapshotGeneration ∨ c.builtOn = live
  | _ => True

/-- What is so of a build at a generation; after a build without a snapshot, a bump is to come. -/
def Build.Sound (generation : ℕ) (debt : Prop) : Build → Prop
  | .sampled g => g ≤ generation
  | .snapshot g drm _ => g ≤ generation ∧ drm ≠ []
  | .transformed g wl => g ≤ generation ∧ (wl = [] → g < generation ∨ debt)

theorem Build.Sound.imp {generation : ℕ} {debt debt' : Prop} {build : Build}
    (h : build.Sound generation debt) (himp : debt → debt') :
  build.Sound generation debt'
  := by
  cases build with
  | sampled g => exact h
  | snapshot g drm wl => exact h
  | transformed g wl =>
      refine ⟨h.1, ?_⟩
      intro hwl
      apply (h.2 hwl).imp_right himp

theorem Build.Sound.bump {generation : ℕ} {debt debt' : Prop} {build : Build}
    (h : build.Sound generation debt) :
  build.Sound (generation + 1) debt'
  := by
  cases build with
  | sampled g => exact Nat.le_succ_of_le h
  | snapshot g drm wl => exact ⟨Nat.le_succ_of_le h.1, h.2⟩
  | transformed g wl =>
      refine ⟨Nat.le_succ_of_le h.1, ?_⟩
      intro _
      exact Or.inl (Nat.lt_succ_of_le h.1)

/-- The capturers and the builds are covered. -/
structure Covered (s : System) : Prop where
  unseen : ∀ g, s.layout.unseenBuild = some g → g ≤ s.snapshotGeneration
  builds : ∀ b build, s.builds b = some build → build.Sound s.snapshotGeneration s.Debt
  built : ∀ c ∈ s.built, c.snapshotGen ≤ s.snapshotGeneration
  covers : ∀ c ∈ s.built, s.Covers c

/-- The poll accounts for the capturers that were built before it. -/
structure Polled (s : System) : Prop where
  begun : s.poll.begun ≤ s.built.length
  live : ∀ live n, s.poll = .read live n → live ≠ []
  accounts : ∀ c ∈ s.built.take s.poll.begun, s.Accounts c

/-- The invariant. -/
structure Inv (s : System) : Prop where
  covered : Covered s
  polled : Polled s

theorem inv_start (compositor : List WaylandDisplayInfo) :
  Inv (System.start compositor)
  := by
  constructor
  · exact ⟨nofun, nofun, nofun, nofun⟩
  · exact ⟨Nat.le_refl _, nofun, nofun⟩

/-- What is covered stays so in a step without a bump that forgets no debt and no layout. -/
theorem Covered.moves (h : Covered s) (hgeneration : s'.snapshotGeneration = s.snapshotGeneration)
    (hbuilds : s'.builds = s.builds) (hbuilt : s'.built = s.built)
    (hunseen : ∀ g, s'.layout.unseenBuild = some g → g ≤ s.snapshotGeneration)
    (hdebt : s.Debt → s'.Debt)
    (hremembers : ∀ c ∈ s.built, s.layout.Remembers s.snapshotGeneration c.builtOn →
      s'.Debt ∨ s'.layout.Remembers s.snapshotGeneration c.builtOn) :
  Covered s'
  := by
  constructor
  · rw [hgeneration]
    exact hunseen
  · rw [hgeneration, hbuilds]
    intro b build hb
    apply (h.builds b build hb).imp hdebt
  · rw [hgeneration, hbuilt]
    exact h.built
  · rw [hbuilt]
    intro c hc
    rw [System.Covers, hgeneration]
    rcases h.covers c hc with hold | howed | hseen
    · apply Or.inl hold
    · exact Or.inr (Or.inl (hdebt howed))
    · exact Or.inr (hremembers c hc hseen)

/-- A bump covers everything. -/
theorem Covered.bump (h : Covered s)
    (hgeneration : s'.snapshotGeneration = s.snapshotGeneration + 1)
    (hbuilds : s'.builds = s.builds) (hbuilt : s'.built = s.built)
    (hlayout : s'.layout = s.layout) :
  Covered s'
  := by
  constructor
  · rw [hgeneration, hlayout]
    intro g hg
    exact Nat.le_succ_of_le (h.unseen g hg)
  · rw [hgeneration, hbuilds]
    intro b build hb
    apply (h.builds b build hb).bump
  · rw [hgeneration, hbuilt]
    intro c hc
    exact Nat.le_succ_of_le (h.built c hc)
  · rw [hbuilt]
    intro c hc
    apply Or.inl
    rw [hgeneration]
    exact Nat.lt_succ_of_le (h.built c hc)

/-- What the steps of session inits and builds keep of what the poll works with. -/
structure Keeps (s s' : System) : Prop where
  generation : s'.snapshotGeneration = s.snapshotGeneration
  owed : s'.promotionOwed = s.promotionOwed
  poll : s'.poll = s.poll
  pending : s.unrotatedSnapshotPending = true → s'.unrotatedSnapshotPending = true

theorem Keeps.debt (hk : Keeps s s') (h : s.Debt) :
  s'.Debt
  := by
  rw [System.Debt, hk.owed, hk.poll]
  apply Or.imp_right _ h
  apply Or.imp_left hk.pending

theorem Keeps.accounts (hk : Keeps s s') {c : Capturer} (h : s.Accounts c) :
  s'.Accounts c
  := by
  rw [System.Accounts, hk.poll, hk.generation, hk.owed]
  rw [System.Accounts] at h
  split at h
  next => apply Or.imp_right (Or.imp_left hk.debt) h
  next => exact h
  next => exact h
  next => exact h
  next => exact h
  next => exact h
  next => trivial

theorem Keeps.polled (hk : Keeps s s') (hbuilt : s.built <+: s'.built) (h : Polled s) :
  Polled s'
  := by
  have htake : s'.built.take s.poll.begun = s.built.take s.poll.begun := by
    obtain ⟨later, hlater⟩ := hbuilt
    rw [← hlater, List.take_append_of_le_length h.begun]
  constructor
  · rw [hk.poll]
    exact Nat.le_trans h.begun hbuilt.length_le
  · rw [hk.poll]
    exact h.live
  · rw [hk.poll, htake]
    intro c hc
    apply hk.accounts (h.accounts c hc)

/-- A step that changes nothing that the invariant is about keeps it. -/
theorem Inv.quiet (h : Inv s) (hk : Keeps s s') (hlayout : s'.layout = s.layout)
    (hbuilds : s'.builds = s.builds) (hbuilt : s'.built = s.built) :
  Inv s'
  := by
  constructor
  · apply h.covered.moves hk.generation hbuilds hbuilt _ hk.debt
    · rw [hlayout]
      intro c hc hseen
      apply Or.inr hseen
    · rw [hlayout]
      exact h.covered.unseen
  · exact hk.polled (hbuilt ▸ List.prefix_refl _) h.polled

theorem Inv.resetBaseline (h : Inv s) (baseline : List DisplayRect) :
  Inv { s with layout := s.layout.resetBaseline baseline }
  := by
  have hk : Keeps s { s with layout := s.layout.resetBaseline baseline } := ⟨rfl, rfl, rfl, id⟩
  constructor
  · refine h.covered.moves rfl rfl rfl h.covered.unseen hk.debt ?_
    intro c hc hseen
    exact Or.inr (hseen.resetBaseline baseline)
  · exact hk.polled (List.prefix_refl _) h.polled

theorem Inv.setBuild (h : Inv s) (b : ℕ) {build : Build}
    (hbuild : build.Sound s.snapshotGeneration s.Debt) :
  Inv (s.setBuild b (some build))
  := by
  obtain ⟨hcovered, hpolled⟩ := h
  refine ⟨⟨hcovered.unseen, ?_, hcovered.built, hcovered.covers⟩,
    hpolled.begun, hpolled.live, hpolled.accounts⟩
  intro b' build' hb'
  change Function.update s.builds b (some build) b' = some build' at hb'
  rcases eq_or_ne b' b with rfl | hne
  · rw [Function.update_self] at hb'
    obtain rfl := Option.some.inj hb'
    exact hbuild
  · rw [Function.update_of_ne hne] at hb'
    exact hcovered.builds b' build' hb'

/-- A capturer whose build completes is covered. -/
theorem Inv.finishBuild (h : Inv s) {b g : ℕ} (hb : s.builds b = some (.transformed g wl)) :
  Inv (s.finishBuild b g wl)
  := by
  have hk : Keeps s (s.finishBuild b g wl) := ⟨rfl, rfl, rfl, id⟩
  obtain ⟨hgen, hblind⟩ := h.covered.builds b _ hb
  constructor
  · constructor
    · exact WaylandLayout.unseenBuild_noteCapturer_le hgen h.covered.unseen
    · intro b' build hb'
      change Function.update s.builds b none b' = some build at hb'
      rcases eq_or_ne b' b with rfl | hne
      · rw [Function.update_self] at hb'
        cases hb'
      · rw [Function.update_of_ne hne] at hb'
        exact (h.covered.builds b' build hb').imp hk.debt
    · intro c hc
      rcases List.mem_append.mp hc with hc | hc
      · exact h.covered.built c hc
      · obtain rfl := List.mem_singleton.mp hc
        exact hgen
    · intro c hc
      rcases List.mem_append.mp hc with hc | hc
      · apply (h.covered.covers c hc).imp_right
        apply Or.imp hk.debt
        intro hseen
        exact hseen.noteCapturer hgen _
      · obtain rfl := List.mem_singleton.mp hc
        rcases eq_or_ne wl [] with rfl | hne
        · apply (hblind rfl).imp_right
          intro hdebt
          exact Or.inl (hk.debt hdebt)
        · have hne' : logicalRectsOf wl ≠ [] := by
            simpa using hne
          apply (WaylandLayout.remembers_noteCapturer hne' hgen h.covered.unseen).imp_right
          exact Or.inr
  · exact hk.polled (List.prefix_append _ _) h.polled

/-! ## The steps of a poll -/

/-- The invariant in a step of the poll that changes no layout. -/
theorem Inv.polls (h : Inv s) (hgeneration : s'.snapshotGeneration = s.snapshotGeneration)
    (hbuilds : s'.builds = s.builds) (hbuilt : s'.built = s.built)
    (hlayout : s'.layout = s.layout) (hdebt : s.Debt → s'.Debt) (hpolled : Polled s') :
  Inv s'
  := by
  constructor
  · apply h.covered.moves hgeneration hbuilds hbuilt _ hdebt
    · rw [hlayout]
      intro c hc hseen
      apply Or.inr hseen
    · rw [hlayout]
      exact h.covered.unseen
  · exact hpolled

/-- Where the variables of the poll say nothing, the debt does not depend on where it stands. -/
theorem System.Debt.of_not_promotes (h : s.Debt) (hpoll : s.poll.promotes = false)
    (howed : s.promotionOwed = true → s'.promotionOwed = true)
    (hpending : s.unrotatedSnapshotPending = true → s'.unrotatedSnapshotPending = true) :
  s'.Debt
  := by
  rcases h with h | h | h
  · exact Or.inl (howed h)
  · exact Or.inr (Or.inl (hpending h))
  · rw [hpoll] at h
    cases h

/-- What a poll accounts for where it stands. -/
theorem Polled.of_poll (h : Polled s) {poll : Poll} (hpoll : s.poll = poll) :
  poll.begun ≤ s.built.length
    ∧ ∀ c ∈ s.built.take poll.begun, System.Accounts { s with poll := poll } c
  := by
  obtain rfl := hpoll
  exact ⟨h.begun, h.accounts⟩

theorem Inv.pollRead (h : Inv s) (hpoll : s.poll.promotes = false) (ok : Bool) :
  Inv (s.pollRead ok)
  := by
  rw [System.pollRead]
  split
  next hok =>
      refine h.polls rfl rfl rfl rfl (fun hdebt => hdebt.of_not_promotes hpoll id id) ?_
      refine ⟨Nat.le_refl _, ?_, fun _ _ => trivial⟩
      rintro live n ⟨⟩
      simpa using hok.2
  next =>
      refine h.polls rfl rfl rfl rfl (fun hdebt => hdebt.of_not_promotes hpoll id id) ?_
      exact ⟨Nat.zero_le _, nofun, nofun⟩

/-- An edge is found if a capturer of the current generation is not built on what is observed. -/
theorem Inv.observe (h : Inv s) {live : List DisplayRect} {begun : ℕ}
    (hpoll : s.poll = .read live begun) (hs' : s' = { s with
      layout := s.layout.observe live
      poll := .observed live (s.layout.edge live s.displays.isNone s.snapshotGeneration) begun }) :
  Inv s'
  := by
  have hne : live ≠ [] := h.polled.live _ _ hpoll
  have hbegun : begun ≤ s.built.length := (h.polled.of_poll hpoll).1
  have hdebt : s.Debt → s'.Debt := by
    intro hdebt
    apply hdebt.of_not_promotes
    · rw [hpoll]
      rfl
    · rw [hs']
      exact id
    · rw [hs']
      exact id
  have hedge : ∀ c : Capturer, s.layout.Remembers s.snapshotGeneration c.builtOn →
      s'.Debt ∨ c.builtOn = live := by
    intro c hseen
    apply (WaylandLayout.edge_of_remembers hseen live s.displays.isNone).imp_left
    intro hchanged
    rw [hs']
    exact Or.inr (Or.inr hchanged)
  constructor
  · apply h.covered.moves _ _ _ _ hdebt
    · intro c hc hseen
      apply (hedge c hseen).imp_right
      intro heq
      rw [hs', heq]
      exact Or.inl ⟨hne, rfl⟩
    all_goals rw [hs']
    nofun
  · rw [hs'] at hdebt hedge ⊢
    refine ⟨hbegun, nofun, ?_⟩
    intro c hc
    apply (h.covered.covers c (List.mem_of_mem_take hc)).imp_right
    rintro (howed | hseen)
    · exact Or.inl (hdebt howed)
    · exact hedge c hseen

theorem Inv.take (h : Inv s) {live : List DisplayRect} {liveChanged : Bool} {begun : ℕ}
    (hpoll : s.poll = .observed live liveChanged begun) :
  Inv { s with
    unrotatedSnapshotPending := false
    poll := .taken live (liveChanged || s.unrotatedSnapshotPending) begun }
  := by
  have hdebt : s.Debt →
      (s.promotionOwed || (liveChanged || s.unrotatedSnapshotPending)) = true := by
    rw [System.Debt, hpoll, Bool.or_eq_true, Bool.or_eq_true]
    rintro (howed | hpending | hchanged)
    · exact Or.inl howed
    · exact Or.inr (Or.inr hpending)
    · exact Or.inr (Or.inl hchanged)
  refine h.polls rfl rfl rfl rfl ?_ ?_
  · intro hold
    rcases Bool.or_eq_true_iff.mp (hdebt hold) with howed | howes
    · exact Or.inl howed
    · exact Or.inr (Or.inr howes)
  · obtain ⟨hbegun, haccounts⟩ := h.polled.of_poll hpoll
    refine ⟨hbegun, nofun, ?_⟩
    intro c hc
    apply (haccounts c hc).imp_right
    apply Or.imp_left
    intro hold
    apply hdebt
    rwa [System.Debt, hpoll]

theorem Inv.owe (h : Inv s) {live : List DisplayRect} {owes : Bool} {begun : ℕ}
    (hpoll : s.poll = .taken live owes begun) :
  Inv { s with promotionOwed := s.promotionOwed || owes, poll := .owing live begun }
  := by
  refine h.polls rfl rfl rfl rfl ?_ ?_
  · rw [System.Debt, hpoll]
    rintro (howed | hpending | howes)
    · exact Or.inl (by simp [howed])
    · exact Or.inr (Or.inl hpending)
    · have howes' : owes = true := howes
      exact Or.inl (by simp [howes'])
  · obtain ⟨hbegun, haccounts⟩ := h.polled.of_poll hpoll
    exact ⟨hbegun, nofun, haccounts⟩

theorem Inv.over (h : Inv s) {live : List DisplayRect} {begun : ℕ}
    (hpoll : s.poll = .owing live begun) (hquiet : ¬ (s.promotionOwed = true ∧ available = true)) :
  Inv { s with poll := .over live begun available }
  := by
  have hpromotes : s.poll.promotes = false := by
    rw [hpoll]
    rfl
  refine h.polls rfl rfl rfl rfl (fun hdebt => hdebt.of_not_promotes hpromotes id id) ?_
  obtain ⟨hbegun, haccounts⟩ := h.polled.of_poll hpoll
  refine ⟨hbegun, nofun, ?_⟩
  intro c hc
  cases available with
  | false => trivial
  | true =>
      apply (haccounts c hc).imp_right
      rintro (howed | hbuilt)
      · cases hquiet ⟨howed, rfl⟩
      · exact hbuilt

/-- Once a promotion is under way, a poll needs no account until the bump. -/
theorem Inv.promote (h : Inv s) (hbegun : s'.poll.begun = s.poll.begun)
    (hgeneration : s'.snapshotGeneration = s.snapshotGeneration) (hbuilds : s'.builds = s.builds)
    (hbuilt : s'.built = s.built) (hlayout : s'.layout = s.layout)
    (hpoll : ∃ live begun, s'.poll = .clearing live begun ∨ s'.poll = .bumping live begun) :
  Inv s'
  := by
  obtain ⟨live, begun, hpoll⟩ := hpoll
  apply h.polls hgeneration hbuilds hbuilt hlayout
  · intro _
    apply Or.inr
    apply Or.inr
    rcases hpoll with hpoll | hpoll <;> rw [hpoll] <;> rfl
  · constructor
    · rw [hbegun, hbuilt]
      exact h.polled.begun
    · intro live' n hread
      rw [hread] at hpoll
      simp at hpoll
    · intro c _
      rw [System.Accounts]
      rcases hpoll with hpoll | hpoll <;> rw [hpoll] <;> trivial

theorem Inv.bump (h : Inv s) {live : List DisplayRect} {begun : ℕ}
    (hpoll : s.poll = .bumping live begun) :
  Inv { s with snapshotGeneration := s.snapshotGeneration + 1, poll := .resetting live begun }
  := by
  constructor
  · exact h.covered.bump rfl rfl rfl rfl
  · refine ⟨(h.polled.of_poll hpoll).1, nofun, ?_⟩
    intro c hc
    exact Nat.lt_succ_of_le (h.covered.built c (List.mem_of_mem_take hc))

/-- After the bump, a poll changes only what it does not remember the capturers by. -/
theorem Inv.reset (h : Inv s) {live : List DisplayRect} {begun : ℕ}
    (hpoll : s.poll = .resetting live begun) :
  Inv { s with layout := s.layout.resetBaseline live, poll := .setting live begun }
  := by
  have hpromotes : s.poll.promotes = false := by
    rw [hpoll]
    rfl
  constructor
  · refine h.covered.moves rfl rfl rfl h.covered.unseen
      (fun hdebt => hdebt.of_not_promotes hpromotes id id) ?_
    intro c hc hseen
    exact Or.inr (hseen.resetBaseline live)
  · obtain ⟨hbegun, haccounts⟩ := h.polled.of_poll hpoll
    exact ⟨hbegun, nofun, haccounts⟩

theorem Inv.set (h : Inv s) {live : List DisplayRect} {begun : ℕ}
    (hpoll : s.poll = .setting live begun) :
  Inv { s with layout := { s.layout with live := live }, poll := .over live begun true }
  := by
  have hpromotes : s.poll.promotes = false := by
    rw [hpoll]
    rfl
  constructor
  · refine h.covered.moves rfl rfl rfl h.covered.unseen
      (fun hdebt => hdebt.of_not_promotes hpromotes id id) ?_
    intro c hc hseen
    exact Or.inr hseen
  · obtain ⟨hbegun, haccounts⟩ := h.polled.of_poll hpoll
    refine ⟨hbegun, nofun, ?_⟩
    intro c hc
    exact Or.inl (haccounts c hc)

theorem inv_pollNext (h : Inv s) (heffect : PollEffect s available s') :
  Inv s'
  := by
  cases heffect with
  | observe hpoll => exact h.observe hpoll rfl
  | take hpoll => exact h.take hpoll
  | owe hpoll => exact h.owe hpoll
  | @promote live begun hpoll _ =>
      refine h.promote ?_ rfl rfl rfl rfl ⟨live, begun, Or.inl rfl⟩
      rw [hpoll]
      rfl
  | finish hpoll hquiet => exact h.over hpoll hquiet
  | @clear live begun hpoll =>
      refine h.promote ?_ rfl rfl rfl rfl ⟨live, begun, Or.inr rfl⟩
      rw [hpoll]
      rfl
  | bump hpoll => exact h.bump hpoll
  | reset hpoll => exact h.reset hpoll
  | adopt hpoll => exact h.set hpoll

theorem Inv.latch (h : Inv s) (drm : List DrmDisplayInfo) (wl : List WaylandDisplayInfo) :
  Inv { s with
    unrotatedSnapshotPending :=
      s.unrotatedSnapshotPending || setsUnrotatedSnapshotPending drm wl }
  := by
  refine h.quiet ⟨rfl, rfl, rfl, ?_⟩ rfl rfl rfl
  intro hpending
  simp [hpending]

/-- What the steps that look up the displays or clear them keep. -/
theorem keeps_quiet (hgeneration : s'.snapshotGeneration = s.snapshotGeneration)
    (howed : s'.promotionOwed = s.promotionOwed) (hpoll : s'.poll = s.poll)
    (hpending : s'.unrotatedSnapshotPending = s.unrotatedSnapshotPending) :
  Keeps s s'
  := ⟨hgeneration, howed, hpoll, fun h => hpending ▸ h⟩

/-- Every step keeps the invariant. -/
theorem inv_step {i : Label} (h : Inv s) (hstep : Step s i s') :
  Inv s'
  := by
  have hquiet : ∀ {t : System}, t.snapshotGeneration = s.snapshotGeneration →
      t.promotionOwed = s.promotionOwed → t.poll = s.poll →
      t.unrotatedSnapshotPending = s.unrotatedSnapshotPending → t.layout = s.layout →
      t.builds = s.builds → t.built = s.built → Inv t := by
    intro t hgeneration howed hpoll hpending hlayout hbuilds hbuilt
    exact h.quiet (keeps_quiet hgeneration howed hpoll hpending) hlayout hbuilds hbuilt
  cases hstep.effect with
  | change wl => exact hquiet rfl rfl rfl rfl rfl rfl rfl
  | clear => exact hquiet rfl rfl rfl rfl rfl rfl rfl
  | lookUp ok => exact hquiet rfl rfl rfl rfl rfl rfl rfl
  | initClear i => exact hquiet rfl rfl rfl rfl rfl rfl rfl
  | initRect i ok => exact hquiet rfl rfl rfl rfl rfl rfl rfl
  | initRead i ok => exact hquiet rfl rfl rfl rfl rfl rfl rfl
  | initReset _ =>
      exact (h.resetBaseline _).quiet (keeps_quiet rfl rfl rfl rfl) rfl rfl rfl
  | initFail i => exact hquiet rfl rfl rfl rfl rfl rfl rfl
  | buildSample b => exact h.setBuild b (Nat.le_refl _)
  | buildSnapshot ok hb hdrm =>
      have hlooked : Inv (s.lookedUp ok) := hquiet rfl rfl rfl rfl rfl rfl rfl
      exact hlooked.setBuild _ ⟨h.covered.builds _ _ hb, hdrm⟩
  | @buildTransform b g drm wl hb =>
      obtain ⟨hgen, hdrm⟩ := h.covered.builds b _ hb
      refine (h.latch drm wl).setBuild b ⟨hgen, ?_⟩
      rintro rfl
      apply Or.inr
      apply Or.inr
      apply Or.inl
      simp [setsUnrotatedSnapshotPending, hdrm]
  | buildNote hb => exact h.finishBuild hb
  | pollRead ok hpoll => exact h.pollRead hpoll ok
  | pollNext heffect => exact inv_pollNext h heffect

/-! ## While the layout stays -/

/-- Whether a step does not change the layout, and has no query of the compositor that fails. -/
def System.steady (s : System) : Label → Bool
  | .change wl => wl == s.compositor
  | .lookUp ok | .initRect _ ok | .initRead _ ok | .buildSnapshot _ _ ok => s.displays.isSome || ok
  | .pollRead ok => ok
  | _ => true

/-- The displays that a build works with are `wl`. -/
def Build.On (wl : List WaylandDisplayInfo) : Build → Prop
  | .sampled _ => True
  | .snapshot _ _ displays | .transformed _ displays => displays = wl

/-- The layout that a poll has read. -/
def Poll.live : Poll → Option (List DisplayRect)
  | .read live _ | .observed live _ _ | .taken live _ _ | .owing live _ | .clearing live _
  | .bumping live _ | .resetting live _ | .setting live _ | .over live _ _ => some live
  | .idle => none

/-- Session inits and builds know no displays but `wl`. -/
structure Calm (wl : List WaylandDisplayInfo) (s : System) : Prop where
  compositor : s.compositor = wl
  displays : ∀ d, s.displays = some d → d = wl
  inits : ∀ i layout, s.inits i = some (.read layout) → layout = [] ∨ layout = logicalRectsOf wl
  builds : ∀ b build, s.builds b = some build → build.On wl
  pending : s.unrotatedSnapshotPending = true → wl = []

/-- The poll knows no layout but `rects`, and at most one bump is done or to come. -/
structure Counted (rects : List DisplayRect) (s : System) : Prop where
  baseline : s.layout.baseline = [] ∨ s.layout.baseline = rects
  seen : s.layout.seen = [] ∨ s.layout.seen = rects
  unseen : s.layout.unseenBuild = none
  poll : ∀ live, s.poll.live = some live → live = rects ∧ rects ≠ []
  once : s.snapshotGeneration ≤ 1
  owed : s.promotionOwed = true → s.poll.promotes = false ∧ s.snapshotGeneration = 0
  promotes : s.poll.promotes = true → s.snapshotGeneration = 0
  unpolled : s.layout.seen = [] →
    s.snapshotGeneration = 0 ∧ s.promotionOwed = false ∧ s.poll.promotes = false

theorem Calm.start (wl : List WaylandDisplayInfo) :
  Calm wl (System.start wl)
  := ⟨rfl, nofun, nofun, nofun, nofun⟩

theorem Counted.start (wl : List WaylandDisplayInfo) :
  Counted (logicalRectsOf wl) (System.start wl)
  := ⟨Or.inl rfl, Or.inl rfl, rfl, nofun, Nat.zero_le _, nofun, nofun, fun _ => ⟨rfl, rfl, rfl⟩⟩

theorem Calm.getDisplays (h : Calm wl s) {ok : Bool} (hsteady : (s.displays.isSome || ok) = true) :
  s.getDisplays ok = wl
  := by
  rw [System.getDisplays]
  cases hd : s.displays with
  | none =>
      rw [hd, Option.isSome_none, Bool.false_or] at hsteady
      rw [if_pos hsteady]
      exact h.compositor
  | some d => exact h.displays d hd

theorem Calm.lookedUp (h : Calm wl s) (ok : Bool) :
  Calm wl (s.lookedUp ok)
  := by
  refine ⟨h.compositor, ?_, h.inits, h.builds, h.pending⟩
  intro d hd
  change s.displays.or (if ok then some s.compositor else none) = some d at hd
  cases hold : s.displays with
  | none =>
      rw [hold, Option.none_or] at hd
      split at hd
      next =>
          obtain rfl := Option.some.inj hd
          exact h.compositor
      next => cases hd
  | some d' =>
      rw [hold] at hd
      obtain rfl := Option.some.inj hd
      exact h.displays d' hold

theorem Calm.clear (h : Calm wl s) :
  Calm wl { s with displays := none }
  := ⟨h.compositor, nofun, h.inits, h.builds, h.pending⟩

theorem Calm.setInit (h : Calm wl s) (i : ℕ) {init : Option Init}
    (hinit : ∀ layout, init = some (.read layout) → layout = [] ∨ layout = logicalRectsOf wl) :
  Calm wl (s.setInit i init)
  := by
  refine ⟨h.compositor, h.displays, ?_, h.builds, h.pending⟩
  intro i' layout hi'
  change Function.update s.inits i init i' = some (.read layout) at hi'
  rcases eq_or_ne i' i with rfl | hne
  · rw [Function.update_self] at hi'
    exact hinit layout hi'
  · rw [Function.update_of_ne hne] at hi'
    exact h.inits i' layout hi'

theorem Calm.setBuild (h : Calm wl s) (b : ℕ) {build : Option Build}
    (hbuild : ∀ x, build = some x → x.On wl) :
  Calm wl (s.setBuild b build)
  := by
  refine ⟨h.compositor, h.displays, h.inits, ?_, h.pending⟩
  intro b' x hx
  change Function.update s.builds b build b' = some x at hx
  rcases eq_or_ne b' b with rfl | hne
  · rw [Function.update_self] at hx
    exact hbuild x hx
  · rw [Function.update_of_ne hne] at hx
    exact h.builds b' x hx

/-- A step that changes nothing that the count is about keeps it. -/
theorem Counted.quiet (h : Counted rects s) (hlayout : s'.layout = s.layout)
    (hpoll : s'.poll = s.poll) (hgeneration : s'.snapshotGeneration = s.snapshotGeneration)
    (howed : s'.promotionOwed = s.promotionOwed) :
  Counted rects s'
  := by
  constructor
  · simpa only [hlayout] using h.baseline
  · simpa only [hlayout] using h.seen
  · simpa only [hlayout] using h.unseen
  · simpa only [hpoll] using h.poll
  · simpa only [hgeneration] using h.once
  · simpa only [howed, hpoll, hgeneration] using h.owed
  · simpa only [hpoll, hgeneration] using h.promotes
  · simpa only [hlayout, hgeneration, howed, hpoll] using h.unpolled

theorem Counted.resetBaseline (h : Counted rects s) {baseline : List DisplayRect}
    (hbaseline : baseline = [] ∨ baseline = rects) :
  Counted rects { s with layout := s.layout.resetBaseline baseline }
  := by
  refine ⟨hbaseline, ?_, h.unseen, h.poll, h.once, h.owed, h.promotes, ?_⟩
  · change (if s.layout.seen = [] then s.layout.baseline else s.layout.seen) = []
      ∨ (if s.layout.seen = [] then s.layout.baseline else s.layout.seen) = rects
    split
    next => exact h.baseline
    next => exact h.seen
  · change (if s.layout.seen = [] then s.layout.baseline else s.layout.seen) = [] → _
    split
    next hseen =>
        intro _
        exact h.unpolled hseen
    next => exact h.unpolled

/-- A capturer that is built on the layout that the poll knows disagrees with nothing. -/
theorem Counted.noteCapturer (h : Counted rects s) (g : ℕ) :
  Counted rects { s with layout := s.layout.noteCapturer rects g }
  := by
  have hlayout : s.layout.noteCapturer rects g = s.layout
      ∨ rects ≠ [] ∧ s.layout.noteCapturer rects g = { s.layout with seen := rects } := by
    rw [WaylandLayout.noteCapturer]
    split
    next => exact Or.inl rfl
    next hne =>
        split
        next => exact Or.inr ⟨hne, rfl⟩
        next hseen =>
            rw [if_neg (not_not.mpr (h.seen.resolve_left hseen))]
            exact Or.inl rfl
  rcases hlayout with hsame | ⟨hne, hseen⟩
  · rw [hsame]
    exact h
  · rw [hseen]
    refine ⟨h.baseline, Or.inr rfl, h.unseen, h.poll, h.once, h.owed, h.promotes, ?_⟩
    intro hnil
    cases hne hnil

/-- While the layout stays, the poll finds an edge only before it has observed anything. -/
theorem Counted.seen_of_edge (h : Counted rects s) {snapshotMissing : Bool}
    (hedge : s.layout.edge rects snapshotMissing s.snapshotGeneration = true) :
  s.layout.seen = []
  := by
  rw [WaylandLayout.edge, h.unseen, if_neg nofun] at hedge
  split at hedge
  next hseen =>
      rw [h.seen.resolve_left hseen, bne_self_eq_false] at hedge
      cases hedge
  next hseen => exact not_not.mp hseen

theorem counted_pollRead (h : Counted (logicalRectsOf wl) s) (hcompositor : s.compositor = wl)
    (hpoll : s.poll.promotes = false) (ok : Bool) :
  Counted (logicalRectsOf wl) (s.pollRead ok)
  := by
  have hunpolled : s.layout.seen = [] →
      s.snapshotGeneration = 0 ∧ s.promotionOwed = false ∧ false = false := by
    intro hseen
    exact hpoll ▸ h.unpolled hseen
  have howed : s.promotionOwed = true → false = false ∧ s.snapshotGeneration = 0 := by
    intro howed
    exact ⟨rfl, (h.owed howed).2⟩
  rw [System.pollRead]
  split
  next hok =>
      refine ⟨h.baseline, h.seen, h.unseen, ?_, h.once, howed, nofun, hunpolled⟩
      rintro live ⟨⟩
      refine ⟨by rw [hcompositor], ?_⟩
      simpa [hcompositor] using hok.2
  next => exact ⟨h.baseline, h.seen, h.unseen, nofun, h.once, howed, nofun, hunpolled⟩

/-- What the count says where a poll stands. -/
theorem Counted.of_poll (h : Counted rects s) {poll : Poll} (hpoll : s.poll = poll) :
  Counted rects { s with poll := poll }
  := by
  obtain rfl := hpoll
  exact h

/-- A poll moves on, and a promotion that is owed may be taken over from its variables. -/
theorem Counted.moves (h : Counted rects s) (hlayout : s'.layout = s.layout)
    (hgeneration : s'.snapshotGeneration = s.snapshotGeneration)
    (hlive : s'.poll.live = s.poll.live)
    (howed : s'.promotionOwed = true → s.promotionOwed = true ∨ s.poll.promotes = true)
    (hpromotes : s'.poll.promotes = true → s.promotionOwed = true ∨ s.poll.promotes = true)
    (honce : s'.promotionOwed = true → s'.poll.promotes = false) :
  Counted rects s'
  := by
  have hzero : s.promotionOwed = true ∨ s.poll.promotes = true → s.snapshotGeneration = 0 := by
    rintro (hold | hold)
    · exact (h.owed hold).2
    · exact h.promotes hold
  constructor
  · rw [hlayout]
    exact h.baseline
  · rw [hlayout]
    exact h.seen
  · rw [hlayout]
    exact h.unseen
  · rw [hlive]
    exact h.poll
  · rw [hgeneration]
    exact h.once
  · rw [hgeneration]
    intro hnew
    exact ⟨honce hnew, hzero (howed hnew)⟩
  · rw [hgeneration]
    intro hnew
    exact hzero (hpromotes hnew)
  · rw [hlayout, hgeneration]
    intro hseen
    obtain ⟨hgen, hnotOwed, hnotPromotes⟩ := h.unpolled hseen
    have hnone : ¬ (s.promotionOwed = true ∨ s.poll.promotes = true) := by
      rw [hnotOwed, hnotPromotes]
      simp
    refine ⟨hgen, ?_, ?_⟩
    · rw [← Bool.not_eq_true]
      intro hnew
      exact hnone (howed hnew)
    · rw [← Bool.not_eq_true]
      intro hnew
      exact hnone (hpromotes hnew)

theorem Counted.observe (h : Counted rects s) {live : List DisplayRect} {begun : ℕ}
    (hpoll : s.poll = .read live begun) (snapshotMissing : Bool) :
  Counted rects { s with
    layout := s.layout.observe live
    poll := .observed live (s.layout.edge live snapshotMissing s.snapshotGeneration) begun }
  := by
  obtain ⟨rfl, hne⟩ := (h.of_poll hpoll).poll live rfl
  refine ⟨h.baseline, Or.inr rfl, rfl, ?_, h.once, ?_, ?_, ?_⟩
  · rintro _ ⟨⟩
    exact ⟨rfl, hne⟩
  · intro howed
    refine ⟨?_, (h.owed howed).2⟩
    rw [← Bool.not_eq_true]
    intro hedge
    have hnot := (h.unpolled (h.seen_of_edge hedge)).2.1
    rw [howed] at hnot
    cases hnot
  · intro hedge
    exact (h.unpolled (h.seen_of_edge hedge)).1
  · intro hnil
    cases hne hnil

theorem Counted.bump (h : Counted rects s) {live : List DisplayRect} {begun : ℕ}
    (hpoll : s.poll = .bumping live begun) :
  Counted rects { s with
    snapshotGeneration := s.snapshotGeneration + 1
    poll := .resetting live begun }
  := by
  have h' := h.of_poll hpoll
  have hzero : s.snapshotGeneration = 0 := h'.promotes rfl
  refine ⟨h.baseline, h.seen, h.unseen, h'.poll, ?_, ?_, nofun, ?_⟩
  · change s.snapshotGeneration + 1 ≤ 1
    omega
  · intro howed
    cases (h'.owed howed).1
  · intro hseen
    cases (h'.unpolled hseen).2.2

/-- While the layout stays, every step of the poll keeps the count of bumps. -/
theorem counted_pollNext (hcalm : Calm wl s) (h : Counted (logicalRectsOf wl) s)
    (heffect : PollEffect s available s') :
  Counted (logicalRectsOf wl) s'
  := by
  cases heffect with
  | observe hpoll => exact h.observe hpoll _
  | @take live _ _ hpoll =>
      have h' := h.of_poll hpoll
      have hblind : s.unrotatedSnapshotPending = false := by
        rw [← Bool.not_eq_true]
        intro hpending
        apply (h'.poll live rfl).2
        rw [hcalm.pending hpending]
        rfl
      refine h'.moves rfl rfl rfl Or.inl ?_ ?_
      · rw [hblind, Bool.or_false]
        exact Or.inr
      · rw [hblind, Bool.or_false]
        intro howed
        exact (h'.owed howed).1
  | owe hpoll =>
      refine (h.of_poll hpoll).moves rfl rfl rfl ?_ nofun (fun _ => rfl)
      exact Bool.or_eq_true_iff.mp
  | promote hpoll howed =>
      exact (h.of_poll hpoll).moves rfl rfl rfl nofun (fun _ => Or.inl howed.1) nofun
  | finish hpoll _ =>
      exact (h.of_poll hpoll).moves rfl rfl rfl Or.inl nofun (fun _ => rfl)
  | clear hpoll =>
      have h' := h.of_poll hpoll
      refine h'.moves rfl rfl rfl Or.inl (fun _ => Or.inr rfl) ?_
      intro howed
      cases (h'.owed howed).1
  | bump hpoll => exact h.bump hpoll
  | @reset live _ hpoll =>
      have h' := h.of_poll hpoll
      have hlive := (h'.poll live rfl).1
      exact (h'.resetBaseline (Or.inr hlive)).moves rfl rfl rfl Or.inl nofun (fun _ => rfl)
  | adopt hpoll =>
      have h' := h.of_poll hpoll
      refine ⟨h'.baseline, h'.seen, h'.unseen, h'.poll, h'.once, ?_, nofun, h'.unpolled⟩
      intro howed
      exact ⟨rfl, (h'.owed howed).2⟩

theorem calm_pollNext (h : Calm wl s) (heffect : PollEffect s available s') :
  Calm wl s'
  := by
  obtain ⟨hcompositor, hdisplays, hinits, hbuilds, hpending⟩ := h
  cases heffect with
  | take _ => exact ⟨hcompositor, hdisplays, hinits, hbuilds, nofun⟩
  | clear _ => exact ⟨hcompositor, nofun, hinits, hbuilds, hpending⟩
  | _ => exact ⟨hcompositor, hdisplays, hinits, hbuilds, hpending⟩

/-- Every steady step keeps what a calm system is. -/
theorem calm_step {i : Label} (h : Calm wl s) (hsteady : s.steady i = true) (hstep : Step s i s') :
  Calm wl s'
  := by
  cases hstep.effect with
  | change wl' =>
      rw [System.steady, beq_iff_eq] at hsteady
      exact ⟨hsteady.trans h.compositor, h.displays, h.inits, h.builds, h.pending⟩
  | clear => exact h.clear
  | lookUp ok => exact h.lookedUp ok
  | initClear i => exact h.clear.setInit i nofun
  | initRect i ok =>
      apply (h.lookedUp ok).setInit
      intro layout hlayout
      rw [System.rectOf] at hlayout
      split at hlayout
      next =>
          cases hlayout
          exact Or.inl rfl
      next => cases hlayout
  | initRead i ok =>
      apply (h.lookedUp ok).setInit
      rintro layout ⟨⟩
      rw [h.getDisplays hsteady]
      exact Or.inr rfl
  | @initReset i layout _ =>
      have hsame : Calm wl { s with layout := s.layout.resetBaseline layout } :=
        ⟨h.compositor, h.displays, h.inits, h.builds, h.pending⟩
      exact hsame.setInit i nofun
  | initFail i => exact h.setInit i nofun
  | buildSample b =>
      apply h.setBuild
      rintro x ⟨⟩
      trivial
  | buildSnapshot ok _ _ =>
      apply (h.lookedUp ok).setBuild
      rintro x ⟨⟩
      exact h.getDisplays hsteady
  | @buildTransform b g drm wl' hb =>
      have hon : wl' = wl := h.builds b _ hb
      have hlatched : Calm wl { s with
          unrotatedSnapshotPending :=
            s.unrotatedSnapshotPending || setsUnrotatedSnapshotPending drm wl' } := by
        refine ⟨h.compositor, h.displays, h.inits, h.builds, ?_⟩
        intro hpending
        rcases Bool.or_eq_true_iff.mp hpending with hold | hnew
        · exact h.pending hold
        · rw [setsUnrotatedSnapshotPending, decide_eq_true_eq, hon] at hnew
          exact hnew.1
      apply hlatched.setBuild
      rintro x ⟨⟩
      exact hon
  | @buildNote b _ _ _ =>
      have hended : Calm wl (s.setBuild b none) := h.setBuild b nofun
      exact ⟨h.compositor, h.displays, h.inits, hended.builds, h.pending⟩
  | pollRead ok _ =>
      rw [System.pollRead]
      split
      all_goals exact ⟨h.compositor, h.displays, h.inits, h.builds, h.pending⟩
  | pollNext heffect => exact calm_pollNext h heffect

/-- In a calm system every step keeps the count of bumps. -/
theorem counted_step {i : Label} (hcalm : Calm wl s) (h : Counted (logicalRectsOf wl) s)
    (hstep : Step s i s') :
  Counted (logicalRectsOf wl) s'
  := by
  have hquiet : ∀ {t : System}, t.layout = s.layout → t.poll = s.poll →
      t.snapshotGeneration = s.snapshotGeneration → t.promotionOwed = s.promotionOwed →
      Counted (logicalRectsOf wl) t := by
    intro t hlayout hpoll hgeneration howed
    exact h.quiet hlayout hpoll hgeneration howed
  cases hstep.effect with
  | initReset hi => exact (h.resetBaseline (hcalm.inits _ _ hi)).quiet rfl rfl rfl rfl
  | @buildNote b g displays hb =>
      obtain rfl : displays = wl := hcalm.builds b _ hb
      exact (h.noteCapturer g).quiet rfl rfl rfl rfl
  | pollRead ok hpoll => exact counted_pollRead h hcalm.compositor hpoll ok
  | pollNext heffect => exact counted_pollNext hcalm h heffect
  | _ => exact hquiet rfl rfl rfl rfl

/-- After a poll that read `live` with DRM available, every capturer that was built before it was
built on `live`, or is of an older generation, so that its next frame asks for a rebuild (within
`2 ^ 64` bumps).  In a run in which the layout does not change and no query of the compositor fails,
there is at most one bump. -/
theorem rebuilt_of_run {wl : List WaylandDisplayInfo} {h : List (System × Label)} {s : System}
    (hrun : Run Step (System.start wl) h s) :
  (∀ live begun, s.poll = .over live begun true → ∀ c ∈ s.built.take begun,
    c.builtOn = live
      ∨ c.snapshotGen < s.snapshotGeneration ∧ c.layoutChanged s.snapshotGeneration = true)
    ∧ ((∀ x ∈ h, x.1.steady x.2 = true) → s.snapshotGeneration ≤ 1)
  := by
  constructor
  · intro live begun hpoll c hc
    have hinv : Inv s := hrun.invariant Inv (inv_start wl) fun s i s' hs hstep => inv_step hs hstep
    obtain ⟨_, haccounts⟩ := hinv.polled.of_poll hpoll
    rcases haccounts c hc with hold | hbuilt
    · apply Or.inr
      refine ⟨hold, ?_⟩
      rw [Capturer.layoutChanged, bne_iff_ne]
      exact Nat.ne_of_gt hold
    · exact Or.inl hbuilt
  · intro hsteady
    apply Counted.once
    apply And.right
    apply hrun.invariant_of (fun s i => s.steady i = true)
      (fun s => Calm wl s ∧ Counted (logicalRectsOf wl) s) ⟨Calm.start wl, Counted.start wl⟩ _
      hsteady
    rintro s i s' ⟨hcalm, hcounted⟩ hi hstep
    exact ⟨calm_step hcalm hi hstep, counted_step hcalm hcounted hstep⟩

/-- An output of a compositor. -/
def output (transform : Int32) : WaylandDisplayInfo := ⟨"", 0, 0, 1920, 1080, none, transform⟩

/-- A session whose output is rotated after a capturer was built, and the next poll. -/
def rotated : List Label :=
  [.initClear 0, .initRect 0 true, .initRead 0 true, .initReset 0, .buildSample 0,
    .buildSnapshot 0 [⟨"", 0, 0, 1920, 1080, true⟩] true, .buildTransform 0, .buildNote 0,
    .change [output 90], .pollRead true] ++ List.replicate 8 (.pollNext true)

/-- A first poll without a snapshot, a capturer, and another poll. -/
def unrotated : List Label :=
  .pollRead true :: List.replicate 8 (.pollNext true) ++ [.buildSample 0,
    .buildSnapshot 0 [⟨"", 0, 0, 1920, 1080, true⟩] true, .buildTransform 0, .buildNote 0,
    .pollRead true] ++ List.replicate 4 (.pollNext true)

theorem rebuilt_sample :
  (∃ h s c, Run Step (System.start [output 0]) h s ∧ c ∈ s.built
    ∧ c.builtOn = [⟨"", 0, 0, 1920, 1080, 0⟩] ∧ c.snapshotGen < s.snapshotGeneration)
    ∧ ∃ h s, Run Step (System.start [output 0]) h s ∧ s.snapshotGeneration ≠ 0
      ∧ s.snapshotGeneration ≤ 1
  := by
  constructor
  · obtain ⟨h, s, hrun, htest⟩ := Run.exists_of_traceM step (System.start [output 0]) rotated
      (fun _ s => s.poll == .over [⟨"", 0, 0, 1080, 1920, 90⟩] 1 true
        && s.built == [⟨0, [⟨"", 0, 0, 1920, 1080, 0⟩]⟩]) (by decide)
    rw [Bool.and_eq_true, beq_iff_eq, beq_iff_eq] at htest
    have hmem : ⟨0, [⟨"", 0, 0, 1920, 1080, 0⟩]⟩ ∈ s.built.take 1 := by
      simp [htest.2]
    rcases (rebuilt_of_run hrun).1 _ _ htest.1 _ hmem with hbuilt | hold
    · cases hbuilt
    · exact ⟨h, s, _, hrun, List.mem_of_mem_take hmem, rfl, hold.1⟩
  · obtain ⟨h, s, hrun, htest⟩ := Run.exists_of_traceM step (System.start [output 0]) unrotated
      (fun h s => s.snapshotGeneration != 0 && h.all fun x => x.1.steady x.2) (by decide)
    simp only [Bool.and_eq_true, bne_iff_ne, List.all_eq_true] at htest
    exact ⟨h, s, hrun, htest.1, (rebuilt_of_run hrun).2 htest.2⟩

end Layout

end VynxDesk.Drm
