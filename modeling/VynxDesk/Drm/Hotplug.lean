import VynxDesk.Drm.Refresh

/-!
# Hotplugs and a streaming consumer

A `_drm` connection (`handle_drm_conn` of `ipc/drm.rs`) enumerates the displays itself and sends
the list; it samples `DRM_DISPLAY_GENERATION` after the handshake, and its loop sends the cached
list when the generation has moved on.  A refresh that changes the cache between the enumeration and
the sample is missed (`not_caught`); where there is none, or the list that was sent is the one in
the cache, every hotplug is caught (`caught_of_run`).

The refreshes are those of `Drm/Refresh`, step by step.  A generation is a number of bumps, which is
what the `u64` holds in a run of fewer than `2 ^ 64` bumps; the statements are about such runs of the
source.
-/

namespace VynxDesk.Drm

variable {Display : Type}

namespace Refresh

/-- The thread is between its write and its bump. -/
def Pc.bumps : Pc Display → Bool
  | .bump => true
  | _ => false

/-- The number of changes of the cache: each is followed by a bump. -/
def State.writes (s : State Display) : ℕ := s.generation + s.threads.countP Pc.bumps

/-- What a step does to the cache, its changes, and the generation. -/
structure Writes (s s' : State Display) : Prop where
  cache : s'.cache = s.cache ∧ s'.writes = s.writes
    ∨ s'.cache ≠ s.cache ∧ s'.writes = s.writes + 1
  generation : s.generation ≤ s'.generation

section

variable {s s' : State Display} {i : ℕ} {pc pc' : Pc Display}

/-- A thread that neither writes nor bumps. -/
theorem writes_move (hpc : s.threads[i]? = some pc) (hcache : s'.cache = s.cache)
    (hgeneration : s'.generation = s.generation) (hthreads : s'.threads = s.threads)
    (hold : pc.bumps = false) (hnew : pc'.bumps = false) :
  Writes s (s'.move i pc')
  := by
  have hcount := State.countP_set Pc.bumps hpc pc'
  rw [hold, hnew] at hcount
  refine ⟨Or.inl ⟨hcache, ?_⟩, Nat.le_of_eq hgeneration.symm⟩
  change s'.generation + (s'.threads.set i pc').countP Pc.bumps = s.writes
  rw [hgeneration, hthreads, State.writes, Nat.add_right_cancel hcount]

theorem writes_publish (hpc : s.threads[i]? = some pc) {fresh : List Display}
    (hfresh : fresh ≠ s.cache) (hold : pc.bumps = false) :
  Writes s ({ s with cache := fresh }.move i .bump)
  := by
  have hcount := State.countP_set Pc.bumps hpc .bump
  rw [hold] at hcount
  change (s.threads.set i .bump).countP Pc.bumps = s.threads.countP Pc.bumps + 1 at hcount
  refine ⟨Or.inr ⟨hfresh, ?_⟩, Nat.le_refl _⟩
  change s.generation + (s.threads.set i .bump).countP Pc.bumps = s.writes + 1
  rw [hcount, State.writes]
  omega

theorem writes_bump (hpc : s.threads[i]? = some .bump) :
  Writes s ({ s with generation := s.generation + 1 }.move i .check)
  := by
  have hcount := State.countP_set Pc.bumps hpc .check
  change (s.threads.set i .check).countP Pc.bumps + 1 = s.threads.countP Pc.bumps at hcount
  refine ⟨Or.inl ⟨rfl, ?_⟩, Nat.le_succ _⟩
  change s.generation + 1 + (s.threads.set i .check).countP Pc.bumps = s.writes
  rw [State.writes, ← hcount]
  omega

theorem writes_append (hpc : s.threads[i]? = some .spawn) :
  Writes s { s with threads := s.threads.set i .returned ++ [.clear] }
  := by
  have hcount := State.countP_set Pc.bumps hpc .returned
  refine ⟨Or.inl ⟨rfl, ?_⟩, Nat.le_refl _⟩
  change s.generation + (s.threads.set i .returned ++ [Pc.clear]).countP Pc.bumps = s.writes
  rw [List.countP_append, State.writes]
  change (s.threads.set i .returned).countP Pc.bumps + 0 = s.threads.countP Pc.bumps + 0 at hcount
  change s.generation + ((s.threads.set i .returned).countP Pc.bumps + 0) = _
  rw [hcount]
  rfl

theorem writes_of_step [DecidableEq Display] {act : Act Display} (hstep : s.Step act s') :
  Writes s s'
  := by
  cases act with
  | call =>
      obtain rfl := Option.some.inj hstep
      refine ⟨Or.inl ⟨rfl, ?_⟩, Nat.le_refl _⟩
      change s.generation + (s.threads ++ [Pc.announce]).countP Pc.bumps = s.writes
      rw [List.countP_append]
      rfl
  | thread i fresh =>
      obtain ⟨pc, hpc, hadvance⟩ := Option.bind_eq_some_iff.mp hstep
      cases pc with
      | bump =>
          obtain rfl := Option.some.inj hadvance
          exact writes_bump hpc
      | spawn =>
          obtain rfl := Option.some.inj hadvance
          exact writes_append hpc
      | publish found =>
          simp only [State.advance] at hadvance
          split_ifs at hadvance with hsame
          · obtain rfl := Option.some.inj hadvance
            exact writes_move hpc rfl rfl rfl rfl rfl
          · obtain rfl := Option.some.inj hadvance
            exact writes_publish hpc (fun heq => hsame heq.symm) rfl
      | returned => cases hadvance
      | done => cases hadvance
      | announce | clear | enumerate | enumerating | release =>
          obtain rfl := Option.some.inj hadvance
          exact writes_move hpc rfl rfl rfl rfl rfl
      | swap | check | recheck | retake =>
          simp only [State.advance] at hadvance
          split_ifs at hadvance
          all_goals
            obtain rfl := Option.some.inj hadvance
            exact writes_move hpc rfl rfl rfl rfl rfl

end

end Refresh

namespace Hotplug

/-- What is known of an iteration of the loop: whether it began when no refresh was between its
write and its bump, whether a refresh had changed the cache by then, and the lists that the cache
has held since then. -/
structure Iteration (Display : Type) where
  clean : Bool
  changed : Bool
  held : List (List Display)
  deriving DecidableEq, Repr

/-- Where the connection stands. -/
inductive Phase (Display : Type) where
  | accepted
  | enumerating
  | enumerated (displays : List Display)
  | waiting
  | started
  | top
  | begun (iteration : Iteration Display)
  | loaded (iteration : Iteration Display)
  | cloned (iteration : Iteration Display) (fresh : List Display)
  | checked (iteration : Iteration Display)
  | closed
  deriving DecidableEq, Repr

/-- The iteration that the loop is in. -/
def Phase.iteration : Phase Display → Option (Iteration Display)
  | .begun iteration | .loaded iteration | .cloned iteration _ | .checked iteration =>
      some iteration
  | _ => none

/-- The cache holds another list in an iteration. -/
def Phase.hold (phase : Phase Display) (cache : List Display) : Phase Display :=
  let held (iteration : Iteration Display) := { iteration with held := iteration.held ++ [cache] }
  match phase with
  | .begun iteration => .begun (held iteration)
  | .loaded iteration => .loaded (held iteration)
  | .cloned iteration fresh => .cloned (held iteration) fresh
  | .checked iteration => .checked (held iteration)
  | phase => phase

/-- The refreshes and the connection.  Its history: `lastSent` is the last list that it sent, and
`changed` says whether a refresh has changed the cache since its enumeration began. -/
structure System (Display : Type) where
  refresh : Refresh.State Display := {}
  phase : Phase Display := .accepted
  seenGen : ℕ := 0
  lastSent : Option (List Display) := none
  changed : Bool := false
  deriving DecidableEq, Repr

/-- The steps: one of the refreshes; the sections of the connection, one by one, where `found` is
what it enumerates.  It may close at any time. -/
inductive Label (Display : Type) where
  | refresh (act : Refresh.Act Display)
  | enumerate
  | displays (found : List Display)
  | send
  | drmStart
  | sample
  | iterate
  | load
  | clone
  | sendChanged
  | finish
  | close
  deriving DecidableEq, Repr

namespace System

/-- A refresh takes a step. -/
def refreshed [DecidableEq Display] (s : System Display) (refresh : Refresh.State Display) :
    System Display :=
  if refresh.cache = s.refresh.cache then { s with refresh := refresh }
  else { s with refresh := refresh, phase := s.phase.hold refresh.cache, changed := true }

/-- Whether a refresh is between its write and its bump. -/
def writing (s : System Display) : Bool := s.refresh.threads.any Refresh.Pc.bumps

/-- An iteration begins. -/
def begin (s : System Display) : Iteration Display where
  clean := !s.writing
  changed := s.changed
  held := [s.refresh.cache]

end System

section

variable [DecidableEq Display]

/-- One step. -/
def step (s : System Display) : Label Display → Option (System Display)
  | .refresh act => (s.refresh.next act).map s.refreshed
  | .enumerate =>
      match s.phase with
      | .accepted => some { s with phase := .enumerating, changed := false }
      | _ => none
  | .displays found =>
      match s.phase with
      | .enumerating => some { s with phase := .enumerated found }
      | _ => none
  | .send =>
      match s.phase with
      | .enumerated displays => some { s with phase := .waiting, lastSent := some displays }
      | _ => none
  | .drmStart =>
      match s.phase with
      | .waiting => some { s with phase := .started }
      | _ => none
  | .sample =>
      match s.phase with
      | .started => some { s with phase := .top, seenGen := s.refresh.generation }
      | _ => none
  | .iterate =>
      match s.phase with
      | .top => some { s with phase := .begun s.begin }
      | _ => none
  | .load =>
      match s.phase with
      | .begun iteration =>
          if s.refresh.generation ≠ s.seenGen then
            some { s with phase := .loaded iteration, seenGen := s.refresh.generation }
          else some { s with phase := .checked iteration }
      | _ => none
  | .clone =>
      match s.phase with
      | .loaded iteration => some { s with phase := .cloned iteration s.refresh.cache }
      | _ => none
  | .sendChanged =>
      match s.phase with
      | .cloned iteration fresh =>
          some { s with phase := .checked iteration, lastSent := some fresh }
      | _ => none
  | .finish =>
      match s.phase with
      | .checked _ => some { s with phase := .top }
      | _ => none
  | .close => some { s with phase := .closed }

/-- The steps as a relation. -/
def Step (s : System Display) (i : Label Display) (s' : System Display) : Prop := step s i = some s'

end

/-- Where an iteration has made its checks, that began when no refresh was between its write and its
bump, and a refresh had changed the cache: the last list that was sent is one that the cache has
held in the iteration, the cached one if no refresh has changed it meanwhile. -/
def Caught (s : System Display) : Prop :=
  ∀ iteration, s.phase = .checked iteration → iteration.clean = true → iteration.changed = true →
    (∃ list ∈ iteration.held, s.lastSent = some list)
    ∧ (iteration.held.length = 1 → s.lastSent = some s.refresh.cache)

/-- The generation is sampled when no refresh has changed the cache since the enumeration began, or
one is between its write and its bump, or the list that was sent is the one in the cache. -/
def Timely (s : System Display) : Label Display → Prop
  | .sample => s.changed = false ∨ s.writing = true ∨ s.lastSent = some s.refresh.cache
  | _ => True

/-- The connection is in its loop, and not about to send a list. -/
def Phase.settled : Phase Display → Bool
  | .top | .begun _ | .checked _ => true
  | _ => false

/-- As long as the cache has not been changed since the generation that was seen, the list that was
sent, or is about to be, is the cached one; and what an iteration finds is what the cache has held
in it. -/
structure Inv (s : System Display) : Prop where
  seen : s.seenGen ≤ s.refresh.generation
  known : s.phase.settled = true → s.changed = true → s.refresh.writes = s.seenGen →
    s.lastSent = some s.refresh.cache
  held : ∀ iteration, s.phase.iteration = some iteration →
    iteration.held.getLast? = some s.refresh.cache
  begun : ∀ iteration, s.phase = .begun iteration → iteration.clean = true →
    iteration.changed = true →
    s.seenGen < s.refresh.generation ∨ ∃ list ∈ iteration.held, s.lastSent = some list
  cloned : ∀ iteration fresh, s.phase = .cloned iteration fresh →
    (s.refresh.writes = s.seenGen → fresh = s.refresh.cache) ∧ fresh ∈ iteration.held
  checked : ∀ iteration, s.phase = .checked iteration → iteration.clean = true →
    iteration.changed = true → ∃ list ∈ iteration.held, s.lastSent = some list

theorem generation_le_writes (s : Refresh.State Display) : s.generation ≤ s.writes
  := Nat.le_add_right _ _

theorem Inv.caught {s : System Display} (h : Inv s) : Caught s
  := by
  intro iteration hphase hclean hchanged
  obtain ⟨list, hlist, hsent⟩ := h.checked iteration hphase hclean hchanged
  refine ⟨⟨list, hlist, hsent⟩, ?_⟩
  intro hone
  obtain ⟨cache, hheld⟩ := List.length_eq_one_iff.mp hone
  have hlast := h.held iteration (by rw [hphase]; rfl)
  rw [hheld] at hlist hlast
  rw [hsent, List.mem_singleton.mp hlist]
  exact hlast

section

variable {s : System Display} {refresh : Refresh.State Display}

theorem mem_held {iteration : Iteration Display} (h : Inv s)
    (hphase : s.phase.iteration = some iteration) :
  s.refresh.cache ∈ iteration.held
  := List.mem_of_getLast? (h.held iteration hphase)

/-- A step of a refresh that leaves the cache. -/
theorem Inv.refresh_same (h : Inv s) (hwrites : Refresh.Writes s.refresh refresh)
    (hcache : refresh.cache = s.refresh.cache) :
  Inv { s with refresh := refresh }
  := by
  have hcount : refresh.writes = s.refresh.writes := by
    rcases hwrites.cache with ⟨-, hsame⟩ | ⟨hother, -⟩
    · exact hsame
    · cases hother hcache
  have hgeneration := hwrites.generation
  constructor
  · exact Nat.le_trans h.seen hgeneration
  · intro hsettled hchanged hseen
    change s.lastSent = some refresh.cache
    rw [hcache]
    exact h.known hsettled hchanged (hcount.symm.trans hseen)
  · intro iteration hphase
    change _ = some refresh.cache
    rw [hcache]
    exact h.held iteration hphase
  · intro iteration hphase hclean hchanged
    apply (h.begun iteration hphase hclean hchanged).imp_left
    exact fun hlt => Nat.lt_of_lt_of_le hlt hgeneration
  · intro iteration fresh hphase
    obtain ⟨hfresh, hmem⟩ := h.cloned iteration fresh hphase
    refine ⟨?_, hmem⟩
    intro hseen
    exact (hfresh (hcount.symm.trans hseen)).trans hcache.symm
  · exact h.checked

/-- A refresh changes the cache. -/
theorem Inv.refresh_changed (h : Inv s) (hwrites : Refresh.Writes s.refresh refresh)
    (hcache : refresh.cache ≠ s.refresh.cache) :
  Inv { s with refresh := refresh, phase := s.phase.hold refresh.cache, changed := true }
  := by
  have hcount : refresh.writes = s.refresh.writes + 1 := by
    rcases hwrites.cache with ⟨hsame, -⟩ | ⟨-, hnext⟩
    · cases hcache hsame
    · exact hnext
  have hseen : refresh.writes ≠ s.seenGen := by
    have hle := generation_le_writes s.refresh
    have hseen := h.seen
    omega
  have hgeneration := hwrites.generation
  constructor
  · exact Nat.le_trans h.seen hgeneration
  · intro _ _ hsame
    cases hseen hsame
  · intro iteration hphase
    change (s.phase.hold refresh.cache).iteration = some iteration at hphase
    cases hold : s.phase
    all_goals
      rw [hold] at hphase
      cases hphase
    all_goals exact List.getLast?_concat
  · intro iteration hphase hclean hchanged
    change s.phase.hold refresh.cache = .begun iteration at hphase
    cases hold : s.phase with
    | begun before =>
        rw [hold] at hphase
        cases hphase
        rcases h.begun before hold hclean hchanged with hlt | ⟨list, hlist, hsent⟩
        · exact Or.inl (Nat.lt_of_lt_of_le hlt hgeneration)
        · exact Or.inr ⟨list, List.mem_append_left _ hlist, hsent⟩
    | _ =>
        rw [hold] at hphase
        cases hphase
  · intro iteration fresh hphase
    change s.phase.hold refresh.cache = .cloned iteration fresh at hphase
    refine ⟨fun hsame => absurd hsame hseen, ?_⟩
    cases hold : s.phase with
    | cloned before list =>
        rw [hold] at hphase
        cases hphase
        exact List.mem_append_left _ (h.cloned before _ hold).2
    | _ =>
        rw [hold] at hphase
        cases hphase
  · intro iteration hphase hclean hchanged
    change s.phase.hold refresh.cache = .checked iteration at hphase
    cases hold : s.phase with
    | checked before =>
        rw [hold] at hphase
        cases hphase
        obtain ⟨list, hlist, hsent⟩ := h.checked before hold hclean hchanged
        exact ⟨list, List.mem_append_left _ hlist, hsent⟩
    | _ =>
        rw [hold] at hphase
        cases hphase

/-- A connection that is not in an iteration, and does not come to its loop. -/
theorem Inv.idle (hseen : s.seenGen ≤ s.refresh.generation)
    (hsettled : s.phase.settled = false) (hiteration : s.phase.iteration = none) :
  Inv s
  := by
  refine ⟨hseen, ?_, ?_, ?_, ?_, ?_⟩
  · intro h
    rw [hsettled] at h
    cases h
  · intro iteration hphase
    rw [hiteration] at hphase
    cases hphase
  · intro iteration hphase
    rw [hphase] at hiteration
    cases hiteration
  · intro iteration fresh hphase
    rw [hphase] at hiteration
    cases hiteration
  · intro iteration hphase
    rw [hphase] at hiteration
    cases hiteration

theorem writing_iff : s.writing = true ↔ s.refresh.generation < s.refresh.writes
  := by
  rw [System.writing, Refresh.State.writes, List.any_eq_true]
  have hpos := List.countP_pos_iff (l := s.refresh.threads) (p := Refresh.Pc.bumps)
  constructor
  · intro h
    have hcount := hpos.mpr h
    omega
  · intro h
    exact hpos.mp (by omega)

/-- The generation is sampled. -/
theorem Inv.sample (htimely : Timely s .sample) :
  Inv { s with phase := .top, seenGen := s.refresh.generation }
  := by
  refine ⟨Nat.le_refl _, ?_, ?_, ?_, ?_, ?_⟩
  · intro _ hchanged hseen
    rcases htimely with hnot | hwriting | hsent
    · rw [hnot] at hchanged
      cases hchanged
    · exact absurd hseen (Nat.ne_of_gt (writing_iff.mp hwriting))
    · exact hsent
  · rintro iteration ⟨⟩
  · rintro iteration ⟨⟩
  · rintro iteration fresh ⟨⟩
  · rintro iteration ⟨⟩

/-- An iteration begins. -/
theorem Inv.iterate (h : Inv s) (hphase : s.phase = .top) :
  Inv { s with phase := .begun s.begin }
  := by
  have hknown := h.known (by rw [hphase]; rfl)
  refine ⟨h.seen, fun _ => hknown, ?_, ?_, ?_, ?_⟩
  · rintro iteration ⟨⟩
    rfl
  · rintro iteration ⟨⟩ hclean hchanged
    have hnot : ¬ s.refresh.generation < s.refresh.writes := by
      rw [← writing_iff, Bool.not_eq_true, ← Bool.not_eq_true']
      exact hclean
    rcases Nat.lt_or_eq_of_le h.seen with hlt | heq
    · exact Or.inl hlt
    · apply Or.inr
      have hle := generation_le_writes s.refresh
      exact ⟨_, List.mem_singleton_self _, hknown hchanged (by omega)⟩
  · rintro iteration fresh ⟨⟩
  · rintro iteration ⟨⟩

/-- An iteration loads the generation. -/
theorem Inv.load (h : Inv s) {iteration : Iteration Display} (hphase : s.phase = .begun iteration) :
  Inv (if s.refresh.generation ≠ s.seenGen then
      { s with phase := .loaded iteration, seenGen := s.refresh.generation }
    else { s with phase := .checked iteration })
  := by
  have hheld := h.held iteration (by rw [hphase]; rfl)
  split
  next =>
      refine ⟨Nat.le_refl _, ?_, ?_, ?_, ?_, ?_⟩
      · rintro ⟨⟩
      · rintro _ ⟨⟩
        exact hheld
      · rintro _ ⟨⟩
      · rintro _ _ ⟨⟩
      · rintro _ ⟨⟩
  next hsame =>
      refine ⟨h.seen, fun _ => h.known (by rw [hphase]; rfl), ?_, ?_, ?_, ?_⟩
      · rintro _ ⟨⟩
        exact hheld
      · rintro _ ⟨⟩
      · rintro _ _ ⟨⟩
      · rintro _ ⟨⟩ hclean hchanged
        rcases h.begun iteration hphase hclean hchanged with hlt | hsent
        · cases hsame (Nat.ne_of_gt hlt)
        · exact hsent

/-- An iteration clones the cache. -/
theorem Inv.clone (h : Inv s) {iteration : Iteration Display}
    (hphase : s.phase = .loaded iteration) :
  Inv { s with phase := .cloned iteration s.refresh.cache }
  := by
  have hiteration : s.phase.iteration = some iteration := by
    rw [hphase]
    rfl
  refine ⟨h.seen, ?_, ?_, ?_, ?_, ?_⟩
  · rintro ⟨⟩
  · rintro _ ⟨⟩
    exact h.held iteration hiteration
  · rintro _ ⟨⟩
  · rintro _ _ ⟨⟩
    exact ⟨fun _ => rfl, mem_held h hiteration⟩
  · rintro _ ⟨⟩

/-- An iteration sends what it has cloned. -/
theorem Inv.sendChanged (h : Inv s) {iteration : Iteration Display} {fresh : List Display}
    (hphase : s.phase = .cloned iteration fresh) :
  Inv { s with phase := .checked iteration, lastSent := some fresh }
  := by
  obtain ⟨hfresh, hmem⟩ := h.cloned iteration fresh hphase
  refine ⟨h.seen, ?_, ?_, ?_, ?_, ?_⟩
  · intro _ _ hseen
    exact congrArg some (hfresh hseen)
  · rintro _ ⟨⟩
    exact h.held iteration (by rw [hphase]; rfl)
  · rintro _ ⟨⟩
  · rintro _ _ ⟨⟩
  · rintro _ ⟨⟩ _ _
    exact ⟨fresh, hmem, rfl⟩

/-- An iteration ends. -/
theorem Inv.finish (h : Inv s) {iteration : Iteration Display}
    (hphase : s.phase = .checked iteration) :
  Inv { s with phase := .top }
  := by
  refine ⟨h.seen, fun _ => h.known (by rw [hphase]; rfl), ?_, ?_, ?_, ?_⟩
  · rintro _ ⟨⟩
  · rintro _ ⟨⟩
  · rintro _ _ ⟨⟩
  · rintro _ ⟨⟩

/-- Every step that meets the condition keeps what is known. -/
theorem Inv.step [DecidableEq Display] {s' : System Display} {i : Label Display} (h : Inv s)
    (htimely : Timely s i) (hstep : Step s i s') :
  Inv s'
  := by
  rw [Step] at hstep
  cases i with
  | refresh act =>
      obtain ⟨refresh, hnext, rfl⟩ := Option.map_eq_some_iff.mp hstep
      have hwrites := Refresh.writes_of_step hnext
      rw [System.refreshed]
      split
      next hcache => exact h.refresh_same hwrites hcache
      next hcache => exact h.refresh_changed hwrites hcache
  | close =>
      cases hstep
      exact Inv.idle h.seen rfl rfl
  | load =>
      rw [Hotplug.step] at hstep
      split at hstep
      next iteration hphase =>
          have hload := h.load hphase
          split at hstep
          next hother =>
              cases hstep
              rwa [if_pos hother] at hload
          next hsame =>
              cases hstep
              rwa [if_neg hsame] at hload
      next => cases hstep
  | _ =>
      rw [Hotplug.step] at hstep
      split at hstep
      next hphase =>
          cases hstep
          first
            | exact Inv.sample htimely
            | exact h.iterate hphase
            | exact h.clone hphase
            | exact h.sendChanged hphase
            | exact h.finish hphase
            | exact Inv.idle h.seen rfl rfl
      next => cases hstep

end

/-- In every run in which the generation is sampled in time, every hotplug is caught (within `2 ^ 64`
bumps). -/
theorem caught_of_run [DecidableEq Display] {h : List (System Display × Label Display)}
    {s : System Display} (hrun : Run Step {} h s) (htimely : ∀ x ∈ h, Timely x.1 x.2) :
  (∀ x ∈ h, Caught x.1) ∧ Caught s
  := by
  have hstart : Inv ({} : System Display) := Inv.idle (Nat.le_refl 0) rfl rfl
  exact hrun.forall_of Timely Inv Caught hstart (fun s hs => hs.caught)
    (fun s i s' hs hi hstep => hs.step hi hstep) htimely

/-- A worker refreshes the cache, from the call on until it has bumped the generation. -/
def refreshes (worker : ℕ) (fresh : List ℕ) : List (Label ℕ) :=
  .refresh .call :: List.replicate 3 (.refresh (.thread (worker - 1) []))
    ++ [.refresh (.thread worker []), .refresh (.thread worker []),
      .refresh (.thread worker fresh), .refresh (.thread worker []), .refresh (.thread worker [])]

/-- A connection that streams, and an iteration of its loop. -/
def streams : List (Label ℕ) := [.drmStart, .sample, .iterate, .load]

theorem caught_later :
  ∃ h s, Run Step ({} : System ℕ) h s ∧ s.changed = true ∧ s.lastSent = some [2]
    ∧ Caught s
  := by
  obtain ⟨h, s, hrun, htest⟩ := Run.exists_of_traceM step ({} : System ℕ)
    ([.enumerate, .displays [1], .send, .drmStart, .sample] ++ refreshes 1 [2]
      ++ [.iterate, .load, .clone, .sendChanged])
    (fun h s => s.changed && s.lastSent == some [2]
      && h.all fun x => decide (x.2 = .sample → x.1.changed = false)) (by decide +kernel)
  simp only [Bool.and_eq_true, beq_iff_eq, List.all_eq_true, decide_eq_true_eq] at htest
  obtain ⟨⟨hchanged, hsent⟩, htimely⟩ := htest
  refine ⟨h, s, hrun, hchanged, hsent, (caught_of_run hrun ?_).2⟩
  intro x hx
  have hx := htimely x hx
  cases hlabel : x.2 with
  | sample => exact Or.inl (hx hlabel)
  | _ => trivial

/-- A monitor is plugged in after the connection has enumerated the displays, and before it samples
the generation. -/
theorem not_caught :
  ∃ h s, Run Step ({} : System ℕ) h s ∧ ¬ Caught s
  := by
  obtain ⟨h, s, hrun, htest⟩ := Run.exists_of_traceM step ({} : System ℕ)
    ([.enumerate, .displays [1], .send] ++ refreshes 1 [1, 2] ++ streams)
    (fun _ s => s.phase == .checked ⟨true, true, [[1, 2]]⟩ && s.lastSent == some [1])
    (by decide +kernel)
  simp only [Bool.and_eq_true, beq_iff_eq] at htest
  obtain ⟨hphase, hsent⟩ := htest
  refine ⟨h, s, hrun, ?_⟩
  intro hcaught
  obtain ⟨list, hlist, hlast⟩ := (hcaught _ hphase rfl rfl).1
  rw [List.mem_singleton.mp hlist, hsent] at hlast
  cases hlast

end Hotplug

end VynxDesk.Drm
