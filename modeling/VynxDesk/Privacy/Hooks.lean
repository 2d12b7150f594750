import Mathlib.Data.UInt
import Mathlib.Logic.Function.Basic
import VynxDesk.Privacy.Mode

/-!
# The hooks of privacy mode

With virtual displays, privacy mode blocks the local input by hooks (`privacy_mode/win_input.rs`).
A thread of its own installs them, waits for the message that asks it to exit, removes them, and
clears `CUR_HOOK_THREAD_ID` last.  A turn-on that comes while the thread of the last one has not
cleared it finds `Already hooked`, which is only logged (`not_blocked`); otherwise the hooks are
installed exactly while privacy mode is on (`blocked_of_run`).
-/

namespace VynxDesk.Privacy.Hooks

/-- Where a hook thread stands: it is spawned; it waits for messages; it has left the loop; the
keyboard hook is removed; the mouse hook as well. -/
inductive Phase where
  | spawned
  | waiting
  | left
  | keyboardRemoved
  | removed
  deriving DecidableEq, Repr

/-- Whether the hooks of a thread are installed. -/
def Phase.hooked : Phase → Bool
  | .waiting | .left => true
  | _ => false

/-- A hook thread, with the number of exit messages that are posted to it. -/
structure HookThread where
  phase : Phase
  exits : ℕ
  deriving DecidableEq, Repr

/-- Where the thread stands that turns on and off: it waits in `hook` for what the hook thread
sends, or has it; it restores the displays after `unhook`. -/
inductive Caller where
  | idle
  | hooking (sent : Option String)
  | restoring
  deriving DecidableEq, Repr

/-- How far a turn-on comes that has passed the check: it ends with an error before or after the
guard is set, or gets to `hook` in a thread with an id. -/
inductive TurnOn where
  | refused
  | failed
  | started (thread : UInt32)
  deriving DecidableEq, Repr

/-- The implementation, `CUR_HOOK_THREAD_ID`, and the threads. -/
structure System where
  mode : PrivacyMode
  curHookThreadId : UInt32
  threads : UInt32 → Option HookThread
  caller : Caller

/-- Privacy mode is off. -/
def System.start : System where
  mode := ⟨privacyModeImplWinVirtualDisplay, invalidPrivacyModeConnId⟩
  curHookThreadId := 0
  threads := fun _ => none
  caller := .idle

namespace System

/-- A thread moves on, or ends. -/
def setThread (s : System) (id : UInt32) (thread : Option HookThread) : System :=
  { s with threads := Function.update s.threads id thread }

/-- `unhook`. -/
def unhook (s : System) : System :=
  if s.curHookThreadId ≠ 0 then
    s.setThread s.curHookThreadId
      ((s.threads s.curHookThreadId).map fun t => { t with exits := t.exits + 1 })
  else s

/-- `turn_on_privacy`, up to what it waits for. -/
def turnOnPrivacy (s : System) (connId : Int32) (turnOn : TurnOn) : Option System :=
  match s.mode.checkOnConnId connId with
  | .error _ | .ok true => some s
  | .ok false =>
      match turnOn with
      | .refused => some s
      | .failed => some { s.unhook with caller := .restoring }
      | .started id =>
          if id ≠ 0 ∧ s.threads id = none then
            some { s.setThread id (some ⟨.spawned, 0⟩) with
              mode := { s.mode with preConnId := connId }
              caller := .hooking none }
          else none

/-- `turn_off_privacy`, up to the restoring of the displays. -/
def turnOffPrivacy (s : System) (connId : Int32) : System :=
  match s.mode.checkOffConnId connId with
  | .error _ => s
  | .ok () => { s.unhook with caller := .restoring }

/-- `do_hook` in a thread with an id. -/
def doHook (s : System) (id : UInt32) (t : HookThread) : System :=
  if s.curHookThreadId ≠ 0 then
    { s.setThread id none with caller := .hooking (some "Already hooked") }
  else
    { s.setThread id (some { t with phase := .waiting }) with
      curHookThreadId := id
      caller := .hooking (some "") }

/-- The next step of a hook thread. -/
def threadNext (s : System) (id : UInt32) (t : HookThread) : Option System :=
  match t.phase with
  | .spawned => some (s.doHook id t)
  | .waiting =>
      if t.exits = 0 then none else some (s.setThread id (some ⟨.left, t.exits - 1⟩))
  | .left => some (s.setThread id (some { t with phase := .keyboardRemoved }))
  | .keyboardRemoved => some (s.setThread id (some { t with phase := .removed }))
  | .removed => some { s.setThread id none with curHookThreadId := 0 }

end System

/-- The calls, their ends, and the steps of the hook threads. -/
inductive Label where
  | turnOn (connId : Int32) (turnOn : TurnOn)
  | turnOff (connId : Int32)
  | finish
  | thread (id : UInt32)
  deriving DecidableEq, Repr

/-- One step. -/
def step (s : System) : Label → Option System
  | .turnOn connId turnOn =>
      match s.caller with
      | .idle => s.turnOnPrivacy connId turnOn
      | _ => none
  | .turnOff connId =>
      match s.caller with
      | .idle => some (s.turnOffPrivacy connId)
      | _ => none
  | .finish =>
      match s.caller with
      | .hooking (some _) => some { s with caller := .idle }
      | .restoring =>
          some { s with
            mode := { s.mode with preConnId := invalidPrivacyModeConnId }
            caller := .idle }
      | _ => none
  | .thread id =>
      match s.threads id with
      | some t => s.threadNext id t
      | none => none

/-- The steps as a relation. -/
def Step (s : System) (i : Label) (s' : System) : Prop := step s i = some s'

/-- No call is being made, no exit message is pending, and every hook thread waits for messages. -/
structure Quiet (s : System) : Prop where
  caller : s.caller = .idle
  threads : ∀ id t, s.threads id = some t → t.phase = .waiting ∧ t.exits = 0

/-- The hooks are installed. -/
def Hooked (s : System) : Prop := ∃ id t, s.threads id = some t ∧ t.phase.hooked = true

/-- The local input is blocked exactly while privacy mode is on. -/
def Blocked (s : System) : Prop :=
  Quiet s → (Hooked s ↔ s.mode.preConnId ≠ invalidPrivacyModeConnId)

/-- A hook thread that begins finds that the last one has cleared `CUR_HOOK_THREAD_ID`. -/
def Free (s : System) : Label → Prop
  | .thread id => (s.threads id).map HookThread.phase = some .spawned → s.curHookThreadId = 0
  | _ => True

instance decidableFree (s : System) : (i : Label) → Decidable (Free s i)
  | .thread id => inferInstanceAs
      (Decidable ((s.threads id).map HookThread.phase = some .spawned → s.curHookThreadId = 0))
  | .turnOn _ _ | .turnOff _ | .finish => isTrue trivial

/-! ## What the steps do -/

section

variable {s s' : System} {i : Label} {id : UInt32} {t : HookThread}

/-- What a step can do. -/
inductive Effect (s : System) (i : Label) : System → Prop where
  | stay : Effect s i s
  | unhook (hcaller : s.caller = .idle) : Effect s i { s.unhook with caller := .restoring }
  | start {connId : Int32} {id : UInt32} (hcaller : s.caller = .idle)
      (hoff : s.mode.preConnId = invalidPrivacyModeConnId)
      (hconn : connId ≠ invalidPrivacyModeConnId) (hid : id ≠ 0) (hfree : s.threads id = none) :
      Effect s i { s.setThread id (some ⟨.spawned, 0⟩) with
        mode := { s.mode with preConnId := connId }
        caller := .hooking none }
  | doHook {id : UInt32} {t : HookThread} (hi : i = .thread id) (ht : s.threads id = some t)
      (hphase : t.phase = .spawned) :
      Effect s i (s.doHook id t)
  | returned {sent : String} (hcaller : s.caller = .hooking (some sent)) :
      Effect s i { s with caller := .idle }
  | off (hcaller : s.caller = .restoring) :
      Effect s i { s with
        mode := { s.mode with preConnId := invalidPrivacyModeConnId }
        caller := .idle }
  | leave {id : UInt32} {t t' : HookThread} (ht : s.threads id = some t)
      (hphase : t.phase ≠ .spawned) (hexits : t.phase = .waiting → t.exits ≠ 0)
      (hphase' : t'.phase ≠ .spawned ∧ t'.phase ≠ .waiting) :
      Effect s i (s.setThread id (some t'))
  | clear {id : UInt32} {t : HookThread} (ht : s.threads id = some t)
      (hphase : t.phase = .removed) :
      Effect s i { s.setThread id none with curHookThreadId := 0 }

theorem checkOnConnId_eq_false {m : PrivacyMode} {connId : Int32}
    (h : m.checkOnConnId connId = .ok false) :
  m.preConnId = invalidPrivacyModeConnId ∧ connId ≠ invalidPrivacyModeConnId
  := by
  rw [PrivacyMode.checkOnConnId] at h
  split at h
  next => cases h
  next hother =>
      split at h
      next => cases h
      next hoff =>
          have hinvalid := not_not.mp hoff
          exact ⟨hinvalid, fun hconn => hother (hinvalid.trans hconn.symm)⟩

theorem effect_turnOnPrivacy {connId : Int32} {turnOn : TurnOn} (hcaller : s.caller = .idle)
    (h : s.turnOnPrivacy connId turnOn = some s') (i : Label) :
  Effect s i s'
  := by
  unfold System.turnOnPrivacy at h
  split at h
  next =>
      cases h
      exact .stay
  next =>
      cases h
      exact .stay
  next hcheck =>
      obtain ⟨hoff, hconn⟩ := checkOnConnId_eq_false hcheck
      cases turnOn with
      | refused =>
          cases h
          exact .stay
      | failed =>
          cases h
          exact .unhook hcaller
      | started id =>
          dsimp only at h
          split at h
          next hfresh =>
              cases h
              exact .start hcaller hoff hconn hfresh.1 hfresh.2
          next => cases h

theorem effect_threadNext (ht : s.threads id = some t) (h : s.threadNext id t = some s') :
  Effect s (.thread id) s'
  := by
  rw [System.threadNext] at h
  have hleave : ∀ phase, t.phase ≠ .spawned → t.phase ≠ .waiting →
      phase ≠ .spawned ∧ phase ≠ .waiting →
      Effect s (.thread id) (s.setThread id (some { t with phase := phase })) := by
    intro phase hspawned hwaiting hphase
    exact .leave ht hspawned (fun h => absurd h hwaiting) hphase
  cases hphase : t.phase with
  | spawned =>
      rw [hphase] at h
      cases h
      exact .doHook rfl ht hphase
  | waiting =>
      rw [hphase] at h
      dsimp only at h
      split at h
      next => cases h
      next hexits =>
          cases h
          have hspawned : t.phase ≠ .spawned := by
            rw [hphase]
            decide
          have hleft : Phase.left ≠ .spawned ∧ Phase.left ≠ .waiting := by decide
          exact .leave ht hspawned (fun _ => hexits) hleft
  | removed =>
      rw [hphase] at h
      cases h
      exact .clear ht hphase
  | left =>
      rw [hphase] at h hleave
      cases h
      exact hleave .keyboardRemoved (by decide) (by decide) (by decide)
  | keyboardRemoved =>
      rw [hphase] at h hleave
      cases h
      exact hleave .removed (by decide) (by decide) (by decide)

theorem Step.effect (hstep : Step s i s') : Effect s i s'
  := by
  rw [Step] at hstep
  cases i with
  | turnOn connId turnOn =>
      rw [step] at hstep
      split at hstep
      next hcaller => exact effect_turnOnPrivacy hcaller hstep _
      next => cases hstep
  | turnOff connId =>
      rw [step] at hstep
      split at hstep
      next hcaller =>
          rw [System.turnOffPrivacy] at hstep
          split at hstep
          next =>
              cases hstep
              exact .stay
          next =>
              cases hstep
              exact .unhook hcaller
      next => cases hstep
  | finish =>
      rw [step] at hstep
      split at hstep
      next hcaller =>
          cases hstep
          exact .returned hcaller
      next hcaller =>
          cases hstep
          exact .off hcaller
      next => cases hstep
  | thread id =>
      rw [step] at hstep
      split at hstep
      next t ht => exact effect_threadNext ht hstep
      next => cases hstep

theorem threads_setThread {thread : Option HookThread} {id' : UInt32}
    (h : (s.setThread id thread).threads id' = some t) :
  id' = id ∧ thread = some t ∨ id' ≠ id ∧ s.threads id' = some t
  := by
  by_cases hid : id' = id
  · subst hid
    change Function.update s.threads id' thread id' = some t at h
    rw [Function.update_self] at h
    exact Or.inl ⟨rfl, h⟩
  · change Function.update s.threads id thread id' = some t at h
    rw [Function.update_of_ne hid] at h
    exact Or.inr ⟨hid, h⟩

/-- The thread that `unhook` posts to, and the others. -/
theorem threads_unhook {id' : UInt32} (h : s.unhook.threads id' = some t) :
  (∃ t₀, s.threads id' = some t₀ ∧ id' = s.curHookThreadId ∧ t.phase = t₀.phase ∧ t.exits ≠ 0)
    ∨ s.threads id' = some t ∧ (s.curHookThreadId = 0 ∨ id' ≠ s.curHookThreadId)
  := by
  rw [System.unhook] at h
  split at h
  next =>
      rcases threads_setThread h with ⟨rfl, hmap⟩ | ⟨hne, ht⟩
      · obtain ⟨t₀, ht₀, rfl⟩ := Option.map_eq_some_iff.mp hmap
        exact Or.inl ⟨t₀, ht₀, rfl, rfl, Nat.succ_ne_zero _⟩
      · exact Or.inr ⟨ht, Or.inr hne⟩
  next hzero => exact Or.inr ⟨h, Or.inl (not_not.mp hzero)⟩

/-! ## The threads -/

/-- At most one hook thread runs, under the id in `CUR_HOOK_THREAD_ID`, and at most one is
spawned, for which the call waits. -/
structure Threads (s : System) : Prop where
  zero : s.threads 0 = none
  running : ∀ id t, s.threads id = some t → t.phase ≠ .spawned → id = s.curHookThreadId
  spawned : ∀ id t, s.threads id = some t → t.phase = .spawned →
    t.exits = 0 ∧ s.caller = .hooking none
  one : ∀ id id' t t', s.threads id = some t → t.phase = .spawned → s.threads id' = some t' →
    t'.phase = .spawned → id = id'
  current : s.curHookThreadId ≠ 0 → ∃ t, s.threads s.curHookThreadId = some t ∧ t.phase ≠ .spawned

/-- Where nothing happens and there is no current thread, there is none. -/
theorem Threads.eq_none (h : Threads s) (hcaller : s.caller = .idle)
    (hcur : s.curHookThreadId = 0) (id : UInt32) :
  s.threads id = none
  := by
  cases ht : s.threads id with
  | none => rfl
  | some t =>
      by_cases hphase : t.phase = .spawned
      · have hhooking := (h.spawned id t ht hphase).2
        rw [hcaller] at hhooking
        cases hhooking
      · have hid := h.running id t ht hphase
        rw [hid, hcur, h.zero] at ht
        cases ht

theorem Threads.ne_zero (h : Threads s) (ht : s.threads id = some t) : id ≠ 0
  := by
  rintro rfl
  rw [h.zero] at ht
  cases ht

theorem Threads.unhook (h : Threads s) (hcaller : s.caller = .idle) (caller : Caller) :
  Threads { s.unhook with caller := caller }
  := by
  have hcur : s.unhook.curHookThreadId = s.curHookThreadId := by
    rw [System.unhook]
    split
    all_goals rfl
  have hthread : ∀ id t, s.unhook.threads id = some t →
      ∃ t₀, s.threads id = some t₀ ∧ t₀.phase = t.phase := by
    intro id t ht
    rcases threads_unhook ht with ⟨t₀, ht₀, -, hphase, -⟩ | ⟨ht, -⟩
    · exact ⟨t₀, ht₀, hphase.symm⟩
    · exact ⟨t, ht, rfl⟩
  have hspawned : ∀ id t, s.unhook.threads id = some t → t.phase ≠ .spawned := by
    intro id t ht hphase
    obtain ⟨t₀, ht₀, hphase₀⟩ := hthread id t ht
    have hhooking := (h.spawned id t₀ ht₀ (hphase₀.trans hphase)).2
    rw [hcaller] at hhooking
    cases hhooking
  constructor
  · change s.unhook.threads 0 = none
    cases ht : s.unhook.threads 0 with
    | none => rfl
    | some t =>
        obtain ⟨t₀, ht₀, -⟩ := hthread 0 t ht
        cases h.ne_zero ht₀ rfl
  · intro id t ht _
    obtain ⟨t₀, ht₀, hphase⟩ := hthread id t ht
    exact (h.running id t₀ ht₀ (hphase ▸ hspawned id t ht)).trans hcur.symm
  · intro id t ht hphase
    cases hspawned id t ht hphase
  · intro id id' t t' ht hphase
    cases hspawned id t ht hphase
  · intro hne
    change s.unhook.curHookThreadId ≠ 0 at hne
    change ∃ t, s.unhook.threads s.unhook.curHookThreadId = some t ∧ _
    rw [hcur] at hne ⊢
    obtain ⟨t, ht, hphase⟩ := h.current hne
    refine ⟨{ t with exits := t.exits + 1 }, ?_, hphase⟩
    rw [System.unhook, if_pos hne, ht]
    exact Function.update_self _ _ _

theorem Threads.of_caller (h : Threads s) (hcaller : s.caller ≠ .hooking none)
    (hthreads : s'.threads = s.threads) (hcur : s'.curHookThreadId = s.curHookThreadId) :
  Threads s'
  := by
  obtain ⟨hzero, hrunning, hspawned, hone, hcurrent⟩ := h
  rw [← hthreads, ← hcur] at hrunning hcurrent
  rw [← hthreads] at hzero hspawned hone
  refine ⟨hzero, hrunning, ?_, hone, hcurrent⟩
  intro id t ht hphase
  cases hcaller (hspawned id t ht hphase).2

/-- A spawned thread comes to the others. -/
theorem Threads.start (h : Threads s) (hcaller : s.caller = .idle) (hid : id ≠ 0)
    (hfree : s.threads id = none) (mode : PrivacyMode) :
  Threads { s.setThread id (some ⟨.spawned, 0⟩) with mode := mode, caller := .hooking none }
  := by
  have hold : ∀ id' t, s.threads id' = some t → t.phase ≠ .spawned := by
    intro id' t ht hphase
    have hhooking := (h.spawned id' t ht hphase).2
    rw [hcaller] at hhooking
    cases hhooking
  constructor
  · exact (Function.update_of_ne hid.symm _ _).trans h.zero
  · intro id' t ht hphase
    rcases threads_setThread ht with ⟨-, heq⟩ | ⟨-, ht⟩
    · cases heq
      cases hphase rfl
    · exact h.running id' t ht hphase
  · intro id' t ht hphase
    rcases threads_setThread ht with ⟨-, heq⟩ | ⟨-, ht⟩
    · cases heq
      exact ⟨rfl, rfl⟩
    · cases hold id' t ht hphase
  · intro id' id'' t t' ht hphase ht' hphase'
    rcases threads_setThread ht with ⟨rfl, -⟩ | ⟨-, ht⟩
    · rcases threads_setThread ht' with ⟨rfl, -⟩ | ⟨-, ht'⟩
      · rfl
      · cases hold id'' t' ht' hphase'
    · cases hold id' t ht hphase
  · intro hne
    obtain ⟨t, ht, hphase⟩ := h.current hne
    refine ⟨t, ?_, hphase⟩
    have hother : s.curHookThreadId ≠ id := by
      rintro rfl
      rw [hfree] at ht
      cases ht
    exact (Function.update_of_ne hother _ _).trans ht

theorem Threads.doHook (h : Threads s) (ht : s.threads id = some t) (hphase : t.phase = .spawned) :
  Threads (s.doHook id t)
  := by
  have hid := h.ne_zero ht
  have honly : ∀ id' t', id' ≠ id → s.threads id' = some t' → t'.phase ≠ .spawned := by
    intro id' t' hne ht' hphase'
    exact hne (h.one id' id t' t ht' hphase' ht hphase)
  rw [System.doHook]
  split
  next hcur =>
      constructor
      · exact (Function.update_of_ne hid.symm _ _).trans h.zero
      · intro id' t' ht' hphase'
        rcases threads_setThread ht' with ⟨-, heq⟩ | ⟨-, ht'⟩
        · cases heq
        · exact h.running id' t' ht' hphase'
      · intro id' t' ht' hphase'
        rcases threads_setThread ht' with ⟨-, heq⟩ | ⟨hne, ht'⟩
        · cases heq
        · cases honly id' t' hne ht' hphase'
      · intro id' id'' t' t'' ht' hphase'
        rcases threads_setThread ht' with ⟨-, heq⟩ | ⟨hne, ht'⟩
        · cases heq
        · cases honly id' t' hne ht' hphase'
      · intro hne
        obtain ⟨t', ht', hphase'⟩ := h.current hne
        have hother : s.curHookThreadId ≠ id := by
          rintro rfl
          rw [ht] at ht'
          cases ht'
          exact hphase' hphase
        exact ⟨t', (Function.update_of_ne hother _ _).trans ht', hphase'⟩
  next hcur =>
      constructor
      · exact (Function.update_of_ne hid.symm _ _).trans h.zero
      · intro id' t' ht' hphase'
        rcases threads_setThread ht' with ⟨rfl, -⟩ | ⟨-, ht'⟩
        · rfl
        · have hrunning := h.running id' t' ht' hphase'
          cases h.ne_zero ht' (hrunning.trans (not_not.mp hcur))
      · intro id' t' ht' hphase'
        rcases threads_setThread ht' with ⟨-, heq⟩ | ⟨hne, ht'⟩
        · cases heq
          cases hphase'
        · cases honly id' t' hne ht' hphase'
      · intro id' id'' t' t'' ht' hphase'
        rcases threads_setThread ht' with ⟨-, heq⟩ | ⟨hne, ht'⟩
        · cases heq
          cases hphase'
        · cases honly id' t' hne ht' hphase'
      · intro _
        refine ⟨{ t with phase := .waiting }, Function.update_self _ _ _, ?_⟩
        change Phase.waiting ≠ Phase.spawned
        decide

theorem Threads.leave {t' : HookThread} (h : Threads s) (ht : s.threads id = some t)
    (hphase : t.phase ≠ .spawned) (hphase' : t'.phase ≠ .spawned) :
  Threads (s.setThread id (some t'))
  := by
  have hcur := h.running id t ht hphase
  constructor
  · exact (Function.update_of_ne (h.ne_zero ht).symm _ _).trans h.zero
  · intro id' t'' ht'' hrunning
    rcases threads_setThread ht'' with ⟨rfl, -⟩ | ⟨-, ht''⟩
    · exact hcur
    · exact h.running id' t'' ht'' hrunning
  · intro id' t'' ht'' hspawned
    rcases threads_setThread ht'' with ⟨-, heq⟩ | ⟨-, ht''⟩
    · cases heq
      cases hphase' hspawned
    · exact h.spawned id' t'' ht'' hspawned
  · intro id' id'' t₁ t₂ ht₁ hspawned₁ ht₂ hspawned₂
    rcases threads_setThread ht₁ with ⟨-, heq⟩ | ⟨-, ht₁⟩
    · cases heq
      cases hphase' hspawned₁
    · rcases threads_setThread ht₂ with ⟨-, heq⟩ | ⟨-, ht₂⟩
      · cases heq
        cases hphase' hspawned₂
      · exact h.one id' id'' t₁ t₂ ht₁ hspawned₁ ht₂ hspawned₂
  · intro _
    refine ⟨t', ?_, hphase'⟩
    change Function.update s.threads id (some t') s.curHookThreadId = some t'
    rw [← hcur]
    exact Function.update_self _ _ _

theorem Threads.clear (h : Threads s) (ht : s.threads id = some t) (hphase : t.phase ≠ .spawned) :
  Threads { s.setThread id none with curHookThreadId := 0 }
  := by
  have hcur := h.running id t ht hphase
  have hold : ∀ id' t', (s.setThread id none).threads id' = some t' →
      id' ≠ id ∧ s.threads id' = some t' := by
    intro id' t' ht'
    rcases threads_setThread ht' with ⟨-, heq⟩ | hother
    · cases heq
    · exact hother
  constructor
  · exact (Function.update_of_ne (h.ne_zero ht).symm _ _).trans h.zero
  · intro id' t' ht' hrunning
    obtain ⟨hne, ht'⟩ := hold id' t' ht'
    cases hne ((h.running id' t' ht' hrunning).trans hcur.symm)
  · intro id' t' ht' hspawned
    exact h.spawned id' t' (hold id' t' ht').2 hspawned
  · intro id' id'' t₁ t₂ ht₁ hspawned₁ ht₂ hspawned₂
    exact h.one id' id'' t₁ t₂ (hold id' t₁ ht₁).2 hspawned₁ (hold id'' t₂ ht₂).2 hspawned₂
  · intro hne
    cases hne rfl

/-- Every step keeps what is known of the threads. -/
theorem Threads.step (h : Threads s) (hstep : Step s i s') : Threads s'
  := by
  cases hstep.effect with
  | stay => exact h
  | unhook hcaller => exact h.unhook hcaller .restoring
  | start hcaller _ _ hid hfree => exact h.start hcaller hid hfree _
  | doHook _ ht hphase => exact h.doHook ht hphase
  | returned hcaller =>
      refine h.of_caller ?_ rfl rfl
      rw [hcaller]
      rintro ⟨⟩
  | off hcaller =>
      refine h.of_caller ?_ rfl rfl
      rw [hcaller]
      rintro ⟨⟩
  | leave ht hphase _ hphase' => exact h.leave ht hphase hphase'.1
  | @clear id t ht hphase =>
      apply h.clear ht
      rw [hphase]
      decide

theorem threads_start : Threads .start
  := by
  refine ⟨rfl, ?_, ?_, ?_, fun hne => absurd rfl hne⟩
  · rintro id t ⟨⟩
  · rintro id t ⟨⟩
  · rintro id id' t t' ⟨⟩

/-- What holds where every hook thread that began found that the last one was gone. -/
structure Kept (s : System) : Prop where
  threads : Threads s
  hooking : ∀ sent, s.caller = .hooking sent → s.mode.preConnId ≠ invalidPrivacyModeConnId
  on : s.caller ≠ .restoring → s.caller ≠ .hooking none →
    s.mode.preConnId ≠ invalidPrivacyModeConnId → ∃ id, s.threads id = some ⟨.waiting, 0⟩
  off : s.caller = .restoring ∨ s.caller = .hooking none
      ∨ s.mode.preConnId = invalidPrivacyModeConnId →
    ∀ id t, s.threads id = some t → t.phase = .waiting → t.exits ≠ 0

/-- A thread that waits and has no message is the only one that has not left the loop. -/
theorem Threads.eq_of_waiting (h : Threads s) {id' : UInt32}
    (hwaiting : s.threads id' = some ⟨.waiting, 0⟩) (ht : s.threads id = some t)
    (hphase : t.phase ≠ .spawned) :
  t = ⟨.waiting, 0⟩
  := by
  have hcur := h.running id t ht hphase
  have hcur' := h.running id' _ hwaiting (by decide)
  rw [hcur, ← hcur', hwaiting] at ht
  exact (Option.some.inj ht).symm

/-- Every step that meets the condition keeps what holds. -/
theorem Kept.step (h : Kept s) (hfree : Free s i) (hstep : Step s i s') : Kept s'
  := by
  have hthreads := h.threads.step hstep
  cases hstep.effect with
  | stay => exact h
  | unhook hcaller =>
      refine ⟨hthreads, ?_, fun hrestoring => absurd rfl hrestoring, ?_⟩
      · rintro sent ⟨⟩
      · intro _ id t ht hphase
        rcases threads_unhook ht with ⟨_, _, _, _, hexits⟩ | ⟨ht, hother⟩
        · exact hexits
        · have hcur := h.threads.running id t ht (by rw [hphase]; decide)
          rcases hother with hzero | hne
          · cases h.threads.ne_zero ht (hcur.trans hzero)
          · cases hne hcur
  | start hcaller hoff hconn hid hnone =>
      refine ⟨hthreads, fun _ _ => hconn, fun _ hhooking => absurd rfl hhooking, ?_⟩
      intro _ id' t ht hphase
      rcases threads_setThread ht with ⟨-, heq⟩ | ⟨-, ht⟩
      · cases heq
        cases hphase
      · exact h.off (Or.inr (Or.inr hoff)) id' t ht hphase
  | @doHook id t hi ht hphase =>
      subst hi
      have hcur := hfree (by rw [ht, Option.map_some, hphase])
      obtain ⟨hexits, hhooking⟩ := h.threads.spawned id t ht hphase
      have hon := h.hooking none hhooking
      rw [System.doHook, if_neg (not_not.mpr hcur)] at hthreads ⊢
      refine ⟨hthreads, fun _ _ => hon, ?_, ?_⟩
      · intro _ _ _
        refine ⟨id, ?_⟩
        rw [← hexits]
        exact Function.update_self _ _ _
      · rintro (hrestoring | hwaits | hoff)
        · cases hrestoring
        · cases hwaits
        · cases hon hoff
  | returned hcaller =>
      refine ⟨hthreads, ?_, ?_, ?_⟩
      · rintro sent ⟨⟩
      · intro _ _ hon
        apply h.on _ _ hon
        all_goals
          rw [hcaller]
          rintro ⟨⟩
      · rintro (hrestoring | hwaits | hoff)
        · cases hrestoring
        · cases hwaits
        · cases h.hooking _ hcaller hoff
  | off hcaller =>
      refine ⟨hthreads, ?_, fun _ _ hon => absurd rfl hon, fun _ => h.off (Or.inl hcaller)⟩
      rintro sent ⟨⟩
  | leave ht hphase hexits hphase' =>
      refine ⟨hthreads, h.hooking, ?_, ?_⟩
      · intro hrestoring hwaits hon
        obtain ⟨id', hwaiting⟩ := h.on hrestoring hwaits hon
        have heq := h.threads.eq_of_waiting hwaiting ht hphase
        cases hexits (congrArg HookThread.phase heq) (congrArg HookThread.exits heq)
      · intro hoff id' t' ht' hwaiting
        rcases threads_setThread ht' with ⟨-, heq⟩ | ⟨-, ht'⟩
        · cases heq
          cases hphase'.2 hwaiting
        · exact h.off hoff id' t' ht' hwaiting
  | @clear id t ht hphase =>
      refine ⟨hthreads, h.hooking, ?_, ?_⟩
      · intro hrestoring hwaits hon
        obtain ⟨id', hwaiting⟩ := h.on hrestoring hwaits hon
        have hrunning : t.phase ≠ .spawned := by
          rw [hphase]
          decide
        have heq := h.threads.eq_of_waiting hwaiting ht hrunning
        rw [heq] at hphase
        cases hphase
      · intro hoff id' t' ht' hwaiting
        rcases threads_setThread ht' with ⟨-, heq⟩ | ⟨-, ht'⟩
        · cases heq
        · exact h.off hoff id' t' ht' hwaiting

theorem Kept.blocked (h : Kept s) : Blocked s
  := by
  intro hquiet
  constructor
  · rintro ⟨id, t, ht, -⟩ hoff
    obtain ⟨hphase, hexits⟩ := hquiet.threads id t ht
    exact h.off (Or.inr (Or.inr hoff)) id t ht hphase hexits
  · intro hon
    have hnot : ∀ caller, caller ≠ .idle → s.caller ≠ caller := by
      intro caller hne heq
      exact hne (heq.symm.trans hquiet.caller)
    obtain ⟨id, hid⟩ := h.on (hnot _ (by decide)) (hnot _ (by decide)) hon
    exact ⟨id, _, hid, rfl⟩

/-- In every run in which each hook thread begins when `CUR_HOOK_THREAD_ID` is cleared, the local
input is blocked exactly while privacy mode is on. -/
theorem blocked_of_run {h : List (System × Label)} (hrun : Run Step .start h s)
    (hfree : ∀ x ∈ h, Free x.1 x.2) :
  (∀ x ∈ h, Blocked x.1) ∧ Blocked s
  := by
  have hstart : Kept .start := by
    refine ⟨threads_start, ?_, fun _ _ hon => absurd rfl hon, ?_⟩
    · rintro sent ⟨⟩
    · rintro _ id t ⟨⟩
  exact hrun.forall_of Free Kept Blocked hstart (fun s hs => hs.blocked)
    (fun s i s' hs hi hstep => hs.step hi hstep) hfree

/-- Privacy mode is turned on, off and on again; each thread ends before the next begins. -/
def onOffOn : List Label :=
  [.turnOn 1 (.started 7), .thread 7, .finish, .turnOff 1, .thread 7, .finish, .thread 7, .thread 7,
    .thread 7, .turnOn 2 (.started 8), .thread 8, .finish]

theorem blocked_onOffOn :
  ∃ h s, Run Step .start h s ∧ s.mode.preConnId = 2 ∧ Hooked s ∧ Blocked s
  := by
  obtain ⟨h, s, hrun, htest⟩ := Run.exists_of_traceM step .start onOffOn
    (fun h s => s.mode.preConnId == 2 && s.threads 8 == some ⟨.waiting, 0⟩
      && h.all fun x => Free x.1 x.2) (by decide)
  simp only [Bool.and_eq_true, beq_iff_eq, List.all_eq_true, decide_eq_true_eq] at htest
  obtain ⟨⟨hon, hthread⟩, hfree⟩ := htest
  exact ⟨h, s, hrun, hon, ⟨8, _, hthread, rfl⟩, (blocked_of_run hrun hfree).2⟩

/-- The same, but the first thread ends last. -/
def onOffOnEarly : List Label :=
  [.turnOn 1 (.started 7), .thread 7, .finish, .turnOff 1, .finish, .turnOn 2 (.started 8),
    .thread 8, .finish, .thread 7, .thread 7, .thread 7, .thread 7]

theorem not_blocked :
  ∃ h s, Run Step .start h s ∧ ¬ Blocked s
  := by
  obtain ⟨h, s, hrun, htest⟩ := Run.exists_of_traceM step .start onOffOnEarly
    (fun _ s => s.mode.preConnId == 2 && s.curHookThreadId == 0 && s.caller == .idle) (by decide)
  simp only [Bool.and_eq_true, beq_iff_eq] at htest
  obtain ⟨⟨hon, hcur⟩, hcaller⟩ := htest
  have hthreads : Threads s :=
    hrun.invariant Threads threads_start fun s i s' hs hstep => hs.step hstep
  have hnone := hthreads.eq_none hcaller hcur
  refine ⟨h, s, hrun, ?_⟩
  intro hblocked
  have hquiet : Quiet s := by
    refine ⟨hcaller, ?_⟩
    intro id t ht
    rw [hnone id] at ht
    cases ht
  have hinvalid : s.mode.preConnId ≠ invalidPrivacyModeConnId := by
    rw [hon]
    decide
  obtain ⟨id, t, ht, -⟩ := (hblocked hquiet).mpr hinvalid
  rw [hnone id] at ht
  cases ht

end

end VynxDesk.Privacy.Hooks
