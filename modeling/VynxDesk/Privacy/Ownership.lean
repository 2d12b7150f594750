import VynxDesk.Privacy.Mode

/-!
# Ownership of privacy mode

Once a turn-on of a connection has succeeded, privacy mode is to stay that connection's until it
asks otherwise, ends, or the local user turns privacy mode off.  The checks of
`turn_on_privacy_sync` and `turn_off_privacy` see to that, but the clean-up of a turn-on that failed
turns privacy mode off with the invalid id, whoever it belongs to (`not_owned`).  That is the only
exception (`owned_iff`).
-/

namespace VynxDesk.Privacy

variable {platform : Platform} {s : System} {a c : Int32} {w worker : Option ℕ} {implKey : String}
  {started : Except String Bool}

/-! ## What ownership means -/

/-- The connection whose turn-on holds has privacy mode, and all others are refused. -/
def Owned (platform : Platform) (s : System) : Prop :=
  ∀ a w, s.owner = some (a, w) → preConnId s.mode = a
    ∧ ∀ c implKey started, c ≠ a →
      turnOnPrivacySync platform s.settings s.mode implKey c started
        = (s.mode, some (.error occupied))

/-- A clean-up after a failed turn-on finds no turn-on that holds. -/
def Spares (s : System) : Label → Prop
  | .clean _ => s.owner = none
  | _ => True

instance (s : System) : DecidablePred (Spares s)
  | .clean _ => inferInstanceAs (Decidable (s.owner = none))
  | .settings _ | .connect _ | .request _ _ _ _ | .call _ _ | .work _ _ | .send _ | .receive _
  | .timeOut _ | .reply _ | .off _ _ | .revoke _ | .close _ | .check _ | .release _ | .localOff
  | .localSwitch _ => isTrue trivial

/-- Whether the task of a connection is in its loop. -/
def Phase.inLoop : Phase → Bool
  | .idle | .calling _ | .waiting _ _ | .returned _ _ _ | .cleaning _ _ _ => true
  | .closing | .releasing | .ended => false

/-- The invariant of the runs whose clean-ups spare the owner. -/
structure OwnedInv (s : System) : Prop where
  tasks : ∀ c phase, s.tasks c = some phase → c ≠ invalidPrivacyModeConnId
  workers : ∀ w worker, s.workers w = some worker → worker.connId ≠ invalidPrivacyModeConnId
  owned : ∀ a w, s.owner = some (a, w) → preConnId s.mode = a
  inLoop : ∀ a w, s.owner = some (a, w) → ∃ phase, s.tasks a = some phase ∧ phase.inLoop = true

theorem OwnedInv.start (settings : Settings) :
  OwnedInv (System.start platform settings)
  := ⟨nofun, nofun, nofun, nofun⟩

theorem OwnedInv.valid (h : OwnedInv s) (howner : s.owner = some (a, w)) :
  a ≠ invalidPrivacyModeConnId
  := by
  obtain ⟨phase, hphase, _⟩ := h.inLoop a w howner
  apply h.tasks a phase hphase

/-- A connection that has left its loop owns nothing. -/
theorem OwnedInv.not_owner (h : OwnedInv s) {phase : Phase} (htask : s.tasks c = some phase)
    (hleft : phase.inLoop = false) :
  ∀ w, s.owner ≠ some (c, w)
  := by
  intro w howner
  obtain ⟨phase', htask', hin⟩ := h.inLoop c w howner
  rw [htask] at htask'
  obtain rfl := Option.some.inj htask'
  rw [hleft] at hin
  cases hin

/-- While a turn-on holds, all other connections are refused. -/
theorem OwnedInv.refuses (h : OwnedInv s) (howner : s.owner = some (a, w)) (hother : c ≠ a)
    (implKey : String) (started : Except String Bool) :
  turnOnPrivacySync platform s.settings s.mode implKey c started
    = (s.mode, some (.error occupied))
  := by
  apply turnOnPrivacySync_of_other
  · rw [h.owned a w howner]
    apply h.valid howner
  · rwa [h.owned a w howner]

/-! ## What the steps do -/

theorem System.owner_disown :
  (s.disown c).owner = some (a, w) ↔ s.owner = some (a, w) ∧ a ≠ c
  := by
  rw [System.disown]
  dsimp only
  rw [Option.filter_eq_some_iff, bne_iff_ne]

theorem OwnedInv.disown (h : OwnedInv s) (c : Int32) :
  OwnedInv (s.disown c)
  := by
  refine ⟨h.tasks, h.workers, ?_, ?_⟩
  · intro a w howner
    apply h.owned a w (System.owner_disown.mp howner).1
  · intro a w howner
    apply h.inLoop a w (System.owner_disown.mp howner).1

theorem OwnedInv.notify (h : OwnedInv s) (c : Int32) (worker : Option ℕ)
    (state : PrivacyModeState) (details implKey : String) :
  OwnedInv (s.notify c worker state details implKey)
  := ⟨h.tasks, h.workers, h.owned, h.inLoop⟩

theorem OwnedInv.setWorker (h : OwnedInv s) (w : ℕ) {worker : Worker}
    (hvalid : worker.connId ≠ invalidPrivacyModeConnId) :
  OwnedInv (s.setWorker w worker)
  := by
  refine ⟨h.tasks, ?_, h.owned, h.inLoop⟩
  intro w' worker' hw'
  change Function.update s.workers w (some worker) w' = some worker' at hw'
  rcases eq_or_ne w' w with rfl | hne
  · rw [Function.update_self] at hw'
    obtain rfl := Option.some.inj hw'
    exact hvalid
  · rw [Function.update_of_ne hne] at hw'
    apply h.workers w' worker' hw'

theorem OwnedInv.setTask (h : OwnedInv s) {phase : Phase} (hvalid : c ≠ invalidPrivacyModeConnId)
    (hphase : phase.inLoop = true ∨ ∀ w, s.owner ≠ some (c, w)) :
  OwnedInv (s.setTask c phase)
  := by
  refine ⟨?_, h.workers, h.owned, ?_⟩
  · intro c' phase' hc'
    change Function.update s.tasks c (some phase) c' = some phase' at hc'
    rcases eq_or_ne c' c with rfl | hne
    · exact hvalid
    · rw [Function.update_of_ne hne] at hc'
      apply h.tasks c' phase' hc'
  · intro a w howner
    change ∃ p, Function.update s.tasks c (some phase) a = some p ∧ p.inLoop = true
    rcases eq_or_ne a c with rfl | hne
    · rw [Function.update_self]
      exact ⟨phase, rfl, hphase.resolve_right fun hnot => hnot w howner⟩
    · rw [Function.update_of_ne hne]
      apply h.inLoop a w howner

/-- Privacy mode is turned off for nobody, for its owner, or where no turn-on holds. -/
theorem OwnedInv.turnOff (h : OwnedInv s) {connId : Int32} (hspares : s.owner = none
      ∨ connId ≠ invalidPrivacyModeConnId ∧ ∀ w, s.owner ≠ some (connId, w)) :
  OwnedInv (s.turnOff connId).1
  := by
  refine ⟨h.tasks, h.workers, ?_, h.inLoop⟩
  intro a w howner
  have howner : s.owner = some (a, w) := howner
  rcases hspares with hnone | ⟨hvalid, hother⟩
  · rw [hnone] at howner
    cases howner
  · have howned := h.owned a w howner
    change preConnId (turnOffPrivacy s.mode connId).1 = a
    rw [turnOffPrivacy_of_other _ hvalid]
    · exact howned
    · rw [howned]
      rintro rfl
      exact hother w howner
    · rw [howned]
      apply h.valid howner

/-- Whose turn-on holds after a turn-on: its own, if it has succeeded and is awaited, or the one
that held before, unless it has taken another implementation. -/
theorem System.owner_turnOn {awaited : Bool}
    (howner : (s.turnOn platform c implKey worker awaited started).1.owner = some (a, w)) :
  (a = c ∧ awaited = true ∧
      (s.turnOn platform c implKey worker awaited started).2 = some (.ok true))
    ∨ (s.owner = some (a, w)
      ∧ ((s.turnOn platform c implKey worker awaited started).1.mode = s.mode ∨ a ≠ c))
  := by
  rw [System.turnOn] at howner ⊢
  generalize turnOnPrivacySync platform s.settings s.mode implKey c started = result at howner ⊢
  obtain ⟨mode, res⟩ := result
  dsimp only at howner ⊢
  have hbefore : (if mode = s.mode then s.owner else (s.disown c).owner) = some (a, w) →
      s.owner = some (a, w) ∧ (mode = s.mode ∨ a ≠ c) := by
    intro hbefore
    split at hbefore
    next hmode => exact ⟨hbefore, Or.inl hmode⟩
    next =>
        obtain ⟨hold, hne⟩ := System.owner_disown.mp hbefore
        exact ⟨hold, Or.inr hne⟩
  generalize (if mode = s.mode then s.owner else (s.disown c).owner) = before at howner hbefore
  split at howner
  next howns =>
      obtain ⟨rfl, rfl⟩ := Prod.mk.inj (Option.some.inj howner)
      simp only [Bool.and_eq_true] at howns
      exact Or.inl ⟨rfl, howns.1.2, System.eq_of_succeeded howns.1.1⟩
  next => exact Or.inr (hbefore howner)

/-- A turn-on takes privacy mode from nobody whose turn-on holds. -/
theorem OwnedInv.turnOn (h : OwnedInv s) {awaited : Bool}
    (htask : awaited = true → ∃ phase, s.tasks c = some phase ∧ phase.inLoop = true) :
  OwnedInv (s.turnOn platform c implKey worker awaited started).1
  := by
  refine ⟨h.tasks, h.workers, ?_, ?_⟩
  · intro a w howner
    rcases System.owner_turnOn howner with ⟨rfl, _, hok⟩ | ⟨hold, hmode⟩
    · exact preConnId_turnOnPrivacySync hok
    · have hsame : (s.turnOn platform c implKey worker awaited started).1.mode = s.mode := by
        rcases hmode with hmode | hne
        · exact hmode
        · exact congrArg Prod.fst (h.refuses hold hne.symm implKey started)
      rw [hsame]
      apply h.owned a w hold
  · intro a w howner
    rcases System.owner_turnOn howner with ⟨rfl, hawaited, _⟩ | ⟨hold, _⟩
    · exact htask hawaited
    · apply h.inLoop a w hold

/-! ## The steps -/

theorem OwnedInv.answer (h : OwnedInv s) (hvalid : c ≠ invalidPrivacyModeConnId)
    (worker : Option ℕ) (state : PrivacyModeState) (details implKey : String) :
  OwnedInv ((s.notify c worker state details implKey).setTask c .idle)
  := by
  apply (h.notify c worker state details implKey).setTask hvalid
  exact Or.inl rfl

theorem OwnedInv.begin (h : OwnedInv s) (hvalid : c ≠ invalidPrivacyModeConnId) (implKey : String)
    (permitted : Bool) (w : ℕ) :
  OwnedInv (s.begin platform c implKey permitted w)
  := by
  have hasked : OwnedInv
      (if getSupportedImpl platform s.settings implKey = curImplKey s.mode then s
        else s.disown c) := by
    split
    next => exact h
    next => exact h.disown c
  rw [System.begin]
  split
  next => apply h.notify
  next =>
      split
      next => apply h.notify
      next =>
          dsimp only
          generalize (if getSupportedImpl platform s.settings implKey = curImplKey s.mode then s
            else s.disown c) = s₁ at hasked ⊢
          split
          next =>
              apply OwnedInv.setTask _ hvalid
              · exact Or.inl rfl
              · exact hasked.setWorker w hvalid
          next =>
              apply hasked.setTask hvalid
              exact Or.inl rfl

theorem OwnedInv.call (h : OwnedInv s) (htask : s.tasks c = some (.calling implKey))
    (started : Except String Bool) :
  OwnedInv (s.call platform c implKey started)
  := by
  rw [System.call]
  apply OwnedInv.setTask _ (h.tasks c _ htask)
  · exact Or.inl rfl
  · apply h.turnOn
    intro _
    exact ⟨_, htask, rfl⟩

theorem OwnedInv.work (h : OwnedInv s) {w : ℕ} (hvalid : c ≠ invalidPrivacyModeConnId)
    (implKey : String) (started : Except String Bool) :
  OwnedInv (s.work platform w c implKey started)
  := by
  rw [System.work]
  apply OwnedInv.setWorker _ w hvalid
  apply h.turnOn
  intro hawaits
  rw [System.awaits] at hawaits
  split at hawaits
  next htask => exact ⟨_, htask, rfl⟩
  next => cases hawaits

theorem OwnedInv.reply (h : OwnedInv s) (hvalid : c ≠ invalidPrivacyModeConnId)
    (worker : Option ℕ) (implKey : String) (res : Option (Except String Bool)) :
  OwnedInv (s.reply c worker implKey res)
  := by
  rw [System.reply.eq_def]
  split
  next => exact h.answer hvalid _ _ _ _
  next => exact h.answer hvalid _ _ _ _
  next =>
      split
      next =>
          apply h.setTask hvalid
          exact Or.inl rfl
      next => exact h.answer hvalid _ _ _ _
  next => exact h.answer hvalid _ _ _ _

/-- A connection that asks to turn privacy mode off turns off no other one's. -/
theorem OwnedInv.turnOffOwn (h : OwnedInv s) (hvalid : c ≠ invalidPrivacyModeConnId) :
  OwnedInv ((s.disown c).turnOff c).1
  := by
  apply (h.disown c).turnOff
  apply Or.inr
  refine ⟨hvalid, ?_⟩
  intro w howner
  exact (System.owner_disown.mp howner).2 rfl

theorem OwnedInv.offRequest (h : OwnedInv s) (hvalid : c ≠ invalidPrivacyModeConnId)
    (implKey : String) :
  OwnedInv (s.offRequest platform c implKey)
  := by
  have hoff := h.turnOffOwn hvalid
  rw [System.offRequest, System.turnOffToMsg]
  split
  next => apply h.notify
  next =>
      dsimp only
      split <;> exact hoff.notify _ _ _ _ _

theorem OwnedInv.revoke (h : OwnedInv s) (hvalid : c ≠ invalidPrivacyModeConnId) :
  OwnedInv (s.revoke c)
  := by
  have hoff := h.turnOffOwn hvalid
  rw [System.revoke]
  split
  next =>
      dsimp only
      split <;> exact hoff.notify _ _ _ _ _
  next => exact h

theorem OwnedInv.localOff (h : OwnedInv s) (mode : Option PrivacyMode) :
  OwnedInv { s with mode := mode, owner := none }
  := ⟨h.tasks, h.workers, nofun, nofun⟩

/-- Every step that spares the owner keeps the invariant. -/
theorem ownedInv_step {s' : System} {i : Label} (h : OwnedInv s) (hspares : Spares s i)
    (hstep : Step platform s i s') :
  OwnedInv s'
  := by
  cases hstep.effect with
  | settings settings => exact ⟨h.tasks, h.workers, h.owned, h.inLoop⟩
  | connect hvalid =>
      apply h.setTask hvalid
      exact Or.inl rfl
  | request implKey permitted htask _ => exact h.begin (h.tasks _ _ htask) implKey permitted _
  | call started htask => exact h.call htask started
  | work started hworker => exact h.work (h.workers _ _ hworker) _ started
  | send hworker =>
      have hvalid := h.workers _ _ hworker
      exact h.setWorker _ hvalid
  | receive htask _ =>
      apply h.setTask (h.tasks _ _ htask)
      exact Or.inl rfl
  | @timeOut c w _ htask =>
      have hgivenUp : OwnedInv (if s.owner = some (c, some w) then s.disown c else s) := by
        split
        next => exact h.disown c
        next => exact h
      apply hgivenUp.setTask (h.tasks c _ htask)
      exact Or.inl rfl
  | reply htask => exact h.reply (h.tasks _ _ htask) _ _ _
  | clean htask => exact (h.turnOff (Or.inl hspares)).answer (h.tasks _ _ htask) _ _ _ _
  | off implKey htask => exact h.offRequest (h.tasks _ _ htask) implKey
  | revoke htask => exact h.revoke (h.tasks _ _ htask)
  | close htask =>
      apply (h.disown _).setTask (h.tasks _ _ htask)
      apply Or.inr
      intro w howner
      exact (System.owner_disown.mp howner).2 rfl
  | check htask =>
      apply h.setTask (h.tasks _ _ htask)
      apply Or.inr
      exact h.not_owner htask rfl
  | release htask =>
      have hvalid := h.tasks _ _ htask
      have hother := h.not_owner htask rfl
      apply (h.turnOff (Or.inr ⟨hvalid, hother⟩)).setTask hvalid
      exact Or.inr hother
  | localOff => exact h.localOff _
  | localSwitch implKey =>
      split
      next hmode =>
          refine ⟨h.tasks, h.workers, ?_, h.inLoop⟩
          rw [hmode]
          exact h.owned
      next => exact h.localOff _

/-- What ends a turn-on of `a`, which waited for the thread `w`: `a` asks to turn privacy mode off,
or to take another implementation, or does not wait any longer; it ends; the local user. -/
def Ends (platform : Platform) (s : System) (a : Int32) (w : Option ℕ) : Label → Prop
  | .off c _ | .revoke c | .close c => c = a
  | .request c implKey _ _ =>
      c = a ∧ getSupportedImpl platform s.settings implKey ≠ curImplKey s.mode
  | .call c _ =>
      c = a ∧ ∃ implKey, s.tasks c = some (.calling implKey)
        ∧ getSupportedImpl platform s.settings implKey ≠ curImplKey s.mode
  | .work w' _ =>
      ∃ implKey, s.workers w' = some ⟨a, implKey, .started⟩
        ∧ getSupportedImpl platform s.settings implKey ≠ curImplKey s.mode
  | .timeOut c => c = a ∧ ∃ w' implKey, w = some w' ∧ s.tasks c = some (.waiting w' implKey)
  | .localOff | .localSwitch _ => True
  | _ => False

theorem System.disown_of_other (howner : s.owner = some (a, w)) (hother : c ≠ a) :
  (s.disown c).owner = some (a, w)
  := System.owner_disown.mpr ⟨howner, hother.symm⟩

theorem OwnedInv.owner_turnOn (h : OwnedInv s) {awaited : Bool} (howner : s.owner = some (a, w)) :
  (s.turnOn platform c implKey worker awaited started).1.owner = some (a, w)
    ∨ c = a ∧ getSupportedImpl platform s.settings implKey ≠ curImplKey s.mode
  := by
  rcases eq_or_ne c a with rfl | hother
  · by_cases hkey : getSupportedImpl platform s.settings implKey = curImplKey s.mode
    · apply Or.inl
      rw [System.turnOn, turnOnPrivacySync_own (h.valid howner) (h.owned c w howner) hkey]
      simp [howner]
    · exact Or.inr ⟨rfl, hkey⟩
  · apply Or.inl
    rw [System.turnOn, h.refuses howner hother]
    simp [howner, System.succeeded]

theorem owner_begin (permitted : Bool) (w' : ℕ) (howner : s.owner = some (a, w)) :
  (s.begin platform c implKey permitted w').owner = some (a, w)
    ∨ c = a ∧ getSupportedImpl platform s.settings implKey ≠ curImplKey s.mode
  := by
  have hasked : (if getSupportedImpl platform s.settings implKey = curImplKey s.mode then s
      else s.disown c).owner = some (a, w)
        ∨ c = a ∧ getSupportedImpl platform s.settings implKey ≠ curImplKey s.mode := by
    split
    next => exact Or.inl howner
    next hkey =>
        rcases eq_or_ne c a with rfl | hother
        · exact Or.inr ⟨rfl, hkey⟩
        · exact Or.inl (System.disown_of_other howner hother)
  rw [System.begin]
  split
  next => exact Or.inl howner
  next =>
      split
      next => exact Or.inl howner
      next =>
          dsimp only
          generalize (if getSupportedImpl platform s.settings implKey = curImplKey s.mode then s
            else s.disown c) = s₁ at hasked ⊢
          split <;> exact hasked

theorem System.owner_reply (c : Int32) (worker : Option ℕ) (implKey : String)
    (res : Option (Except String Bool)) :
  (s.reply c worker implKey res).owner = s.owner
  := by
  rw [System.reply.eq_def]
  split
  next => rfl
  next => rfl
  next => split <;> rfl
  next => rfl

/-- A turn-on that holds does so until its connection asks otherwise, or does not wait for it any
longer, or ends, or the local user turns privacy mode off. -/
theorem owner_until {s' : System} {i : Label} (h : OwnedInv s) (hstep : Step platform s i s')
    (howner : s.owner = some (a, w)) :
  s'.owner = some (a, w) ∨ Ends platform s a w i
  := by
  cases hstep.effect with
  | settings settings => exact Or.inl howner
  | connect _ => exact Or.inl howner
  | @request c implKey permitted w' _ _ => exact owner_begin permitted w' howner
  | call started htask =>
      apply (h.owner_turnOn howner).imp_right
      rintro ⟨rfl, hkey⟩
      exact ⟨rfl, _, htask, hkey⟩
  | work started hworker =>
      apply (h.owner_turnOn howner).imp_right
      rintro ⟨rfl, hkey⟩
      exact ⟨_, hworker, hkey⟩
  | send _ => exact Or.inl howner
  | receive _ _ => exact Or.inl howner
  | @timeOut c w' implKey htask =>
      split
      next hown =>
          rw [howner] at hown
          obtain ⟨rfl, rfl⟩ := Prod.mk.inj (Option.some.inj hown)
          exact Or.inr ⟨rfl, w', implKey, rfl, htask⟩
      next => exact Or.inl howner
  | reply _ =>
      apply Or.inl
      rw [System.owner_reply]
      exact howner
  | clean _ => exact Or.inl howner
  | @off c implKey _ =>
      rcases eq_or_ne c a with rfl | hother
      · exact Or.inr rfl
      · apply Or.inl
        have hdisowned := System.disown_of_other howner hother
        rw [System.offRequest, System.turnOffToMsg]
        split
        next => exact howner
        next =>
            dsimp only
            split <;> exact hdisowned
  | @revoke c _ =>
      rcases eq_or_ne c a with rfl | hother
      · exact Or.inr rfl
      · apply Or.inl
        have hdisowned := System.disown_of_other howner hother
        rw [System.revoke]
        split
        next =>
            dsimp only
            split <;> exact hdisowned
        next => exact howner
  | @close c _ =>
      rcases eq_or_ne c a with rfl | hother
      · exact Or.inr rfl
      · exact Or.inl (System.disown_of_other howner hother)
  | check _ => exact Or.inl howner
  | release _ => exact Or.inl howner
  | localOff => exact Or.inr trivial
  | localSwitch implKey => exact Or.inr trivial

/-- A turn-on that succeeds while it is awaited holds. -/
theorem owner_of_succeeded
    (h : (s.turnOn platform c implKey worker true started).2 = some (.ok true)) :
  (s.turnOn platform c implKey worker true started).1.owner.map Prod.fst = some c
  := by
  rw [System.turnOn] at h ⊢
  dsimp only at h ⊢
  rw [h]
  generalize (if (turnOnPrivacySync platform s.settings s.mode implKey c started).1 = s.mode then
    s.owner else (s.disown c).owner) = before
  split
  next => rfl
  next howns => simpa [System.succeeded] using howns

/-- A clean-up that does not spare the owner takes privacy mode from it. -/
theorem spares_of_owned {s' : System} {i : Label} (h : OwnedInv s) (hstep : Step platform s i s')
    (howned : Owned platform s') :
  Spares s i
  := by
  cases i with
  | clean c =>
      rw [Step, step] at hstep
      split at hstep
      next =>
          obtain rfl := Option.some.inj hstep
          change s.owner = none
          rw [Option.eq_none_iff_forall_not_mem]
          rintro ⟨a, w⟩ howner
          have hoff : preConnId (turnOffPrivacy s.mode invalidPrivacyModeConnId).1 = a :=
            (howned a w howner).1
          rw [preConnId_turnOffPrivacy_invalid] at hoff
          exact h.valid howner hoff.symm
      next => cases hstep
  | _ => trivial

/-- A turn-on that has succeeded holds all along a run, and meanwhile all other connections are
refused, exactly when no clean-up of a failed turn-on finds one that holds. -/
theorem owned_iff {settings : Settings} {h : List (System × Label)} {s : System}
    (hrun : Run (Step platform) (System.start platform settings) h s) :
  ((∀ x ∈ h, Owned platform x.1) ∧ Owned platform s) ↔ ∀ x ∈ h, Spares x.1 x.2
  := by
  apply hrun.forall_iff Spares OwnedInv (Owned platform) (OwnedInv.start settings)
  · intro s hs a w howner
    refine ⟨hs.owned a w howner, ?_⟩
    intro c implKey started hother
    exact hs.refuses howner hother implKey started
  · intro s i s' hs hspares hstep
    exact ownedInv_step hs hspares hstep
  · intro s i s' hs hstep howned
    exact spares_of_owned hs hstep howned

/-- A platform with one implementation. -/
def oneImpl : Platform := ⟨"privacy_mode_impl_macos", ["privacy_mode_impl_macos"], false, ""⟩

/-- Its settings. -/
def oneImplSettings : Settings := ⟨["privacy_mode_impl_macos"], ""⟩

/-- A connection turns privacy mode on, another one is refused, and the first one turns it off. -/
def refused : List Label :=
  [.connect 1001, .connect 1002, .request 1001 "" true 0, .call 1001 (.ok true), .reply 1001,
    .request 1002 "" true 0, .call 1002 (.ok true), .off 1001 "", .reply 1002]

theorem owned_refused :
  ∃ h s, Run (Step oneImpl) (System.start oneImpl oneImplSettings) h s
    ∧ (∃ x ∈ h, x.1.owner = some (1001, none)) ∧ (∀ x ∈ h, Owned oneImpl x.1)
  := by
  obtain ⟨h, s, hrun, htest⟩ := Run.exists_of_traceM (step oneImpl)
    (System.start oneImpl oneImplSettings) refused
    (fun h _ => h.any (fun x => x.1.owner == some (1001, none))
      && h.all fun x => Spares x.1 x.2) (by decide)
  simp only [Bool.and_eq_true, List.any_eq_true, List.all_eq_true, beq_iff_eq,
    decide_eq_true_eq] at htest
  exact ⟨h, s, hrun, htest.1, ((owned_iff hrun).mpr htest.2).1⟩

/-- A connection turns privacy mode on, another one is refused, and cleans up. -/
def cleanedUp : List Label :=
  [.connect 1001, .connect 1002, .request 1001 "" true 0, .call 1001 (.ok true), .reply 1001,
    .request 1002 "" true 0, .call 1002 (.ok true), .reply 1002, .clean 1002]

theorem not_owned :
  ∃ h s, Run (Step oneImpl) (System.start oneImpl oneImplSettings) h s ∧ ¬ Owned oneImpl s
  := by
  obtain ⟨h, s, hrun, htest⟩ := Run.exists_of_traceM (step oneImpl)
    (System.start oneImpl oneImplSettings) cleanedUp
    (fun _ s => s.owner == some (1001, none) && preConnId s.mode == 0) (by decide)
  rw [Bool.and_eq_true, beq_iff_eq, beq_iff_eq] at htest
  refine ⟨h, s, hrun, ?_⟩
  intro howned
  have hon := (howned _ _ htest.1).1
  rw [htest.2] at hon
  cases hon

end VynxDesk.Privacy
