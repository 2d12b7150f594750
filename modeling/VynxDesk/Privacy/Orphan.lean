import VynxDesk.Privacy.Mode

/-!
# Orphaned privacy mode

The loop of a connection waits for the thread that turns privacy mode on for at most 7.5 seconds.
Then it cleans up and tells the peer that privacy mode is off, and at its end it looks once more.  A
thread that takes the lock of `PRIVACY_MODE` only after that turns privacy mode on for nobody
(`not_kept`); otherwise no privacy mode is left without its connection (`kept_of_run`).
-/

namespace VynxDesk.Privacy

variable {platform : Platform} {c : Int32} {implKey : String} {w : ℕ}

/-- Where the loop of a connection has ended, and the threads it spawned, privacy mode is not that
connection's; and a turn-on whose thread has ended, and of which the peer was told that it failed,
has not left privacy mode on. -/
def Kept (s : System) : Prop :=
  (∀ c, s.tasks c = some .ended →
    (∀ w worker, s.workers w = some worker → worker.connId = c →
      ∃ res, worker.progress = .ended res) →
    preConnId s.mode ≠ c)
    ∧ ∀ m ∈ s.sent, m.state ≠ .prvOnSucceeded → ∀ w, m.worker = some w →
      (∃ worker res, s.workers w = some worker ∧ worker.progress = .ended res) →
      ¬ (preConnId s.mode = m.connId ∧ s.turnedOnBy = some w)

/-- The thread whose turn-on the task of a connection handles. -/
def Phase.worker : Phase → Option ℕ
  | .waiting w _ => some w
  | .returned worker _ _ | .cleaning worker _ _ => worker
  | _ => none

/-- Whether the task of a connection still handles the turn-on of a thread. -/
def System.handles (s : System) (c : Int32) (w : ℕ) : Bool :=
  match s.tasks c with
  | some phase => phase.worker == some w
  | none => false

/-- A thread that can turn privacy mode on does so while the task of its connection still handles
that turn-on. -/
def Prompt (platform : Platform) (s : System) : Label → Prop
  | .work w started =>
      ∀ worker ∈ s.workers w, System.succeeded (some started) = true →
        CanTurnOn platform s.settings s.mode worker.implKey worker.connId →
        s.handles worker.connId w = true
  | _ => True

instance (s : System) : DecidablePred (Prompt platform s)
  | .work w started => inferInstanceAs (Decidable (∀ worker ∈ s.workers w,
      System.succeeded (some started) = true →
      CanTurnOn platform s.settings s.mode worker.implKey worker.connId →
      s.handles worker.connId w = true))
  | .settings _ | .connect _ | .request _ _ _ _ | .call _ _ | .send _ | .receive _ | .timeOut _
  | .reply _ | .clean _ | .off _ _ | .revoke _ | .close _ | .check _ | .release _ | .localOff
  | .localSwitch _ => isTrue trivial

/-- Whether a thread has turned privacy mode on, or found it on. -/
def Progress.succeeded : Progress → Bool
  | .started => false
  | .finished res | .ended res => System.succeeded res

/-- The invariant of the runs in which all threads are prompt. -/
structure KeptInv (s : System) : Prop where
  tasks : ∀ c phase, s.tasks c = some phase → c ≠ invalidPrivacyModeConnId
  on : preConnId s.mode ≠ invalidPrivacyModeConnId →
    ∃ phase, s.tasks (preConnId s.mode) = some phase ∧ phase ≠ .ended
  handled : ∀ c phase w, s.tasks c = some phase → phase.worker = some w →
    ∃ worker, s.workers w = some worker ∧ worker.connId = c
  result : ∀ c w implKey res, s.tasks c = some (.returned (some w) implKey res) →
    (∃ e, res = some (.error e))
      ∨ ∃ worker, s.workers w = some worker ∧ worker.progress = .ended res
  turned : ∀ w, s.turnedOnBy = some w →
    ∃ worker, s.workers w = some worker ∧ worker.progress.succeeded = true
  failed : ∀ m ∈ s.sent, m.state ≠ .prvOnSucceeded → ∀ w, m.worker = some w →
    m.connId ≠ invalidPrivacyModeConnId
      ∧ (∃ worker, s.workers w = some worker ∧ worker.connId = m.connId)
      ∧ s.handles m.connId w = false
      ∧ ¬ (preConnId s.mode = m.connId ∧ s.turnedOnBy = some w)

theorem preConnId_initial (settings : Settings) :
  preConnId (initial platform settings) = invalidPrivacyModeConnId
  := by
  rw [initial]
  generalize (if settings.implKey ∈ settings.supported then settings.implKey
    else platform.defaultPrivacyModeImpl) = curImpl
  split <;> rfl

theorem KeptInv.start (settings : Settings) :
  KeptInv (System.start platform settings)
  := by
  refine ⟨nofun, ?_, nofun, nofun, nofun, nofun⟩
  intro hon
  cases hon (preConnId_initial settings)

variable {s : System} {phase : Phase}

/-- What the invariant guarantees. -/
theorem KeptInv.kept (h : KeptInv s) :
  Kept s
  := by
  constructor
  · intro c hc _ hown
    obtain ⟨phase, hphase, hne⟩ := h.on (hown ▸ h.tasks c _ hc)
    rw [hown, hc] at hphase
    exact hne (Option.some.inj hphase).symm
  · intro m hm hstate w hw _
    exact (h.failed m hm hstate w hw).2.2.2

/-! ## What the steps do -/

theorem System.handles_eq_true :
  s.handles c w = true ↔ ∃ phase, s.tasks c = some phase ∧ phase.worker = some w
  := by
  rw [System.handles]
  cases s.tasks c with
  | none => simp
  | some phase => simp

theorem System.handles_setTask {c' : Int32} :
  (s.setTask c phase).handles c' w
    = if c' = c then phase.worker == some w else s.handles c' w
  := by
  rw [System.handles, System.handles, System.setTask]
  dsimp only
  rcases eq_or_ne c' c with rfl | hne
  · rw [Function.update_self, if_pos rfl]
  · rw [Function.update_of_ne hne, if_neg hne]

/-- A task moves on: to a thread of its own of which the peer was told nothing, not to its end while
privacy mode is its own, and not to a result that its thread does not have. -/
theorem KeptInv.takeTask (h : KeptInv s) (hvalid : c ≠ invalidPrivacyModeConnId)
    (hended : phase = .ended → preConnId s.mode ≠ c) (hthread : ∀ w, phase.worker = some w →
      ∃ worker, s.workers w = some worker ∧ worker.connId = c)
    (hfresh : ∀ w, phase.worker = some w → ∀ m ∈ s.sent, m.state ≠ .prvOnSucceeded →
      m.worker = some w → m.connId ≠ c)
    (hresult : ∀ w implKey res, phase = .returned (some w) implKey res →
      (∃ e, res = some (.error e))
        ∨ ∃ worker, s.workers w = some worker ∧ worker.progress = .ended res) :
  KeptInv (s.setTask c phase)
  := by
  constructor
  · intro c' phase' hc'
    change Function.update s.tasks c (some phase) c' = some phase' at hc'
    rcases eq_or_ne c' c with rfl | hne
    · exact hvalid
    · rw [Function.update_of_ne hne] at hc'
      apply h.tasks c' phase' hc'
  · intro hon
    change ∃ p, Function.update s.tasks c (some phase) (preConnId s.mode) = some p ∧ p ≠ .ended
    rcases eq_or_ne (preConnId s.mode) c with hown | hne
    · rw [hown, Function.update_self]
      refine ⟨phase, rfl, ?_⟩
      intro hphase
      exact hended hphase hown
    · rw [Function.update_of_ne hne]
      apply h.on hon
  · intro c' phase' w hc' hw
    change Function.update s.tasks c (some phase) c' = some phase' at hc'
    rcases eq_or_ne c' c with rfl | hne
    · rw [Function.update_self] at hc'
      obtain rfl := Option.some.inj hc'
      exact hthread w hw
    · rw [Function.update_of_ne hne] at hc'
      apply h.handled c' phase' w hc' hw
  · intro c' w implKey res hc'
    change Function.update s.tasks c (some phase) c' = some (.returned (some w) implKey res) at hc'
    rcases eq_or_ne c' c with rfl | hne
    · rw [Function.update_self] at hc'
      exact hresult w implKey res (Option.some.inj hc')
    · rw [Function.update_of_ne hne] at hc'
      apply h.result c' w implKey res hc'
  · exact h.turned
  · intro m hm hstate w hw
    obtain ⟨hconn, hthread, hnot, hoff⟩ := h.failed m hm hstate w hw
    refine ⟨hconn, hthread, ?_, hoff⟩
    rw [System.handles_setTask]
    split
    next heq =>
        rw [← Bool.not_eq_true, beq_iff_eq]
        intro hw'
        exact hfresh w hw' m hm hstate hw heq
    next => exact hnot

/-- A task moves on with the thread that it handles. -/
theorem KeptInv.setTask (h : KeptInv s) (hvalid : c ≠ invalidPrivacyModeConnId)
    (hended : phase = .ended → preConnId s.mode ≠ c)
    (hworker : ∀ w, phase.worker = some w → s.handles c w = true)
    (hresult : ∀ w implKey res, phase = .returned (some w) implKey res →
      (∃ e, res = some (.error e))
        ∨ ∃ worker, s.workers w = some worker ∧ worker.progress = .ended res) :
  KeptInv (s.setTask c phase)
  := by
  apply h.takeTask hvalid hended _ _ hresult
  · intro w hw
    obtain ⟨old, hold, hw'⟩ := System.handles_eq_true.mp (hworker w hw)
    exact h.handled c old w hold hw'
  · rintro w hw m hm hstate hw' rfl
    have hnot := (h.failed m hm hstate w hw').2.2.1
    rw [hworker w hw] at hnot
    cases hnot

theorem System.workers_setWorker {w' : ℕ} {worker old : Worker} (hw' : s.workers w' = some old)
    (hne : w' ≠ w) :
  (s.setWorker w worker).workers w' = some old
  := by
  change Function.update s.workers w (some worker) w' = some old
  rw [Function.update_of_ne hne, hw']

theorem System.workers_setWorker_self {worker : Worker} :
  (s.setWorker w worker).workers w = some worker
  := Function.update_self _ _ _

/-- A thread moves on, or starts. -/
theorem KeptInv.setWorker (h : KeptInv s) (w : ℕ) {worker : Worker}
    (hold : ∀ old, s.workers w = some old → old.connId = worker.connId
      ∧ (∀ res, old.progress ≠ .ended res)
      ∧ (old.progress.succeeded = true → worker.progress.succeeded = true)) :
  KeptInv (s.setWorker w worker)
  := by
  refine ⟨h.tasks, h.on, ?_, ?_, ?_, ?_⟩
  · intro c phase w' hc hw'
    obtain ⟨old, hthread, hconn⟩ := h.handled c phase w' hc hw'
    rcases eq_or_ne w' w with rfl | hne
    · exact ⟨worker, System.workers_setWorker_self, (hold old hthread).1 ▸ hconn⟩
    · exact ⟨old, System.workers_setWorker hthread hne, hconn⟩
  · intro c w' implKey res hc
    rcases h.result c w' implKey res hc with herror | ⟨old, hthread, hprogress⟩
    · exact Or.inl herror
    · apply Or.inr
      rcases eq_or_ne w' w with rfl | hne
      · cases (hold old hthread).2.1 res hprogress
      · exact ⟨old, System.workers_setWorker hthread hne, hprogress⟩
  · intro w' hw'
    obtain ⟨old, hthread, hsucceeded⟩ := h.turned w' hw'
    rcases eq_or_ne w' w with rfl | hne
    · exact ⟨worker, System.workers_setWorker_self, (hold old hthread).2.2 hsucceeded⟩
    · exact ⟨old, System.workers_setWorker hthread hne, hsucceeded⟩
  · intro m hm hstate w' hw'
    obtain ⟨hvalid, ⟨old, hthread, hconn⟩, hnot, hoff⟩ := h.failed m hm hstate w' hw'
    refine ⟨hvalid, ?_, hnot, hoff⟩
    rcases eq_or_ne w' w with rfl | hne
    · exact ⟨worker, System.workers_setWorker_self, (hold old hthread).1 ▸ hconn⟩
    · exact ⟨old, System.workers_setWorker hthread hne, hconn⟩

/-- A message is sent that says nothing of a turn-on, or that one has succeeded. -/
theorem KeptInv.notify (h : KeptInv s) (c : Int32) (worker : Option ℕ) {state : PrivacyModeState}
    (details implKey : String) (hstate : state = .prvOnSucceeded ∨ worker = none) :
  KeptInv (s.notify c worker state details implKey)
  := by
  refine ⟨h.tasks, h.on, h.handled, h.result, h.turned, ?_⟩
  intro m hm hfailed w hw
  rcases List.mem_append.mp hm with hm | hm
  · exact h.failed m hm hfailed w hw
  · obtain rfl := List.mem_singleton.mp hm
    rcases hstate with hsucceeded | hnone
    · cases hfailed hsucceeded
    · rw [hnone] at hw
      cases hw

/-- Privacy mode is turned off, or not changed. -/
theorem KeptInv.mode (h : KeptInv s) {mode : Option PrivacyMode} {turnedOnBy : Option ℕ}
    (owner : Option (Int32 × Option ℕ)) (hturned : ∀ w, turnedOnBy = some w →
      ∃ worker, s.workers w = some worker ∧ worker.progress.succeeded = true)
    (hmode : preConnId mode = invalidPrivacyModeConnId
      ∨ mode = s.mode ∧ turnedOnBy = s.turnedOnBy) :
  KeptInv { s with mode := mode, turnedOnBy := turnedOnBy, owner := owner }
  := by
  rcases hmode with hoff | ⟨rfl, rfl⟩
  · refine ⟨h.tasks, ?_, h.handled, h.result, hturned, ?_⟩
    · intro hon
      cases hon hoff
    · intro m hm hfailed w hw
      obtain ⟨hvalid, hthread, hnot, _⟩ := h.failed m hm hfailed w hw
      refine ⟨hvalid, hthread, hnot, ?_⟩
      rintro ⟨hown, _⟩
      apply hvalid
      rw [← hown]
      exact hoff
  · exact ⟨h.tasks, h.on, h.handled, h.result, h.turned, h.failed⟩

/-- Privacy mode is turned on for a connection whose task handles that turn-on. -/
theorem KeptInv.on_for (h : KeptInv s) {mode : Option PrivacyMode} {turnedOnBy : Option ℕ}
    (owner : Option (Int32 × Option ℕ)) (htask : s.tasks (preConnId mode) = some phase)
    (hne : phase ≠ .ended)
    (hturned : ∀ w, turnedOnBy = some w → s.handles (preConnId mode) w = true
      ∧ ∃ worker, s.workers w = some worker ∧ worker.progress.succeeded = true) :
  KeptInv { s with mode := mode, turnedOnBy := turnedOnBy, owner := owner }
  := by
  refine ⟨h.tasks, ?_, h.handled, h.result, ?_, ?_⟩
  · intro _
    exact ⟨phase, htask, hne⟩
  · intro w hw
    exact (hturned w hw).2
  · intro m hm hfailed w hw
    obtain ⟨hvalid, hthread, hnot, _⟩ := h.failed m hm hfailed w hw
    refine ⟨hvalid, hthread, hnot, ?_⟩
    rintro ⟨hown, hby⟩
    have hhandles := (hturned w hby).1
    rw [show preConnId mode = m.connId from hown] at hhandles
    rw [show s.handles m.connId w = false from hnot] at hhandles
    cases hhandles

theorem KeptInv.disown (h : KeptInv s) (c : Int32) :
  KeptInv (s.disown c)
  := ⟨h.tasks, h.on, h.handled, h.result, h.turned, h.failed⟩

theorem KeptInv.turnOff (h : KeptInv s) (connId : Int32) :
  KeptInv (s.turnOff connId).1
  := by
  refine h.mode s.owner h.turned ?_
  apply (preConnId_turnOffPrivacy s.mode connId).imp_right
  intro hsame
  exact ⟨hsame.1, rfl⟩

/-- The peer is told that a turn-on has failed that has not left privacy mode on. -/
theorem KeptInv.fail (h : KeptInv s) (htask : s.tasks c = some phase) (state : PrivacyModeState)
    (details implKey : String)
    (hoff : ∀ w, phase.worker = some w → ¬ (preConnId s.mode = c ∧ s.turnedOnBy = some w)) :
  KeptInv ((s.notify c phase.worker state details implKey).setTask c .idle)
  := by
  have hvalid := h.tasks c phase htask
  have hidle : KeptInv (s.setTask c .idle) := h.setTask hvalid nofun nofun nofun
  refine ⟨hidle.tasks, hidle.on, hidle.handled, hidle.result, hidle.turned, ?_⟩
  intro m hm hfailed w hw
  rcases List.mem_append.mp hm with hm | hm
  · exact hidle.failed m hm hfailed w hw
  · obtain rfl := List.mem_singleton.mp hm
    refine ⟨hvalid, h.handled c phase w htask hw, ?_, hoff w hw⟩
    have hnot : (s.setTask c .idle).handles c w = false := by
      rw [System.handles_setTask, if_pos rfl]
      rfl
    exact hnot

/-- What a turn-on does: nothing, or it turns privacy mode on, or off. -/
theorem System.turnOn_effect (platform : Platform) (s : System) (c : Int32) (implKey : String)
    (worker : Option ℕ) (awaited : Bool) (started : Except String Bool) :
  ((s.turnOn platform c implKey worker awaited started).1.mode = s.mode
      ∧ (s.turnOn platform c implKey worker awaited started).1.turnedOnBy = s.turnedOnBy)
    ∨ (started = .ok true ∧ CanTurnOn platform s.settings s.mode implKey c
      ∧ preConnId (s.turnOn platform c implKey worker awaited started).1.mode = c
      ∧ (s.turnOn platform c implKey worker awaited started).1.turnedOnBy = worker)
    ∨ preConnId (s.turnOn platform c implKey worker awaited started).1.mode
      = invalidPrivacyModeConnId
  := by
  by_cases hsame : (turnOnPrivacySync platform s.settings s.mode implKey c started).1 = s.mode
  · apply Or.inl
    refine ⟨hsame, ?_⟩
    rw [System.turnOn]
    dsimp only
    rw [hsame, bne_self_eq_false, Bool.and_false]
    rfl
  · apply Or.inr
    rcases turnOnPrivacySync_effect.resolve_left hsame with ⟨hstarted, hcan, hok⟩ | hoff
    · apply Or.inl
      refine ⟨hstarted, hcan, preConnId_turnOnPrivacySync hok, ?_⟩
      rw [System.turnOn]
      dsimp only
      rw [hok, if_pos]
      rw [Bool.and_eq_true, bne_iff_ne]
      exact ⟨rfl, hsame⟩
    · exact Or.inr hoff

/-- Who turned privacy mode on after a turn-on. -/
theorem System.turnedOnBy_turnOn {worker : Option ℕ} {awaited : Bool}
    {started : Except String Bool} :
  (s.turnOn platform c implKey worker awaited started).1.turnedOnBy = s.turnedOnBy
    ∨ (s.turnOn platform c implKey worker awaited started).1.turnedOnBy = worker
      ∧ System.succeeded (s.turnOn platform c implKey worker awaited started).2 = true
  := by
  rw [System.turnOn]
  dsimp only
  split
  next hturned => exact Or.inr ⟨rfl, (Bool.and_eq_true_iff.mp hturned).1⟩
  next => exact Or.inl rfl

/-- A thread that is prompt turns privacy mode on for its connection. -/
theorem KeptInv.work (h : KeptInv s) {started : Except String Bool}
    (hworker : s.workers w = some ⟨c, implKey, .started⟩)
    (hprompt : started = .ok true → CanTurnOn platform s.settings s.mode implKey c →
      s.handles c w = true) :
  KeptInv (s.work platform w c implKey started)
  := by
  have heffect := s.turnOn_effect platform c implKey (some w) (s.awaits c w) started
  have hby := @System.turnedOnBy_turnOn platform c implKey s (some w) (s.awaits c w) started
  rw [System.work]
  dsimp only
  generalize hresult : s.turnOn platform c implKey (some w) (s.awaits c w) started = result
    at heffect hby ⊢
  have hbase : KeptInv (s.setWorker w ⟨c, implKey, .finished result.2⟩) := by
    apply h.setWorker
    intro old hold
    rw [hworker] at hold
    obtain rfl := Option.some.inj hold
    exact ⟨rfl, nofun, nofun⟩
  have hthread : System.succeeded result.2 = true →
      ∃ worker, (s.setWorker w ⟨c, implKey, .finished result.2⟩).workers w = some worker
        ∧ worker.progress.succeeded = true := by
    intro hsucceeded
    exact ⟨_, System.workers_setWorker_self, hsucceeded⟩
  have hturned : ∀ w', result.1.turnedOnBy = some w' →
      ∃ worker, (s.setWorker w ⟨c, implKey, .finished result.2⟩).workers w' = some worker
        ∧ worker.progress.succeeded = true := by
    intro w' hw'
    rcases hby with hsame | ⟨hself, hsucceeded⟩
    · exact hbase.turned w' (hsame ▸ hw')
    · rw [hself] at hw'
      obtain rfl := Option.some.inj hw'
      exact hthread hsucceeded
  have hstate : result.1.setWorker w ⟨c, implKey, .finished result.2⟩
      = { s.setWorker w ⟨c, implKey, .finished result.2⟩ with
        mode := result.1.mode, turnedOnBy := result.1.turnedOnBy, owner := result.1.owner } := by
    rw [← hresult]
    rfl
  rw [hstate]
  rcases heffect with ⟨hmode, hsame⟩ | ⟨hstarted, hcan, hon, hself⟩ | hoff
  · exact hbase.mode _ hturned (Or.inr ⟨hmode, hsame⟩)
  · have hhandles := hprompt hstarted hcan
    obtain ⟨phase, htask, hphase⟩ := System.handles_eq_true.mp hhandles
    refine hbase.on_for _ (hon ▸ htask) ?_ ?_
    · rintro rfl
      cases hphase
    · intro w' hw'
      refine ⟨?_, hturned w' hw'⟩
      rw [hself] at hw'
      obtain rfl := Option.some.inj hw'
      rw [hon]
      exact hhandles
  · exact hbase.mode _ hturned (Or.inl hoff)

theorem KeptInv.call (h : KeptInv s) (htask : s.tasks c = some (.calling implKey))
    (started : Except String Bool) :
  KeptInv (s.call platform c implKey started)
  := by
  have heffect := s.turnOn_effect platform c implKey none true started
  have hby := @System.turnedOnBy_turnOn platform c implKey s none true started
  rw [System.call]
  dsimp only
  generalize hresult : s.turnOn platform c implKey none true started = result at heffect hby ⊢
  have hstate : result.1 = { s with
      mode := result.1.mode, turnedOnBy := result.1.turnedOnBy, owner := result.1.owner } := by
    rw [← hresult]
    rfl
  have hturned : ∀ w, result.1.turnedOnBy = some w →
      ∃ worker, s.workers w = some worker ∧ worker.progress.succeeded = true := by
    intro w hw
    rcases hby with hsame | ⟨hself, _⟩
    · exact h.turned w (hsame ▸ hw)
    · rw [hself] at hw
      cases hw
  have hcalled : KeptInv result.1 := by
    rw [hstate]
    rcases heffect with ⟨hmode, hsame⟩ | ⟨_, _, hon, hself⟩ | hoff
    · exact h.mode _ hturned (Or.inr ⟨hmode, hsame⟩)
    · have hcalling : s.tasks (preConnId result.1.mode) = some (.calling implKey) := by
        rw [hon]
        exact htask
      refine h.on_for _ hcalling nofun ?_
      intro w hw
      rw [hself] at hw
      cases hw
    · exact h.mode _ hturned (Or.inl hoff)
  exact hcalled.setTask (h.tasks c _ htask) nofun nofun nofun

/-! ## The steps -/

theorem KeptInv.begin (h : KeptInv s) (hvalid : c ≠ invalidPrivacyModeConnId) (implKey : String)
    (permitted : Bool) (hworker : s.workers w = none) :
  KeptInv (s.begin platform c implKey permitted w)
  := by
  rw [System.begin]
  split
  next => exact h.notify _ _ _ _ (Or.inr rfl)
  next =>
      split
      next => exact h.notify _ _ _ _ (Or.inr rfl)
      next =>
          have hasked : KeptInv
              (if getSupportedImpl platform s.settings implKey = curImplKey s.mode then s
                else s.disown c) := by
            split
            next => exact h
            next => exact h.disown c
          have hnone : (if getSupportedImpl platform s.settings implKey = curImplKey s.mode then s
              else s.disown c).workers w = none := by
            split <;> exact hworker
          dsimp only
          generalize (if getSupportedImpl platform s.settings implKey = curImplKey s.mode then s
            else s.disown c) = s₁ at hasked hnone ⊢
          split
          next =>
              have hspawned : KeptInv (s₁.setWorker w ⟨c, implKey, .started⟩) := by
                apply hasked.setWorker
                intro old hold
                rw [hnone] at hold
                cases hold
              refine hspawned.takeTask hvalid nofun ?_ ?_ nofun
              · rintro w' ⟨⟩
                exact ⟨_, System.workers_setWorker_self, rfl⟩
              · rintro w' ⟨⟩ m hm hstate hw
                obtain ⟨old, hold, _⟩ := (hasked.failed m hm hstate w hw).2.1
                rw [hnone] at hold
                cases hold
          next => exact hasked.setTask hvalid nofun nofun nofun

/-- A task that tells its peer that a turn-on has failed has seen that privacy mode is off, or that
its thread has not turned it on. -/
theorem KeptInv.reply (h : KeptInv s) {worker : Option ℕ} {res : Option (Except String Bool)}
    (htask : s.tasks c = some (.returned worker implKey res)) :
  KeptInv (s.reply c worker implKey res)
  := by
  have hvalid := h.tasks c _ htask
  have hnot : (∀ e, res ≠ some (.error e)) → System.succeeded res = false →
      ∀ w, worker = some w → ¬ (preConnId s.mode = c ∧ s.turnedOnBy = some w) := by
    rintro hres hfailed w rfl ⟨_, hby⟩
    rcases h.result c w implKey res htask with ⟨e, he⟩ | ⟨thread, hthread, hprogress⟩
    · exact hres e he
    · obtain ⟨thread', hthread', hsucceeded⟩ := h.turned w hby
      rw [hthread] at hthread'
      obtain rfl := Option.some.inj hthread'
      rw [hprogress, Progress.succeeded, hfailed] at hsucceeded
      cases hsucceeded
  rw [System.reply.eq_def]
  split
  next =>
      have hidle : KeptInv (s.setTask c .idle) := h.setTask hvalid nofun nofun nofun
      exact hidle.notify _ _ _ _ (Or.inl rfl)
  next => exact h.fail htask _ _ _ (hnot nofun rfl)
  next e =>
      split
      next =>
          refine h.setTask hvalid nofun ?_ nofun
          intro w hw
          rw [System.handles, htask]
          exact beq_iff_eq.mpr hw
      next hoff =>
          apply h.fail htask
          rintro w _ ⟨hown, _⟩
          apply hoff
          rw [isInPrivacyMode, hown, bne_iff_ne]
          exact hvalid
  next => exact h.fail htask _ _ _ (hnot nofun rfl)

theorem KeptInv.clean (h : KeptInv s) {worker : Option ℕ} {e : String}
    (htask : s.tasks c = some (.cleaning worker implKey e)) :
  KeptInv (s.clean c worker implKey e)
  := by
  have hoff := h.turnOff invalidPrivacyModeConnId
  apply hoff.fail htask
  rintro w _ ⟨hown, _⟩
  apply h.tasks c _ htask
  rw [← hown]
  exact preConnId_turnOffPrivacy_invalid s.mode

theorem preConnId_switch (mode : Option PrivacyMode) (implKey : String) :
  preConnId (switch platform mode implKey) = invalidPrivacyModeConnId
    ∨ switch platform mode implKey = mode
  := by
  rw [switch.eq_def]
  split
  next => exact Or.inr rfl
  next =>
      split
      next => exact Or.inl rfl
      next => exact Or.inr rfl

theorem KeptInv.offRequest (h : KeptInv s) (c : Int32) (implKey : String) :
  KeptInv (s.offRequest platform c implKey)
  := by
  have hoff := (h.disown c).turnOff c
  rw [System.offRequest, System.turnOffToMsg]
  split
  next => exact h.notify _ _ _ _ (Or.inr rfl)
  next =>
      dsimp only
      split <;> exact hoff.notify _ _ _ _ (Or.inr rfl)

theorem KeptInv.revoke (h : KeptInv s) (c : Int32) :
  KeptInv (s.revoke c)
  := by
  have hoff := (h.disown c).turnOff c
  rw [System.revoke]
  split
  next =>
      dsimp only
      split <;> exact hoff.notify _ _ _ _ (Or.inr rfl)
  next => exact h

/-- Every step in which a thread is prompt keeps the invariant. -/
theorem keptInv_step {s' : System} {i : Label} (h : KeptInv s) (hprompt : Prompt platform s i)
    (hstep : Step platform s i s') :
  KeptInv s'
  := by
  cases hstep.effect with
  | settings settings => exact ⟨h.tasks, h.on, h.handled, h.result, h.turned, h.failed⟩
  | connect hvalid => exact h.setTask hvalid nofun nofun nofun
  | request implKey permitted htask hworker =>
      exact h.begin (h.tasks _ _ htask) implKey permitted hworker
  | call started htask => exact h.call htask started
  | work started hworker =>
      apply h.work hworker
      rintro rfl
      exact hprompt _ hworker rfl
  | send hworker =>
      apply h.setWorker
      intro old hold
      rw [hworker] at hold
      obtain rfl := Option.some.inj hold
      exact ⟨rfl, nofun, id⟩
  | receive htask hworker =>
      refine h.setTask (h.tasks _ _ htask) nofun ?_ ?_
      · intro w' hw'
        rw [System.handles, htask]
        exact beq_iff_eq.mpr hw'
      · rintro w' implKey' res ⟨⟩
        exact Or.inr ⟨_, hworker, rfl⟩
  | @timeOut c w implKey htask =>
      have hgivenUp : KeptInv (if s.owner = some (c, some w) then s.disown c else s) := by
        split
        next => exact h.disown c
        next => exact h
      have htask' : (if s.owner = some (c, some w) then s.disown c else s).tasks c
          = some (.waiting w implKey) := by
        split <;> exact htask
      generalize (if s.owner = some (c, some w) then s.disown c else s) = s₁
        at hgivenUp htask' ⊢
      refine hgivenUp.setTask (h.tasks c _ htask) nofun ?_ ?_
      · intro w' hw'
        rw [System.handles, htask']
        exact beq_iff_eq.mpr hw'
      · rintro w' implKey' res ⟨⟩
        exact Or.inl ⟨_, rfl⟩
  | reply htask => exact h.reply htask
  | clean htask => exact h.clean htask
  | off implKey _ => exact h.offRequest _ implKey
  | revoke _ => exact h.revoke _
  | close htask => exact (h.disown _).setTask (h.tasks _ _ htask) nofun nofun nofun
  | @check c htask =>
      split
      next => exact h.setTask (h.tasks c _ htask) nofun nofun nofun
      next hother =>
          refine h.setTask (h.tasks c _ htask) ?_ nofun nofun
          intro _ hown
          apply hother
          cases hmode : s.mode with
          | none =>
              rw [hmode] at hown
              cases h.tasks c _ htask hown.symm
          | some m =>
              rw [hmode] at hown
              exact congrArg some hown
  | @release c htask =>
      have hvalid := h.tasks c _ htask
      refine (h.turnOff c).setTask hvalid ?_ nofun nofun
      intro _ hown
      rcases preConnId_turnOffPrivacy s.mode c with hoff | ⟨hsame, hother, _⟩
      · exact hvalid (hown.symm.trans hoff)
      · apply hother
        rw [← hsame]
        exact hown.symm
  | localOff => exact h.mode none h.turned (Or.inl (preConnId_turnOffPrivacy_invalid s.mode))
  | localSwitch implKey =>
      refine h.mode _ h.turned ?_
      apply (preConnId_switch s.mode implKey).imp_right
      intro hsame
      exact ⟨hsame, rfl⟩

/-- In every run in which each thread that can turn privacy mode on does so while its connection
still handles that turn-on, no privacy mode is left without its connection, or after a turn-on of
which the peer was told that it failed. -/
theorem kept_of_run {settings : Settings} {h : List (System × Label)} {s : System}
    (hrun : Run (Step platform) (System.start platform settings) h s)
    (hprompt : ∀ x ∈ h, Prompt platform x.1 x.2) :
  Kept s
  := by
  apply KeptInv.kept
  apply hrun.invariant_of (Prompt platform) KeptInv (KeptInv.start settings) _ hprompt
  intro s i s' hs hi hstep
  exact keptInv_step hs hi hstep

/-- A platform on which a thread turns privacy mode on. -/
def amyuni : Platform :=
  ⟨privacyModeImplWinVirtualDisplay, [privacyModeImplWinVirtualDisplay], true, ""⟩

/-- Its settings. -/
def amyuniSettings : Settings := ⟨[privacyModeImplWinVirtualDisplay], ""⟩

/-- A connection turns privacy mode on, and ends. -/
def turnedOn : List Label :=
  [.connect 1001, .request 1001 "" true 0, .work 0 (.ok true), .send 0, .receive 1001, .reply 1001,
    .close 1001, .check 1001, .release 1001]

theorem kept_turnedOn :
  ∃ h s, Run (Step amyuni) (System.start amyuni amyuniSettings) h s
    ∧ s.turnedOnBy = some 0 ∧ Kept s
  := by
  obtain ⟨h, s, hrun, htest⟩ := Run.exists_of_traceM (step amyuni)
    (System.start amyuni amyuniSettings) turnedOn
    (fun h s => s.turnedOnBy == some 0 && h.all fun x => Prompt amyuni x.1 x.2) (by decide)
  simp only [Bool.and_eq_true, beq_iff_eq, List.all_eq_true, decide_eq_true_eq] at htest
  exact ⟨h, s, hrun, htest.1, kept_of_run hrun htest.2⟩

/-- Whether a thread has ended. -/
def Progress.hasEnded (self : Progress) : Bool :=
  self.casesOn false (fun _ => false) (fun _ => true)

theorem Progress.eq_ended {progress : Progress} (h : progress.hasEnded = true) :
  ∃ res, progress = .ended res
  := by
  cases progress with
  | started => cases h
  | finished res => cases h
  | ended res => exact ⟨res, rfl⟩

/-- A thread takes the lock when its connection has given up, and ended. -/
def givenUp : List Label :=
  [.connect 1001, .request 1001 "" true 0, .timeOut 1001, .reply 1001, .close 1001, .check 1001,
    .work 0 (.ok true), .send 0]

theorem not_kept :
  ∃ h s, Run (Step amyuni) (System.start amyuni amyuniSettings) h s ∧ ¬ Kept s
  := by
  obtain ⟨h, s, hrun, htest⟩ := Run.exists_of_traceM (step amyuni)
    (System.start amyuni amyuniSettings) givenUp
    (fun _ s => s.sent == [⟨1001, some 0, .prvOnFailed, "", ""⟩]
      && (s.workers 0).any (·.progress.hasEnded) && preConnId s.mode == 1001
      && s.turnedOnBy == some 0) (by decide)
  simp only [Bool.and_eq_true, beq_iff_eq] at htest
  obtain ⟨⟨⟨hsent, hworker⟩, hon⟩, hby⟩ := htest
  refine ⟨h, s, hrun, ?_⟩
  intro hkept
  have hmem : ⟨1001, some 0, .prvOnFailed, "", ""⟩ ∈ s.sent := by
    rw [hsent]
    apply List.mem_singleton_self
  have hended : ∃ worker res, s.workers 0 = some worker ∧ worker.progress = .ended res := by
    obtain ⟨worker, hworker, hended⟩ := (Option.any_eq_true _ _).mp hworker
    obtain ⟨res, hres⟩ := Progress.eq_ended hended
    exact ⟨worker, res, hworker, hres⟩
  exact hkept.2 _ hmem (by rintro ⟨⟩) 0 rfl hended ⟨hon, hby⟩

end VynxDesk.Privacy
