import Mathlib.Algebra.Order.Ring.Int
import Mathlib.Tactic.Ring
import VynxDesk.Lib.Run

/-!
# The back-off of OS logins

`server/login_failure_check.rs`.  Its state is one for all connections; the evaluations and the
recorded failures come in any order.  Times are milliseconds as `get_time()` reads them, far from
the ends of `i64`.  Both operations first settle the state: they reset it when the latest failure is
long ago, and drop a back-off that is over.  What they settle can be read off the failures that were
recorded (`Agrees`), so that an evaluation is a function of those.
-/

namespace VynxDesk.OsCredential

/-- `OS_CREDENTIAL_LOGIN_TOTAL_IDLE_RESET_MS`. -/
def totalIdleResetMs : ℤ := 7200000

/-- `OS_CREDENTIAL_LOGIN_BACKOFF_BASE_SECONDS`. -/
def backoffBaseSeconds : ℤ := 15

/-- `OS_CREDENTIAL_LOGIN_BACKOFF_MAX_SECONDS`. -/
def backoffMaxSeconds : ℤ := 1800

/-- `FailureScope`. -/
inductive FailureScope where
  | default
  | terminalOsLogin
  deriving DecidableEq, Repr

/-- `AlarmAuditType`, as far as a decision posts it. -/
inductive AlarmAuditType where
  | terminalOsLoginBackoff
  deriving DecidableEq, Repr

/-- `OsCredentialPolicyDecision`. -/
structure OsCredentialPolicyDecision where
  allowed : Bool
  loginError : Option String
  audit : Option AlarmAuditType
  deriving DecidableEq, Repr

/-- `OsCredentialFailureState`. -/
structure OsCredentialFailureState where
  totalFailures : ℤ := 0
  backoffUntilMs : Option ℤ := none
  lastFailureMs : Option ℤ := none
  deriving DecidableEq, Repr

/-- `backoff_audit_type_for_scope`. -/
def backoffAuditTypeForScope : FailureScope → Option AlarmAuditType
  | .terminalOsLogin => some .terminalOsLoginBackoff
  | .default => none

/-- `os_credential_login_backoff_seconds`. -/
def osCredentialLoginBackoffSeconds (totalFailures : ℤ) : ℤ :=
  if totalFailures ≤ 2 then 0
  else
    let exp := min (totalFailures - 3) 7
    min (backoffBaseSeconds * 2 ^ exp.toNat) backoffMaxSeconds

/-- `i64::saturating_sub`. -/
def saturatingSub (a b : ℤ) : ℤ := max (-2 ^ 63) (min (2 ^ 63 - 1) (a - b))

/-- `i32::saturating_add`, of one. -/
def saturatingSucc (a : ℤ) : ℤ := min (a + 1) (2 ^ 31 - 1)

/-- `allow_decision`. -/
def allowDecision : OsCredentialPolicyDecision := ⟨true, none, none⟩

/-- `block_decision`. -/
def blockDecision (loginError : String) (alarmType : Option AlarmAuditType) :
    OsCredentialPolicyDecision :=
  ⟨false, some loginError, alarmType⟩

/-- What a refused login is told. -/
def waitMessage (remainingSeconds : ℤ) : String :=
  let secondsLabel := if remainingSeconds = 1 then "second" else "seconds"
  s!"Please try again in {remainingSeconds} {secondsLabel}."

namespace OsCredentialFailureState

variable (state : OsCredentialFailureState)

/-- `normalize_backoff`. -/
def normalizeBackoff (nowMs : ℤ) : OsCredentialFailureState :=
  match state.backoffUntilMs with
  | some untilMs => if untilMs ≤ nowMs then { state with backoffUntilMs := none } else state
  | none => state

/-- `reset_totals_on_idle`. -/
def resetTotalsOnIdle (nowMs : ℤ) : OsCredentialFailureState :=
  match state.lastFailureMs with
  | some lastMs => if totalIdleResetMs ≤ saturatingSub nowMs lastMs then {} else state
  | none => state

/-- What both operations begin with. -/
def settle (nowMs : ℤ) : OsCredentialFailureState :=
  (state.resetTotalsOnIdle nowMs).normalizeBackoff nowMs

/-- `evaluate_os_credential_policy`: the state after it, and its decision. -/
def evaluateOsCredentialPolicy (scope : FailureScope) (nowMs : ℤ) :
    OsCredentialFailureState × OsCredentialPolicyDecision :=
  if scope ≠ .terminalOsLogin then (state, allowDecision)
  else
    let state := state.settle nowMs
    match state.backoffUntilMs with
    | some untilMs =>
        let remainingMs := max (untilMs - nowMs) 0
        let remainingSeconds := max ((remainingMs + 999).tdiv 1000) 1
        (state, blockDecision (waitMessage remainingSeconds) (backoffAuditTypeForScope scope))
    | none => (state, allowDecision)

/-- `record_os_credential_failure`, at the time that it reads. -/
def recordOsCredentialFailure (scope : FailureScope) (nowMs : ℤ) : OsCredentialFailureState :=
  if scope ≠ .terminalOsLogin then state
  else
    let state := state.settle nowMs
    let state : OsCredentialFailureState :=
      { state with
        totalFailures := saturatingSucc state.totalFailures
        lastFailureMs := some nowMs }
    let backoffSeconds := osCredentialLoginBackoffSeconds state.totalFailures
    if 0 < backoffSeconds then
      { state with backoffUntilMs := some (nowMs + backoffSeconds * 1000) }
    else state

end OsCredentialFailureState

/-- A call of one of the two operations. -/
inductive Call where
  | evaluate (scope : FailureScope) (nowMs : ℤ)
  | record (scope : FailureScope) (nowMs : ℤ)
  deriving DecidableEq, Repr

/-- The time of a call. -/
def Call.nowMs : Call → ℤ
  | .evaluate _ nowMs => nowMs
  | .record _ nowMs => nowMs

/-- The state after a call. -/
def next (state : OsCredentialFailureState) : Call → OsCredentialFailureState
  | .evaluate scope nowMs => (state.evaluateOsCredentialPolicy scope nowMs).1
  | .record scope nowMs => state.recordOsCredentialFailure scope nowMs

/-- One call. -/
def Step (state : OsCredentialFailureState) (call : Call) (state' : OsCredentialFailureState) :
    Prop :=
  state' = next state call

/-- The time of a failure that a call records for OS logins. -/
def Call.failure : Call → Option ℤ
  | .record .terminalOsLogin nowMs => some nowMs
  | _ => none

/-- The times of the failures that a history records for OS logins, the latest first. -/
def failures (h : List (OsCredentialFailureState × Call)) : List ℤ :=
  (h.filterMap fun x => x.2.failure).reverse

/-- The number of failures since the last gap of at least the idle reset. -/
def burst : List ℤ → ℕ
  | [] => 0
  | [_] => 1
  | last :: previous :: rest =>
      if totalIdleResetMs ≤ last - previous then 1 else burst (previous :: rest) + 1

/-- The time until which the failures `times` hold back a login. -/
def holdUntil (times : List ℤ) (last : ℤ) : ℤ :=
  last + min (15 * 2 ^ (burst times - 3)) 1800 * 1000

/-- The failures `times` hold back a login at the time `nowMs`. -/
def Held (times : List ℤ) (nowMs : ℤ) : Prop :=
  3 ≤ burst times ∧ ∃ last ∈ times.head?, nowMs - last < totalIdleResetMs ∧
    nowMs < holdUntil times last

/-- The state as the recorded failures determine it. -/
def ofFailures : List ℤ → OsCredentialFailureState
  | [] => {}
  | last :: rest =>
      { totalFailures := min (burst (last :: rest)) (2 ^ 31 - 1)
        backoffUntilMs :=
          if 3 ≤ burst (last :: rest) then some (holdUntil (last :: rest) last) else none
        lastFailureMs := some last }

theorem totalIdleResetMs_le {a b : ℤ} :
  totalIdleResetMs ≤ saturatingSub a b ↔ totalIdleResetMs ≤ a - b
  := by
  unfold saturatingSub totalIdleResetMs
  omega

/-- The wait after a number of failures. -/
theorem osCredentialLoginBackoffSeconds_eq (count : ℕ) :
  osCredentialLoginBackoffSeconds (min (count : ℤ) (2 ^ 31 - 1)) =
    if 3 ≤ count then min (15 * 2 ^ (count - 3)) 1800 else 0
  := by
  unfold osCredentialLoginBackoffSeconds backoffBaseSeconds backoffMaxSeconds
  by_cases hfew : count ≤ 2
  · rw [if_pos (by omega), if_neg (by omega)]
  · obtain ⟨n, rfl⟩ : ∃ n, count = n + 3 := Nat.exists_eq_add_of_le' (Nat.lt_of_not_le hfew)
    rw [if_neg (by omega), if_pos (by omega), Nat.add_sub_cancel]
    dsimp only
    by_cases hsmall : n ≤ 7
    · have hexp : (min (min ((n + 3 : ℕ) : ℤ) (2 ^ 31 - 1) - 3) 7).toNat = n := by
        omega
      rw [hexp]
    · have hexp : (min (min ((n + 3 : ℕ) : ℤ) (2 ^ 31 - 1) - 3) 7).toNat = 7 := by
        omega
      have hpow : (2 : ℤ) ^ 7 ≤ 2 ^ n := pow_le_pow_right₀ (by decide) (by omega)
      rw [hexp]
      omega

namespace OsCredentialFailureState

variable {state : OsCredentialFailureState}

theorem normalizeBackoff_eq (state : OsCredentialFailureState) (nowMs : ℤ) :
  state.normalizeBackoff nowMs =
    { state with backoffUntilMs := state.backoffUntilMs.filter (nowMs < ·) }
  := by
  obtain ⟨total, untilMs, last⟩ := state
  cases untilMs with
  | none => rfl
  | some untilMs =>
      by_cases hover : untilMs ≤ nowMs
      · simp [normalizeBackoff, hover, Option.filter]
      · simp [normalizeBackoff, hover, Option.filter, Int.lt_of_not_ge hover]

/-- The latest failure is long ago. -/
def Idle (state : OsCredentialFailureState) (nowMs : ℤ) : Prop :=
  ∃ last ∈ state.lastFailureMs, totalIdleResetMs ≤ nowMs - last

theorem resetTotalsOnIdle_of_idle {nowMs : ℤ} (h : state.Idle nowMs) :
  state.resetTotalsOnIdle nowMs = {}
  := by
  obtain ⟨last, hlast, hidle⟩ := h
  rw [Option.mem_def] at hlast
  simp only [resetTotalsOnIdle, hlast, totalIdleResetMs_le, if_pos hidle]

theorem resetTotalsOnIdle_of_not_idle {nowMs : ℤ} (h : ¬ state.Idle nowMs) :
  state.resetTotalsOnIdle nowMs = state
  := by
  rw [resetTotalsOnIdle]
  split
  · next last hlast =>
    rw [if_neg]
    intro hidle
    apply h ⟨last, hlast, totalIdleResetMs_le.mp hidle⟩
  · rfl

/-- Settling forgets failures that are long ago. -/
theorem settle_of_idle {nowMs : ℤ} (h : state.Idle nowMs) :
  state.settle nowMs = {}
  := by
  rw [settle, resetTotalsOnIdle_of_idle h]
  rfl

/-- Otherwise it drops a back-off that is over. -/
theorem settle_of_not_idle {nowMs : ℤ} (h : ¬ state.Idle nowMs) :
  state.settle nowMs =
    { state with backoffUntilMs := state.backoffUntilMs.filter (nowMs < ·) }
  := by
  rw [settle, resetTotalsOnIdle_of_not_idle h, normalizeBackoff_eq]

theorem settle_empty (nowMs : ℤ) :
  ({} : OsCredentialFailureState).settle nowMs = {}
  := rfl

/-- Settling twice is settling at the later time. -/
theorem settle_settle {nowMs laterMs : ℤ} (hle : nowMs ≤ laterMs) :
  (state.settle nowMs).settle laterMs = state.settle laterMs
  := by
  by_cases hidle : state.Idle nowMs
  · have hlater : state.Idle laterMs := by
      obtain ⟨last, hlast, hidle⟩ := hidle
      use last, hlast
      omega
    rw [settle_of_idle hidle, settle_of_idle hlater, settle_empty]
  · rw [settle_of_not_idle hidle]
    by_cases hlater : state.Idle laterMs
    · rw [settle_of_idle hlater]
      apply settle_of_idle
      exact hlater
    · rw [settle_of_not_idle hlater, settle_of_not_idle]
      · cases hold : state.backoffUntilMs with
        | none => rfl
        | some untilMs =>
            by_cases hover : laterMs < untilMs
            · simp [Option.filter, hover, Int.lt_of_le_of_lt hle hover]
            · by_cases hnow : nowMs < untilMs
              · simp [Option.filter, hover, hnow]
              · simp [Option.filter, hover, hnow]
      · exact hlater

/-- Recording a failure for OS logins. -/
theorem record_eq (state : OsCredentialFailureState) (nowMs : ℤ) :
  state.recordOsCredentialFailure .terminalOsLogin nowMs =
    let total := saturatingSucc (state.settle nowMs).totalFailures
    let seconds := osCredentialLoginBackoffSeconds total
    ⟨total, if 0 < seconds then some (nowMs + seconds * 1000)
      else (state.settle nowMs).backoffUntilMs, some nowMs⟩
  := by
  rw [recordOsCredentialFailure, if_neg (fun h => h rfl)]
  dsimp only
  split_ifs
  · rfl
  · rfl

/-- Recording the first failure. -/
theorem record_of_empty {nowMs : ℤ} (h : state.settle nowMs = {}) :
  state.recordOsCredentialFailure .terminalOsLogin nowMs = ⟨1, none, some nowMs⟩
  := by
  rw [record_eq, h]
  rfl

end OsCredentialFailureState

theorem ofFailures_of_burst_one {nowMs : ℤ} {times : List ℤ} (h : burst (nowMs :: times) = 1) :
  ofFailures (nowMs :: times) = ⟨1, none, some nowMs⟩
  := by
  simp [ofFailures, h]

theorem ofFailures_cons (last : ℤ) (rest : List ℤ) :
  ofFailures (last :: rest) =
    ⟨min (burst (last :: rest)) (2 ^ 31 - 1),
      if 3 ≤ burst (last :: rest) then some (holdUntil (last :: rest) last) else none, some last⟩
  := rfl

theorem idle_ofFailures {last nowMs : ℤ} {rest : List ℤ} :
  (ofFailures (last :: rest)).Idle nowMs ↔ totalIdleResetMs ≤ nowMs - last
  := by
  simp [OsCredentialFailureState.Idle, ofFailures]

/-- Recording a failure in the state of the failures so far gives the state of one more. -/
theorem record_ofFailures (times : List ℤ) (nowMs : ℤ) :
  (ofFailures times).recordOsCredentialFailure .terminalOsLogin nowMs =
    ofFailures (nowMs :: times)
  := by
  cases times with
  | nil =>
      rw [ofFailures_of_burst_one rfl]
      apply OsCredentialFailureState.record_of_empty
      rfl
  | cons last rest =>
      by_cases hidle : totalIdleResetMs ≤ nowMs - last
      · have hburst : burst (nowMs :: last :: rest) = 1 := by
          rw [burst, if_pos hidle]
        rw [ofFailures_of_burst_one hburst]
        apply OsCredentialFailureState.record_of_empty
        apply OsCredentialFailureState.settle_of_idle
        apply idle_ofFailures.mpr hidle
      · have hburst : burst (nowMs :: last :: rest) = burst (last :: rest) + 1 := by
          rw [burst, if_neg hidle]
        have htotal : saturatingSucc (ofFailures (last :: rest)).totalFailures =
            min ((burst (last :: rest) + 1 : ℕ) : ℤ) (2 ^ 31 - 1) := by
          simp only [saturatingSucc, ofFailures]
          omega
        rw [OsCredentialFailureState.record_eq,
          OsCredentialFailureState.settle_of_not_idle (mt idle_ofFailures.mp hidle)]
        dsimp only
        rw [htotal, osCredentialLoginBackoffSeconds_eq, ofFailures_cons nowMs, hburst]
        by_cases hmany : 3 ≤ burst (last :: rest) + 1
        · have hpow : (0 : ℤ) < 2 ^ (burst (last :: rest) + 1 - 3) := pow_pos (by decide) _
          rw [if_pos hmany, if_pos hmany, if_pos (by omega), holdUntil, hburst]
        · have hnone : (ofFailures (last :: rest)).backoffUntilMs = none := by
            rw [ofFailures_cons, if_neg (by omega)]
          rw [if_neg hmany, if_neg hmany, if_neg (by decide), hnone]
          rfl

/-- The state settles as the recorded failures say, at `nowMs` and later. -/
def Agrees (times : List ℤ) (nowMs : ℤ) (state : OsCredentialFailureState) : Prop :=
  ∀ laterMs ≥ nowMs, state.settle laterMs = (ofFailures times).settle laterMs

/-- The times of a history do not go back. -/
def Clocked (h : List (OsCredentialFailureState × Call)) : Prop :=
  (h.map fun x => x.2.nowMs).Pairwise (· ≤ ·)

theorem clocked_concat {h : List (OsCredentialFailureState × Call)}
    {x : OsCredentialFailureState × Call} :
  Clocked (h ++ [x]) ↔ Clocked h ∧ ∀ y ∈ h, y.2.nowMs ≤ x.2.nowMs
  := by
  simp only [Clocked, List.map_append, List.map_singleton, List.pairwise_append,
    List.pairwise_singleton, List.mem_singleton, forall_eq, List.forall_mem_map, true_and]

theorem failures_concat (h : List (OsCredentialFailureState × Call))
    (x : OsCredentialFailureState × Call) :
  failures (h ++ [x]) = x.2.failure.toList ++ failures h
  := by
  cases hfailure : x.2.failure
  all_goals simp [failures, hfailure]

/-- Evaluating leaves what the recorded failures say, and recording adds one. -/
theorem Agrees.next {times : List ℤ} {nowMs : ℤ} {state : OsCredentialFailureState}
    (h : Agrees times nowMs state) (call : Call) (hclock : nowMs ≤ call.nowMs) :
  Agrees (call.failure.toList ++ times) call.nowMs (next state call)
  := by
  cases call with
  | evaluate scope callMs =>
      intro laterMs hlater
      cases scope with
      | default => apply h laterMs (hclock.trans hlater)
      | terminalOsLogin =>
          have hnext : OsCredential.next state (.evaluate .terminalOsLogin callMs) =
              state.settle callMs := by
            rw [OsCredential.next, OsCredentialFailureState.evaluateOsCredentialPolicy,
              if_neg (fun h => h rfl)]
            dsimp only
            split
            · rfl
            · rfl
          have hsettled : (state.settle callMs).settle laterMs = state.settle laterMs :=
            OsCredentialFailureState.settle_settle hlater
          rw [hnext, hsettled]
          apply h laterMs (hclock.trans hlater)
  | record scope callMs =>
      intro laterMs hlater
      cases scope with
      | default => apply h laterMs (hclock.trans hlater)
      | terminalOsLogin =>
          have hnext : OsCredential.next state (.record .terminalOsLogin callMs) =
              ofFailures (callMs :: times) := by
            rw [OsCredential.next, OsCredentialFailureState.record_eq, h callMs hclock,
              ← OsCredentialFailureState.record_eq, record_ofFailures]
          rw [hnext]
          rfl

/-- The state settles as the failures of its history say. -/
theorem agrees_of_run {state : OsCredentialFailureState}
    {h : List (OsCredentialFailureState × Call)} (hrun : Run Step {} h state) (hclock : Clocked h)
    {nowMs : ℤ} (hlast : ∀ x ∈ h, x.2.nowMs ≤ nowMs) :
  Agrees (failures h) nowMs state
  := by
  induction hrun generalizing nowMs with
  | nil =>
      intro _ _
      rfl
  | @snoc h state _ call _ hstep ih =>
      obtain ⟨hclock, hbefore⟩ := clocked_concat.mp hclock
      have hnow : call.nowMs ≤ nowMs := hlast (state, call) (by simp)
      have hnext := (ih hclock hbefore).next call le_rfl
      rw [hstep, failures_concat]
      intro laterMs hlater
      apply hnext laterMs (hnow.trans hlater)

/-- The back-off that the recorded failures leave at a time. -/
theorem backoffUntilMs_ofFailures {times : List ℤ} {nowMs untilMs : ℤ} :
  ((ofFailures times).settle nowMs).backoffUntilMs = some untilMs ↔
    Held times nowMs ∧ ∃ last ∈ times.head?, untilMs = holdUntil times last
  := by
  cases times with
  | nil => simp [Held, ofFailures, OsCredentialFailureState.settle_empty]
  | cons last rest =>
      by_cases hidle : totalIdleResetMs ≤ nowMs - last
      · rw [OsCredentialFailureState.settle_of_idle (idle_ofFailures.mpr hidle)]
        simp [Held, hidle]
      · rw [OsCredentialFailureState.settle_of_not_idle (mt idle_ofFailures.mp hidle),
          ofFailures_cons]
        by_cases hmany : 3 ≤ burst (last :: rest)
        · simp only [if_pos hmany, Option.filter_eq_some_iff, Option.some_inj, decide_eq_true_eq,
            Held, List.head?_cons, Option.mem_some, exists_eq_left']
          constructor
          · rintro ⟨rfl, hnow⟩
            exact ⟨⟨hmany, by omega, hnow⟩, rfl⟩
          · rintro ⟨⟨_, _, hnow⟩, rfl⟩
            exact ⟨rfl, hnow⟩
        · simp [Held, hmany]

/-- A decision for OS logins, by the settled state. -/
theorem evaluate_eq (state : OsCredentialFailureState) (nowMs : ℤ) :
  (state.evaluateOsCredentialPolicy .terminalOsLogin nowMs).2 =
    match (state.settle nowMs).backoffUntilMs with
    | some untilMs =>
        blockDecision (waitMessage (max ((max (untilMs - nowMs) 0 + 999).tdiv 1000) 1))
          (some .terminalOsLoginBackoff)
    | none => allowDecision
  := by
  rw [OsCredentialFailureState.evaluateOsCredentialPolicy, if_neg (fun h => h rfl)]
  dsimp only
  rcases (state.settle nowMs).backoffUntilMs with _ | untilMs
  · rfl
  · rfl

/-- The reported wait is the remaining time rounded up to seconds. -/
theorem remainingSeconds_bounds {remainingMs : ℤ} (hpos : 0 < remainingMs) :
  let seconds := max ((max remainingMs 0 + 999).tdiv 1000) 1
  (seconds - 1) * 1000 < remainingMs ∧ remainingMs ≤ seconds * 1000
  := by
  have hdiv : (max remainingMs 0 + 999).tdiv 1000 = (remainingMs + 999) / 1000 := by
    rw [Int.tdiv_eq_ediv_of_nonneg (by omega), max_eq_left hpos.le]
  dsimp only
  rw [hdiv]
  omega

/-- The back-off is a function of the recorded failures.  After any run of calls whose times do not
go back, an evaluation for OS logins is refused if and only if the failures recorded so far hold it
back; then it is told the time that remains, rounded up to seconds, and otherwise it is allowed; and
every run with the same failures, however it was evaluated, makes the same decision. -/
theorem backoff_of_run {state : OsCredentialFailureState}
    {h : List (OsCredentialFailureState × Call)} (hrun : Run Step {} h state) {nowMs : ℤ}
    (hclock : Clocked (h ++ [(state, .evaluate .terminalOsLogin nowMs)])) :
  let decision := (state.evaluateOsCredentialPolicy .terminalOsLogin nowMs).2
  (decision.allowed = false ↔ Held (failures h) nowMs) ∧
  (decision.allowed = true → decision = allowDecision) ∧
  (decision.allowed = false → ∃ last ∈ (failures h).head?, ∃ seconds,
    decision = blockDecision (waitMessage seconds) (some .terminalOsLoginBackoff) ∧
    (seconds - 1) * 1000 < holdUntil (failures h) last - nowMs ∧
    holdUntil (failures h) last - nowMs ≤ seconds * 1000) ∧
  ∀ h' state', Run Step {} h' state' → failures h' = failures h →
    Clocked (h' ++ [(state', .evaluate .terminalOsLogin nowMs)]) →
    (state'.evaluateOsCredentialPolicy .terminalOsLogin nowMs).2 = decision
  := by
  have hagrees (h : List (OsCredentialFailureState × Call)) (state : OsCredentialFailureState)
      (hrun : Run Step {} h state)
      (hclock : Clocked (h ++ [(state, .evaluate .terminalOsLogin nowMs)])) :
      state.settle nowMs = (ofFailures (failures h)).settle nowMs := by
    obtain ⟨hbefore, hlast⟩ := clocked_concat.mp hclock
    apply agrees_of_run hrun hbefore hlast nowMs le_rfl
  dsimp only
  rw [evaluate_eq, hagrees h state hrun hclock]
  have hsame : ∀ h' state', Run Step {} h' state' → failures h' = failures h →
      Clocked (h' ++ [(state', .evaluate .terminalOsLogin nowMs)]) →
      (state'.settle nowMs).backoffUntilMs =
        ((ofFailures (failures h)).settle nowMs).backoffUntilMs := by
    intro h' state' hrun' hsame hclock'
    rw [hagrees h' state' hrun' hclock', hsame]
  rcases hbackoff : ((ofFailures (failures h)).settle nowMs).backoffUntilMs with _ | untilMs
  · have hfree : ¬ Held (failures h) nowMs := by
      intro hheld
      obtain ⟨_, last, hlast, _⟩ := id hheld
      rw [backoffUntilMs_ofFailures.mpr ⟨hheld, last, hlast, rfl⟩] at hbackoff
      cases hbackoff
    refine ⟨?_, ?_, ?_, ?_⟩
    · simpa [allowDecision] using hfree
    · intro _
      rfl
    · intro hblocked
      cases hblocked
    · intro h' state' hrun' hfailures hclock'
      rw [evaluate_eq, hsame h' state' hrun' hfailures hclock', hbackoff]
  · obtain ⟨hheld, last, hlast, rfl⟩ := backoffUntilMs_ofFailures.mp hbackoff
    refine ⟨?_, ?_, ?_, ?_⟩
    · simpa [blockDecision] using hheld
    · intro hallowed
      cases hallowed
    · intro _
      refine ⟨last, hlast, _, rfl, ?_⟩
      apply remainingSeconds_bounds
      obtain ⟨_, last', hlast', _, hnow⟩ := hheld
      obtain rfl := Option.mem_unique hlast hlast'
      omega
    · intro h' state' hrun' hfailures hclock'
      rw [evaluate_eq, hsame h' state' hrun' hfailures hclock', hbackoff]

/-- Three failures, five seconds apart, and an evaluation among them. -/
def sampleCalls : List Call :=
  [.record .terminalOsLogin 0, .record .terminalOsLogin 5000, .evaluate .terminalOsLogin 7000,
    .record .terminalOsLogin 10000]

theorem backoff_third :
  ((sampleCalls.foldl next {}).evaluateOsCredentialPolicy .terminalOsLogin 24001).2.allowed =
    false
  := by
  have hrun : Run Step {} (Run.trace next {} sampleCalls) (sampleCalls.foldl next {}) := by
    apply Run.of_next
    intro state call
    rfl
  apply (backoff_of_run hrun _).1.mpr
  · constructor
    · decide
    · use 10000, rfl
      decide
  · rw [Clocked]
    decide

end VynxDesk.OsCredential
