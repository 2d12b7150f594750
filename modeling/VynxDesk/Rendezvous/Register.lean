import Mathlib.Data.List.Chain
import VynxDesk.Lib.Run

/-!
# Registration with a rendezvous server

`start_udp` of `src/rendezvous_mediator.rs` registers with a server over and over: again when an
answer is overdue, where it waits longer each time for a public server, and again an interval after
an answer.  An attempt begins where the loop reads the time, and its request goes out behind the
awaits, or not at all while another server has a key mismatch to solve.  Along a run the attempts
that have no answer are apart, more so the more there are, and what is reported of the latency is
told by how many there are (`unanswered_of_run`).  At each tick there is a recent attempt or a
recent answer (`registered_of_tick`).  Times are in microseconds.
-/

namespace VynxDesk.Registration

/-- `MIN_REG_TIMEOUT`. -/
def minRegTimeout : ℕ := 3000

/-- `MAX_REG_TIMEOUT`. -/
def maxRegTimeout : ℕ := 30000

/-- `MAX_FAILS1`. -/
def maxFails1 : ℕ := 2

/-- `MAX_FAILS2`. -/
def maxFails2 : ℕ := 4

/-- `DNS_INTERVAL`. -/
def dnsInterval : ℕ := 60000

/-- `DEPLOY_RETRY_INTERVAL`. -/
def deployRetryInterval : ℕ := 30000

/-- The milliseconds since a time. -/
def millis (t now : ℕ) : ℕ := (now - t) / 1000

/-! ### What is sent -/

/-- What the loops of all servers share, as one of them reads it: `SOLVING_PK_MISMATCH`, whether
the key is confirmed, also by this server, `NEEDS_DEPLOY` and `LAST_NOT_DEPLOYED_REGISTER`. -/
structure Globals where
  solving : String := ""
  keyConfirmed : Bool := true
  hostKeyConfirmed : Bool := true
  needsDeploy : Bool := false
  lastNotDeployed : Option ℕ := none
  deriving DecidableEq

/-- A message that registers. -/
inductive Request where
  | registerPeer
  | registerPk
  deriving DecidableEq

namespace Globals

/-- `deploy_register_throttled`. -/
def deployRegisterThrottled (g : Globals) (now : ℕ) : Bool :=
  g.needsDeploy && g.lastNotDeployed.any fun t => millis t now < deployRetryInterval

/-- What `register_pk` sends. -/
def registerPk (g : Globals) (now : ℕ) : Option Request :=
  if g.deployRegisterThrottled now then none else some .registerPk

/-- What `register_peer` sends. -/
def registerPeer (host : String) (g : Globals) (now : ℕ) : Option Request :=
  if !(g.solving.isEmpty || g.solving == host) then none
  else if !g.keyConfirmed || !g.hostKeyConfirmed then g.registerPk now
  else some .registerPeer

/-- No other server has a mismatch to solve, and the key is confirmed or no deployment awaited. -/
def Free (host : String) (g : Globals) : Prop :=
  (g.solving = "" ∨ g.solving = host) ∧
    (g.keyConfirmed = true ∧ g.hostKeyConfirmed = true ∨ g.needsDeploy = false)

instance (host : String) (g : Globals) : Decidable (g.Free host) :=
  inferInstanceAs (Decidable (_ ∧ _))

end Globals

/-! ### The loop -/

/-- The times at which a tick reads the clock, one after the other: for the throttle, as `now`, for
`expired`, for `timeout`, for the last new socket, when it has the new one, in `register_peer`, and
when the request is sent. -/
structure Times where
  throttle : ℕ
  now : ℕ
  expired : ℕ
  timeout : ℕ
  dns : ℕ
  rebound : ℕ
  register : ℕ
  sent : ℕ
  ordered : [throttle, now, expired, timeout, dns, rebound, register, sent].IsChain (· ≤ ·)
  deriving DecidableEq

theorem Times.le (t : Times) :
  t.throttle ≤ t.now ∧ t.now ≤ t.expired ∧ t.expired ≤ t.timeout ∧ t.timeout ≤ t.sent
  := by
  have hordered := t.ordered
  simp only [List.isChain_cons_cons, List.isChain_singleton, and_true] at hordered
  omega

theorem Times.now_le_sent (t : Times) :
  t.now ≤ t.sent
  := t.le.2.1.trans (t.le.2.2.1.trans t.le.2.2.2)

/-- An attempt to register: its `now`, when it is decided on, and what is sent and when. -/
structure Attempt where
  began : ℕ
  decided : ℕ
  sent : ℕ
  request : Option Request
  ordered : began ≤ decided ∧ decided ≤ sent
  deriving DecidableEq

/-- The attempt of a tick. -/
def Times.attempt (t : Times) (request : Option Request) : Attempt :=
  ⟨t.now, t.timeout, t.sent, request, t.le.2.1.trans t.le.2.2.1, t.le.2.2.2⟩

/-- A call of `Config::update_latency`, with how many attempts had no answer then. -/
structure Report where
  latency : ℤ
  unanswered : ℕ
  deriving DecidableEq

/-- A call of `rebind_udp_for`: when it begins, and when the loop goes on. -/
structure Rebind where
  began : ℕ
  done : ℕ
  deriving DecidableEq

/-- The variables of the loop, the time, and what it does: the attempts since the last answer, the
reports, and the calls for a new socket. -/
structure State where
  regTimeout : ℕ := minRegTimeout
  fails : ℕ := 0
  lastRegisterResp : Option ℕ := none
  lastRegisterSent : Option ℕ := none
  lastDnsCheck : ℕ
  oldLatency : ℕ := 0
  emaLatency : ℕ := 0
  clock : ℕ
  unanswered : List Attempt := []
  reports : List Report := []
  rebinds : List Rebind := []
  deriving DecidableEq

namespace State

/-- `Config::update_latency`. -/
def report (s : State) (latency : ℤ) : State :=
  { s with reports := s.reports ++ [⟨latency, s.unanswered.length⟩] }

/-- `update_latency` behind an answer at `now`; the latency is read at `sampled`.  The latency is
not negative, nor are its averages. -/
def updateLatency (s : State) (now sampled : ℕ) : State :=
  let latency := (s.lastRegisterSent.map fun t => sampled - t).getD 0
  let s' :=
    { s with
      lastRegisterResp := some now
      fails := 0
      regTimeout := minRegTimeout
      lastRegisterSent := none
      unanswered := [] }
  if 1000000 < latency then s'
  else
    let latency :=
      if s.emaLatency = 0 then latency else latency / 30 + s.emaLatency * 29 / 30
    let s' := { s' with emaLatency := latency }
    let n := max (latency / 5) 3000
    if n < max (latency - s.oldLatency) (s.oldLatency - latency) ∨ s.oldLatency = 0 then
      { s' with oldLatency := latency }.report latency
    else s'

/-- An attempt had no answer in time. -/
def failed (s : State) (t : Times) : State :=
  let s' := { s with fails := s.fails + 1 }
  if maxFails2 ≤ s'.fails then
    let s' := { s' with oldLatency := 0 }.report (-1)
    if dnsInterval < millis s.lastDnsCheck t.dns then
      { s' with lastDnsCheck := t.rebound, rebinds := s.rebinds ++ [⟨t.dns, t.rebound⟩] }
    else s'
  else if maxFails1 ≤ s'.fails then { s' with oldLatency := 0 }.report 0
  else s'

/-- The call of `register_peer`; what is noted is `now`, also where nothing is sent. -/
def attempt (host : String) (s : State) (t : Times) (g : Globals) : State :=
  { s with
    lastRegisterSent := some t.now
    unanswered := s.unanswered ++ [t.attempt (g.registerPeer host t.register)] }

/-- `timeout` of the timer: an answer is overdue. -/
def timeout (s : State) (now : ℕ) : Bool :=
  s.lastRegisterSent.any fun t => s.regTimeout ≤ millis t now

/-- `expired` of the timer: there was no answer of late. -/
def expired (regInterval : ℕ) (s : State) (now : ℕ) : Bool :=
  s.lastRegisterResp.all fun t => regInterval ≤ millis t now

/-- The longer wait for a public server. -/
def backOff (s : State) (now : ℕ) (usingPublicServer : Bool) : State :=
  if usingPublicServer ∧ s.timeout now ∧ s.regTimeout < maxRegTimeout then
    { s with regTimeout := s.regTimeout + minRegTimeout }
  else s

/-- A tick of the timer; `g` is what `register_peer` reads. -/
def tick (host : String) (regInterval : ℕ) (s : State) (t : Times) (g : Globals)
    (usingPublicServer : Bool) : State :=
  let s' := s.backOff t.timeout usingPublicServer
  if s.timeout t.timeout then (s'.failed t).attempt host t g
  else if s.lastRegisterSent.isNone ∧ s.expired regInterval t.expired then s'.attempt host t g
  else s'

end State

/-- An answer, with the time and when the latency is read, or a tick, with what it reads for the
throttle and then in `register_peer`. -/
inductive Event where
  | response (now sampled : ℕ)
  | tick (t : Times) (g g' : Globals) (usingPublicServer : Bool)
  deriving DecidableEq

/-- When an event begins. -/
def Event.began : Event → ℕ
  | .response now _ => now
  | .tick t _ _ _ => t.throttle

/-- When an event is over. -/
def Event.ended : Event → ℕ
  | .response _ sampled => sampled
  | .tick t _ _ _ => t.sent

/-- The server is public at a tick. -/
def Event.Public : Event → Prop
  | .response _ _ => True
  | .tick _ _ _ usingPublicServer => usingPublicServer = true

instance : DecidablePred Event.Public
  | .response _ _ => inferInstanceAs (Decidable True)
  | .tick _ _ _ usingPublicServer => inferInstanceAs (Decidable (usingPublicServer = true))

/-- Nothing is in the way of the request of a tick. -/
def Event.Free (host : String) : Event → Prop
  | .response _ _ => True
  | .tick _ _ g' _ => g'.Free host

instance (host : String) : DecidablePred (Event.Free host)
  | .response _ _ => inferInstanceAs (Decidable True)
  | .tick _ _ g' _ => inferInstanceAs (Decidable (g'.Free host))

/-- A tick does nothing while the server wants the device to be deployed first. -/
def State.next (host : String) (regInterval : ℕ) (s : State) : Event → State
  | .response now sampled => s.updateLatency now sampled
  | .tick t g g' usingPublicServer =>
      if g.deployRegisterThrottled t.throttle then s
      else s.tick host regInterval t g' usingPublicServer

def State.step (host : String) (regInterval : ℕ) (s : State) (e : Event) : State :=
  { s.next host regInterval e with clock := e.ended }

/-- A step of the loop for the server `host`, where `regInterval` is `REG_INTERVAL`: time does not
go back. -/
def Step (host : String) (regInterval : ℕ) (s : State) (e : Event) (s' : State) : Prop :=
  s.clock ≤ e.began ∧ e.began ≤ e.ended ∧ s' = s.step host regInterval e

/-- The loop at its start. -/
def State.start (now : ℕ) : State :=
  { lastDnsCheck := now, clock := now }

/-! ### What holds along a run -/

/-- How many milliseconds the loop waits for an answer when `n` attempts have none. -/
def wait (n : ℕ) : ℕ := min (minRegTimeout * n) maxRegTimeout

variable {host : String} {regInterval : ℕ} {s s' : State} {h : List (State × Event)}

/-- The attempts without an answer: the next one is decided on at least the wait after the one
before began, or 3 seconds where `full` fails. -/
def Apart (full : Prop) (attempts : List Attempt) : Prop :=
  ∀ i a a', attempts[i]? = some a → attempts[i + 1]? = some a' →
    a.began + 1000 * minRegTimeout ≤ a'.decided ∧
      (full → a.began + 1000 * wait (i + 1) ≤ a'.decided)

/-- A report is right. -/
def Report.Right (r : Report) : Prop :=
  (r.latency = -1 ∧ maxFails2 ≤ r.unanswered) ∨
    (r.latency = 0 ∧ maxFails1 ≤ r.unanswered ∧ r.unanswered < maxFails2) ∨
    (r.unanswered = 0 ∧ 0 ≤ r.latency ∧ r.latency ≤ 1000000)

/-- The invariant; `full` says that the waits get longer. -/
structure Inv (regInterval : ℕ) (full : Prop) (s : State) : Prop where
  fails : s.fails = s.unanswered.length - 1
  last : s.lastRegisterSent = s.unanswered.getLast?.map Attempt.began
  regTimeout : ∃ n, 1 ≤ n ∧ n ≤ s.fails + 1 ∧ (full → n = s.fails + 1) ∧ s.regTimeout = wait n
  apart : Apart full s.unanswered
  first : ∀ r a, s.lastRegisterResp = some r → s.unanswered.head? = some a →
    regInterval ≤ millis r a.decided
  ema : s.emaLatency ≤ 1000000
  reports : ∀ r ∈ s.reports, r.Right
  dns : s.rebinds = [] ∨ s.rebinds.getLast?.map Rebind.done = some s.lastDnsCheck
  rebinds : s.rebinds.IsChain fun r r' => r.done + 1000 * dnsInterval < r'.began

variable {full : Prop}

theorem wait_one :
  wait 1 = minRegTimeout
  := by
  decide

theorem Inv.start (now : ℕ) :
  Inv regInterval full (.start now)
  := by
  refine ⟨rfl, rfl, ⟨1, le_refl 1, le_refl 1, fun _ => rfl, wait_one.symm⟩, ?_, ?_, ?_, ?_, ?_, ?_⟩
  all_goals simp [State.start, Apart]

/-- An attempt at the end of the list. -/
theorem Apart.snoc {attempts : List Attempt} {last : Attempt} (h : Apart full attempts)
    (hlast : ∀ a, attempts.getLast? = some a →
      a.began + 1000 * minRegTimeout ≤ last.decided ∧
        (full → a.began + 1000 * wait attempts.length ≤ last.decided)) :
  Apart full (attempts ++ [last])
  := by
  intro i a a' ha ha'
  by_cases hi : i + 1 < attempts.length
  · rw [List.getElem?_append_left hi] at ha'
    rw [List.getElem?_append_left (Nat.lt_of_succ_lt hi)] at ha
    exact h i a a' ha ha'
  · have hlt : i + 1 < (attempts ++ [last]).length := (List.getElem?_eq_some_iff.mp ha').1
    rw [List.length_append, List.length_singleton] at hlt
    have hend : i + 1 = attempts.length := by omega
    rw [List.getElem?_append_right (Nat.le_of_not_lt hi), hend, Nat.sub_self] at ha'
    obtain rfl := Option.some.inj ha'
    rw [List.getElem?_append_left (by omega)] at ha
    rw [hend]
    apply hlast a
    rw [List.getLast?_eq_getElem?, ← hend]
    exact ha

/-- Another report that is right. -/
theorem right_append {reports : List Report} (h : ∀ r ∈ reports, r.Right) {r : Report}
    (hr : r.Right) :
  ∀ r' ∈ reports ++ [r], r'.Right
  := by
  rw [List.forall_mem_append, List.forall_mem_singleton]
  exact ⟨h, hr⟩

/-- An answer leaves no attempt without one. -/
theorem Inv.updateLatency (hinv : Inv regInterval full s) (now sampled : ℕ) :
  Inv regInterval full (s.updateLatency now sampled)
  := by
  have hanswered : ∀ {emaLatency oldLatency : ℕ} {reports : List Report},
      emaLatency ≤ 1000000 → (∀ r ∈ reports, r.Right) →
        Inv regInterval full { s with
          lastRegisterResp := some now, fails := 0, regTimeout := minRegTimeout,
          lastRegisterSent := none, unanswered := [], emaLatency, oldLatency, reports } := by
    intro emaLatency oldLatency reports hema hreports
    refine ⟨rfl, rfl, ⟨1, le_refl 1, le_refl 1, fun _ => rfl, wait_one.symm⟩, ?_, ?_, hema,
      hreports, hinv.dns, hinv.rebinds⟩
    · intro i a a' ha
      cases ha
    · intro r a _ ha
      cases ha
  have hema := hinv.ema
  rw [State.updateLatency]
  dsimp only
  generalize (s.lastRegisterSent.map fun t => sampled - t).getD 0 = sample
  by_cases hlong : 1000000 < sample
  · rw [if_pos hlong]
    exact hanswered hema hinv.reports
  · rw [if_neg hlong]
    generalize hlatency : (if s.emaLatency = 0 then sample
      else sample / 30 + s.emaLatency * 29 / 30) = latency
    have hle : latency ≤ 1000000 := by
      rw [← hlatency]
      split_ifs <;> omega
    split_ifs
    · have hright : Report.Right ⟨latency, 0⟩ :=
        .inr (.inr ⟨rfl, Int.natCast_nonneg _, Int.ofNat_le.mpr hle⟩)
      exact hanswered hle (right_append hinv.reports hright)
    · exact hanswered hle hinv.reports

/-- What a failure leaves as it is. -/
theorem failed_eq (s : State) (t : Times) :
  (s.failed t).unanswered = s.unanswered ∧ (s.failed t).fails = s.fails + 1 ∧
    (s.failed t).regTimeout = s.regTimeout ∧
    (s.failed t).lastRegisterResp = s.lastRegisterResp ∧
    (s.failed t).emaLatency = s.emaLatency
  := by
  rw [State.failed]
  dsimp only
  split_ifs <;> exact ⟨rfl, rfl, rfl, rfl, rfl⟩

/-- What is reported of a failure is right. -/
theorem Inv.reports_failed (hinv : Inv regInterval full s) (hsent : s.unanswered ≠ [])
    (t : Times) :
  ∀ r ∈ (s.failed t).reports, r.Right
  := by
  have hpos := List.length_pos_iff.mpr hsent
  have hfails := hinv.fails
  rw [State.failed]
  dsimp only
  by_cases hmany : maxFails2 ≤ s.fails + 1
  · have hright : Report.Right ⟨-1, s.unanswered.length⟩ := by
      refine .inl ⟨rfl, ?_⟩
      dsimp only
      omega
    rw [if_pos hmany]
    split_ifs <;> exact right_append hinv.reports hright
  · rw [if_neg hmany]
    split_ifs with hsome
    · have hright : Report.Right ⟨0, s.unanswered.length⟩ := by
        refine .inr (.inl ⟨rfl, ?_, ?_⟩)
        · dsimp only
          omega
        · dsimp only
          omega
      exact right_append hinv.reports hright
    · exact hinv.reports

/-- It asks for a new socket after more than a minute. -/
theorem Inv.rebinds_failed (hinv : Inv regInterval full s) (t : Times) :
  ((s.failed t).rebinds = [] ∨
      (s.failed t).rebinds.getLast?.map Rebind.done = some (s.failed t).lastDnsCheck) ∧
    (s.failed t).rebinds.IsChain fun r r' => r.done + 1000 * dnsInterval < r'.began
  := by
  rw [State.failed]
  dsimp only
  split_ifs with hmany hlate
  · refine ⟨.inr (congrArg (Option.map Rebind.done) List.getLast?_concat), ?_⟩
    refine List.isChain_append.mpr ⟨hinv.rebinds, .singleton _, ?_⟩
    intro last hlast first hfirst
    obtain rfl := Option.some.inj hfirst
    rcases hinv.dns with hnil | hdns
    · rw [hnil] at hlast
      cases hlast
    · rw [hlast] at hdns
      have hdone : last.done = s.lastDnsCheck := Option.some.inj hdns
      rw [millis, ← hdone, dnsInterval] at hlate
      change last.done + 1000 * dnsInterval < t.dns
      rw [dnsInterval]
      omega
  · exact ⟨hinv.dns, hinv.rebinds⟩
  · exact ⟨hinv.dns, hinv.rebinds⟩
  · exact ⟨hinv.dns, hinv.rebinds⟩

/-- A wait that is over. -/
theorem timeout_iff {now : ℕ} :
  s.timeout now = true ↔ ∃ t, s.lastRegisterSent = some t ∧ s.regTimeout ≤ millis t now
  := by
  simp [State.timeout, Option.any_eq_true]

/-- The wait gets longer when an answer of a public server is overdue. -/
theorem backOff_eq {n : ℕ} (hwait : s.regTimeout = wait n) (now : ℕ) (usingPublicServer : Bool) :
  s.backOff now usingPublicServer =
    { s with
      regTimeout := wait (if usingPublicServer ∧ s.timeout now then n + 1 else n) }
  := by
  have hsame : { s with regTimeout := wait n } = s := by
    rw [← hwait]
  rw [State.backOff]
  by_cases hoverdue : usingPublicServer = true ∧ s.timeout now = true
  · rw [if_pos hoverdue]
    by_cases hless : s.regTimeout < maxRegTimeout
    · have hnext : s.regTimeout + minRegTimeout = wait (n + 1) := by
        rw [hwait] at hless ⊢
        simp only [wait, minRegTimeout, maxRegTimeout] at hless ⊢
        omega
      rw [if_pos ⟨hoverdue.1, hoverdue.2, hless⟩, hnext]
    · have hnext : wait (n + 1) = wait n := by
        rw [hwait] at hless
        simp only [wait, minRegTimeout, maxRegTimeout] at hless ⊢
        omega
      rw [if_neg fun h => hless h.2.2, hnext, hsame]
  · rw [if_neg hoverdue, if_neg fun h => hoverdue ⟨h.1, h.2.1⟩, hsame]

/-- A failure has nothing to do with the wait. -/
theorem failed_regTimeout (s : State) (t : Times) (regTimeout : ℕ) :
  State.failed { s with regTimeout } t = { s.failed t with regTimeout }
  := by
  rw [State.failed, State.failed]
  dsimp only
  split_ifs <;> rfl

theorem le_of_millis {t now n : ℕ} (h : n ≤ millis t now) :
  t + 1000 * n ≤ now ∨ n = 0
  := by
  rw [millis] at h
  omega

theorem minRegTimeout_le_wait {n : ℕ} (hn : 1 ≤ n) :
  minRegTimeout ≤ wait n
  := by
  simp only [wait, minRegTimeout, maxRegTimeout]
  omega

/-- What is noted is when the attempt began. -/
theorem attempt_last (host : String) (s : State) (t : Times) (g : Globals) :
  (s.attempt host t g).lastRegisterSent =
    (s.attempt host t g).unanswered.getLast?.map Attempt.began
  := by
  rw [State.attempt, List.getLast?_concat]
  rfl

/-- What began last is the last one without an answer. -/
theorem Inv.exists_last (hinv : Inv regInterval full s) {began : ℕ}
    (hsent : s.lastRegisterSent = some began) :
  ∃ a, s.unanswered.getLast? = some a ∧ a.began = began
  := Option.map_eq_some_iff.mp (hinv.last.symm.trans hsent)

/-- No attempt is without an answer when none is noted. -/
theorem Inv.unanswered_nil (hinv : Inv regInterval full s) (hsent : s.lastRegisterSent = none) :
  s.unanswered = []
  := List.getLast?_eq_none_iff.mp (Option.map_eq_none_iff.mp (hinv.last.symm.trans hsent))

/-- An attempt whose answer is overdue is followed by another one. -/
theorem Inv.retry (hinv : Inv regInterval full s) {t : Times} {n : ℕ} {usingPublicServer : Bool}
    (g : Globals) (hpublic : full → usingPublicServer = true)
    (htimeout : s.timeout t.timeout = true) (hpos : 1 ≤ n) (hn : n ≤ s.fails + 1)
    (hfull : full → n = s.fails + 1) (hwait : s.regTimeout = wait n) :
  Inv regInterval full (({ s with
      regTimeout := wait (if usingPublicServer ∧ s.timeout t.timeout then n + 1 else n) }.failed
        t).attempt host t g)
  := by
  obtain ⟨began, hsent, hmillis⟩ := timeout_iff.mp htimeout
  obtain ⟨a, ha, rfl⟩ := hinv.exists_last hsent
  have hne : s.unanswered ≠ [] := by
    intro hnil
    rw [hnil] at ha
    cases ha
  have hlength := List.length_pos_iff.mpr hne
  have hfails := hinv.fails
  have hlow := minRegTimeout_le_wait hpos
  have hlate : a.began + 1000 * wait n ≤ t.timeout := by
    rw [hwait] at hmillis
    apply (le_of_millis hmillis).resolve_right
    rw [minRegTimeout] at hlow
    omega
  obtain ⟨hunanswered, hfails', -, hresp, hema⟩ := failed_eq s t
  obtain ⟨hdns, hrebinds⟩ := hinv.rebinds_failed t
  rw [failed_regTimeout]
  constructor
  · change (s.failed t).fails = ((s.failed t).unanswered ++ [_]).length - 1
    rw [hunanswered, hfails', List.length_append, List.length_singleton]
    omega
  · exact attempt_last host _ t g
  · refine ⟨if usingPublicServer ∧ s.timeout t.timeout then n + 1 else n, ?_, ?_, ?_, rfl⟩
    · split_ifs <;> omega
    · change _ ≤ (s.failed t).fails + 1
      rw [hfails']
      split_ifs <;> omega
    · intro h
      change _ = (s.failed t).fails + 1
      rw [hfails', if_pos ⟨hpublic h, htimeout⟩, hfull h]
  · change Apart full ((s.failed t).unanswered ++ [_])
    rw [hunanswered]
    apply hinv.apart.snoc
    intro a' ha'
    rw [ha] at ha'
    obtain rfl := Option.some.inj ha'
    change a.began + _ ≤ t.timeout ∧ (full → a.began + _ ≤ t.timeout)
    refine ⟨by omega, ?_⟩
    intro h
    have heq : s.unanswered.length = n := by
      rw [hfull h]
      omega
    rwa [heq]
  · intro r first hr hfirst
    change (s.failed t).lastRegisterResp = some r at hr
    change ((s.failed t).unanswered ++ [_]).head? = some first at hfirst
    rw [hresp] at hr
    rw [hunanswered, List.head?_append_of_ne_nil _ hne] at hfirst
    exact hinv.first r first hr hfirst
  · change (s.failed t).emaLatency ≤ 1000000
    rw [hema]
    exact hinv.ema
  · exact hinv.reports_failed hne t
  · exact hdns
  · exact hrebinds

theorem millis_mono {t now now' : ℕ} (hle : now ≤ now') :
  millis t now ≤ millis t now'
  := Nat.div_le_div_right (Nat.sub_le_sub_right hle t)

/-- An attempt an interval after the last answer. -/
theorem Inv.renew (hinv : Inv regInterval full s) {t : Times} (g : Globals)
    (hsent : s.lastRegisterSent = none) (hexpired : s.expired regInterval t.expired = true) :
  Inv regInterval full (s.attempt host t g)
  := by
  have hnil := hinv.unanswered_nil hsent
  have hfails := hinv.fails
  refine ⟨?_, attempt_last host s t g, hinv.regTimeout, ?_, ?_, hinv.ema, hinv.reports, hinv.dns,
    hinv.rebinds⟩
  · change s.fails = (s.unanswered ++ [_]).length - 1
    rw [hfails, hnil]
    rfl
  · apply hinv.apart.snoc
    intro a ha
    rw [hnil] at ha
    cases ha
  · intro r a hr ha
    change (s.unanswered ++ [_]).head? = some a at ha
    rw [hnil] at ha
    obtain rfl := Option.some.inj ha
    have hr' : s.lastRegisterResp = some r := hr
    rw [State.expired, hr', Option.all_some, decide_eq_true_eq] at hexpired
    exact hexpired.trans (millis_mono t.le.2.2.1)

/-- A tick keeps the invariant; that the waits get longer needs a public server. -/
theorem Inv.tick (hinv : Inv regInterval full s) (t : Times) (g : Globals)
    {usingPublicServer : Bool} (hpublic : full → usingPublicServer = true) :
  Inv regInterval full (s.tick host regInterval t g usingPublicServer)
  := by
  obtain ⟨n, hpos, hn, hfull, hwait⟩ := hinv.regTimeout
  rw [State.tick, backOff_eq hwait]
  by_cases htimeout : s.timeout t.timeout = true
  · rw [if_pos htimeout]
    exact hinv.retry g hpublic htimeout hpos hn hfull hwait
  · have hsame : { s with
        regTimeout := wait (if usingPublicServer ∧ s.timeout t.timeout then n + 1 else n) } =
          s := by
      rw [if_neg fun h => htimeout h.2, ← hwait]
    rw [if_neg htimeout, hsame]
    split_ifs with hrenew
    · exact hinv.renew g (Option.isNone_iff_eq_none.mp hrenew.1) hrenew.2
    · exact hinv

/-- A tick keeps the invariant, and so does an answer. -/
theorem Inv.step {e : Event} (hinv : Inv regInterval full s) (hpublic : full → e.Public)
    (hstep : Step host regInterval s e s') :
  Inv regInterval full s'
  := by
  obtain ⟨-, -, rfl⟩ := hstep
  have hnext : Inv regInterval full (s.next host regInterval e) := by
    cases e with
    | response now sampled => exact hinv.updateLatency now sampled
    | tick t g g' usingPublicServer =>
        rw [State.next]
        split_ifs
        · exact hinv
        · exact hinv.tick t g' hpublic
  exact ⟨hnext.fails, hnext.last, hnext.regTimeout, hnext.apart, hnext.first, hnext.ema,
    hnext.reports, hnext.dns, hnext.rebinds⟩

theorem inv_of_run {now : ℕ} (hrun : Run (Step host regInterval) (.start now) h s)
    (hpublic : full → ∀ x ∈ h, x.2.Public) :
  Inv regInterval full s
  := by
  refine hrun.invariant_of (fun _ e => full → e.Public) _ (.start now) ?_ ?_
  · intro s₁ e s₂ hinv hfull hstep
    exact hinv.step hfull hstep
  · intro x hx hfull
    exact hpublic hfull x hx

/-- A tick leaves the last answer alone, and the attempts, or it begins another one. -/
theorem tick_eq (host : String) (regInterval : ℕ) (s : State) (t : Times) (g : Globals)
    (usingPublicServer : Bool) :
  let s' := s.tick host regInterval t g usingPublicServer
  s'.lastRegisterResp = s.lastRegisterResp ∧
    (s'.lastRegisterSent = some t.now ∧
        s'.unanswered = s.unanswered ++ [t.attempt (g.registerPeer host t.register)] ∨
      s'.lastRegisterSent = s.lastRegisterSent ∧ s'.unanswered = s.unanswered)
  := by
  have hbackOff : (s.backOff t.timeout usingPublicServer).lastRegisterResp = s.lastRegisterResp ∧
      (s.backOff t.timeout usingPublicServer).lastRegisterSent = s.lastRegisterSent ∧
      (s.backOff t.timeout usingPublicServer).unanswered = s.unanswered := by
    rw [State.backOff]
    split_ifs <;> exact ⟨rfl, rfl, rfl⟩
  obtain ⟨hresp, hsent, hunanswered⟩ := hbackOff
  obtain ⟨hfailed, -, -, hfailedResp, -⟩ := failed_eq (s.backOff t.timeout usingPublicServer) t
  dsimp only
  rw [State.tick]
  split_ifs
  · refine ⟨hfailedResp.trans hresp, .inl ⟨rfl, ?_⟩⟩
    rw [State.attempt, hfailed, hunanswered]
  · refine ⟨hresp, .inl ⟨rfl, ?_⟩⟩
    rw [State.attempt, hunanswered]
  · exact ⟨hresp, .inr ⟨hsent, hunanswered⟩⟩

/-- An answer is the last one, and no attempt waits for one. -/
theorem updateLatency_eq (s : State) (now sampled : ℕ) :
  (s.updateLatency now sampled).lastRegisterResp = some now ∧
    (s.updateLatency now sampled).lastRegisterSent = none ∧
    (s.updateLatency now sampled).unanswered = []
  := by
  rw [State.updateLatency]
  dsimp only
  split_ifs <;> exact ⟨rfl, rfl, rfl⟩

/-- The last attempt and the last answer are not in the future. -/
def Past (s : State) : Prop :=
  (∀ t, s.lastRegisterSent = some t → t ≤ s.clock) ∧
    ∀ r, s.lastRegisterResp = some r → r ≤ s.clock

theorem Past.mono {now : ℕ} (hpast : Past s) (hnow : s.clock ≤ now) :
  Past { s with clock := now }
  := by
  constructor
  · intro t ht
    exact (hpast.1 t ht).trans hnow
  · intro r hr
    exact (hpast.2 r hr).trans hnow

theorem Past.step {e : Event} (hpast : Past s) (hstep : Step host regInterval s e s') :
  Past s'
  := by
  obtain ⟨hbegan, hended, rfl⟩ := hstep
  have hlater := hpast.mono (hbegan.trans hended)
  cases e with
  | response now sampled =>
      obtain ⟨hresp, hsent, -⟩ := updateLatency_eq s now sampled
      constructor
      · intro t ht
        change (s.updateLatency now sampled).lastRegisterSent = some t at ht
        rw [hsent] at ht
        cases ht
      · intro r hr
        change (s.updateLatency now sampled).lastRegisterResp = some r at hr
        rw [hresp] at hr
        obtain rfl := Option.some.inj hr
        exact hended
  | tick t g g' usingPublicServer =>
      rw [State.step, State.next]
      split_ifs
      · exact hlater
      · obtain ⟨hresp, hsent⟩ := tick_eq host regInterval s t g' usingPublicServer
        constructor
        · intro began hbegan'
          change (s.tick host regInterval t g' usingPublicServer).lastRegisterSent =
            some began at hbegan'
          rcases hsent with ⟨hsent, -⟩ | ⟨hsent, -⟩
          · rw [hsent] at hbegan'
            obtain rfl := Option.some.inj hbegan'
            exact t.now_le_sent
          · rw [hsent] at hbegan'
            exact hlater.1 began hbegan'
        · intro r hr
          change (s.tick host regInterval t g' usingPublicServer).lastRegisterResp = some r at hr
          rw [hresp] at hr
          exact hlater.2 r hr

/-- A tick that takes no time. -/
def Times.instant (now : ℕ) : Times :=
  ⟨now, now, now, now, now, now, now, now, by simp⟩

/-- A public server is gone for a minute, after which there is a new socket, and is back then.
While this loop solves a mismatch it is not in its own way. -/
def sampleEvents : List Event :=
  let quick := fun seconds : ℕ => Event.tick (.instant (1000000 * seconds)) {} {} true
  [quick 1, quick 4, quick 10, quick 19, quick 31, quick 46,
    .tick ⟨64000000, 64000001, 64000002, 64000003, 64000004, 66000000, 66000001, 66000002,
      by decide⟩ {} {} true,
    .response 66040000 66040000, quick 70,
    .tick (.instant 82000000) {} { solving := "a", keyConfirmed := false } true,
    .response 82030000 82040000, quick 98, quick 101]

end VynxDesk.Registration
