import Mathlib.Algebra.Group.Nat.Defs
import Mathlib.Data.List.Infix
import Mathlib.Logic.Function.Basic
import VynxDesk.Lib.Run

/-!
# Signing in with an account

`account_auth` of `src/hbbs_http/account.rs` numbers its attempts, waits until no task is running,
and starts a task that asks the server for a page and then whether the user has signed in.  Any
number of calls may be on their way, and `auth_cancel` may come at any time.  Each access to
`OIDC_SESSION` under its lock is a step here, and so is each answer of the server.  Whatever the
order of the steps, no two tasks are under way, and what `get_result` shows was answered for the
page it shows (`consistent_of_run`); after a cancellation nothing changes until the next call goes
on (`unchanged_after_attempt`).
-/

namespace VynxDesk.Account

/-- `HbbHttpResponse`. -/
inductive HbbHttpResponse (α : Type) where
  | errorFormat
  | error (err : String)
  | dataTypeFormat
  | data (v : α)
  deriving DecidableEq

/-- What a request returns: a response, or the text of an error. -/
abbrev Response (α : Type) : Type :=
  Except String (HbbHttpResponse α)

/-- `OidcAuthUrl`. -/
structure OidcAuthUrl where
  code : String
  url : String
  deriving DecidableEq

/-- `UserPayload`, with what `auth_task` reads of it. -/
structure UserPayload where
  name : String
  displayName : Option String
  avatar : Option String
  status : ℤ
  deriving DecidableEq

/-- `AuthBody`. -/
structure AuthBody where
  accessToken : String
  type : String
  tfaType : String
  secret : String
  user : UserPayload
  deriving DecidableEq

def REQUESTING_ACCOUNT_AUTH : String := "Requesting account auth"

def WAITING_ACCOUNT_AUTH : String := "Waiting account auth"

def LOGIN_ACCOUNT_AUTH : String := "Login account auth"

/-- `OidcSession`, without the server whose client was made and the constant time limit. -/
structure OidcSession where
  stateMsg : String := REQUESTING_ACCOUNT_AUTH
  failedMsg : String := ""
  codeUrl : Option OidcAuthUrl := none
  authBody : Option AuthBody := none
  authAttempt : ℕ := 0
  running : Bool := false
  deriving DecidableEq

namespace OidcSession

variable (session : OidcSession)

/-- `reset`. -/
def reset : OidcSession :=
  { session with
    stateMsg := REQUESTING_ACCOUNT_AUTH
    failedMsg := ""
    running := false
    codeUrl := none
    authBody := none }

/-- `before_task`. -/
def beforeTask : OidcSession :=
  { session.reset with running := true }

/-- `after_task`. -/
def afterTask : OidcSession :=
  { session with running := false }

/-- What `start_auth_attempt` and `cancel_auth_attempt` do; the number is one of type `u64`. -/
def nextAuthAttempt : OidcSession :=
  { session with authAttempt := (session.authAttempt + 1) % 2 ^ 64 }

/-- `set_state`. -/
def setState (stateMsg failedMsg : String) : OidcSession :=
  { session with stateMsg, failedMsg }

/-- `get_result_`: the messages, the page and the answer. -/
def getResult : String × String × Option String × Option AuthBody :=
  (session.stateMsg, session.failedMsg, session.codeUrl.map OidcAuthUrl.url, session.authBody)

end OidcSession

/-- The options of `LocalConfig` that `auth_task` sets. -/
structure LocalConfig where
  accessToken : Option String := none
  userInfo : Option UserPayload := none
  deriving DecidableEq

/-- Where a call stands: in `wait_stop_querying`, about to begin its task, and then in `auth_task`,
whose end is `returned`.  The steps between two accesses to `OIDC_SESSION` are one phase. -/
inductive Phase where
  | waiting
  | entering
  | requesting
  | requested (response : Response OidcAuthUrl)
  | publishing (codeUrl : OidcAuthUrl)
  | looping (codeUrl : OidcAuthUrl)
  | querying (codeUrl : OidcAuthUrl)
  | queried (codeUrl : OidcAuthUrl) (response : Response AuthBody)
  | storing (codeUrl : OidcAuthUrl) (authBody : AuthBody)
  | exited
  | settingState (stateMsg failedMsg : String)
  | returned
  deriving DecidableEq

/-- A call of `account_auth`, with its task. -/
structure Thread where
  authAttempt : ℕ
  rememberMe : Bool
  phase : Phase
  deriving DecidableEq

structure State where
  session : OidcSession := {}
  config : LocalConfig := {}
  threads : ℕ → Option Thread := fun _ => none

/-- The events: a call of `account_auth` or `auth_cancel`, a step of a call, an answer to its
request, and a look at the clock, which says whether the time is over. -/
inductive Event where
  | accountAuth (t : ℕ) (rememberMe : Bool)
  | authCancel
  | run (t : ℕ)
  | authResponse (t : ℕ) (response : Response OidcAuthUrl)
  | queryResponse (t : ℕ) (response : Response AuthBody)
  | clock (t : ℕ) (expired : Bool)
  deriving DecidableEq

/-- The phase behind the answer to the first request, of a current attempt. -/
def afterAuth : Response OidcAuthUrl → Phase
  | .ok (.data codeUrl) => .publishing codeUrl
  | .ok (.error err) => .settingState REQUESTING_ACCOUNT_AUTH err
  | .ok _ => .settingState REQUESTING_ACCOUNT_AUTH "Invalid auth response"
  | .error err => .settingState REQUESTING_ACCOUNT_AUTH err

/-- `err.contains("No authed oidc is found")`: the user has not signed in yet. -/
def noAuthed (err : String) : Bool :=
  "No authed oidc is found".toList <:+: err.toList

/-- The phase behind the answer to a query, of a current attempt. -/
def afterQuery (codeUrl : OidcAuthUrl) : Response AuthBody → Phase
  | .ok (.data authBody) => .storing codeUrl authBody
  | .ok (.error err) =>
      if noAuthed err then .looping codeUrl
      else .settingState WAITING_ACCOUNT_AUTH err
  | .ok _ => .looping codeUrl
  | .error _ => .looping codeUrl

/-- What is stored of an answer. -/
def LocalConfig.store (config : LocalConfig) (rememberMe : Bool) (authBody : AuthBody) :
    LocalConfig :=
  if authBody.type = "access_token" ∧ rememberMe = true then
    { accessToken := some authBody.accessToken, userInfo := some authBody.user }
  else config

namespace State

variable (s : State)

/-- `is_current_auth_attempt`. -/
def isCurrent (thread : Thread) : Bool :=
  s.session.authAttempt = thread.authAttempt

/-- A thread goes on in another phase. -/
def move (t : ℕ) (thread : Thread) (phase : Phase) : State :=
  { s with threads := Function.update s.threads t (some { thread with phase }) }

/-- A thread ends. -/
def drop (t : ℕ) : State :=
  { s with threads := Function.update s.threads t none }

/-- A step of a thread that needs no answer. -/
def run (t : ℕ) (thread : Thread) : Option State :=
  match thread.phase with
  | .waiting => if s.session.running then some s else some (s.move t thread .entering)
  | .entering =>
      if s.isCurrent thread then
        some ({ s with session := s.session.beforeTask }.move t thread .requesting)
      else some (s.drop t)
  | .requested response =>
      if s.isCurrent thread then some (s.move t thread (afterAuth response))
      else some (s.move t thread .returned)
  | .publishing codeUrl =>
      if s.isCurrent thread then
        let session :=
          { s.session.setState WAITING_ACCOUNT_AUTH "" with codeUrl := some codeUrl }
        some ({ s with session }.move t thread (.looping codeUrl))
      else some (s.move t thread .returned)
  | .queried codeUrl response =>
      if s.isCurrent thread then some (s.move t thread (afterQuery codeUrl response))
      else some (s.move t thread .returned)
  | .storing _ authBody =>
      if s.isCurrent thread then
        let config := s.config.store thread.rememberMe authBody
        let session := { s.session.setState LOGIN_ACCOUNT_AUTH "" with authBody := some authBody }
        some ({ s with config, session }.move t thread .returned)
      else some (s.move t thread .returned)
  | .settingState stateMsg failedMsg =>
      if s.isCurrent thread then
        let session := s.session.setState stateMsg failedMsg
        some ({ s with session }.move t thread .returned)
      else some (s.move t thread .returned)
  | .returned => some ({ s with session := s.session.afterTask }.drop t)
  | _ => none

/-- An event, if it can happen. -/
def step : Event → Option State
  | .accountAuth t rememberMe =>
      if s.threads t = none then
        let session := s.session.nextAuthAttempt
        let thread := { authAttempt := session.authAttempt, rememberMe, phase := .waiting }
        some { s with session, threads := Function.update s.threads t (some thread) }
      else none
  | .authCancel => some { s with session := s.session.nextAuthAttempt }
  | .run t => (s.threads t).bind fun thread => s.run t thread
  | .authResponse t response =>
      (s.threads t).bind fun thread =>
        match thread.phase with
        | .requesting => some (s.move t thread (.requested response))
        | _ => none
  | .queryResponse t response =>
      (s.threads t).bind fun thread =>
        match thread.phase with
        | .querying codeUrl => some (s.move t thread (.queried codeUrl response))
        | _ => none
  | .clock t expired =>
      (s.threads t).bind fun thread =>
        match thread.phase with
        | .looping codeUrl =>
            if s.isCurrent thread ∧ expired = false then
              some (s.move t thread (.querying codeUrl))
            else some (s.move t thread .exited)
        | .exited =>
            if expired = true ∧ s.isCurrent thread then
              some (s.move t thread (.settingState WAITING_ACCOUNT_AUTH "timeout"))
            else some (s.move t thread .returned)
        | _ => none

end State

/-- A step of the process. -/
def Step (s : State) (e : Event) (s' : State) : Prop :=
  s.step e = some s'

/-! ### What holds along a run -/

/-- A history of the process. -/
abbrev History : Type :=
  List (State × Event)

/-- The events that take the number of an attempt. -/
def Event.isAttempt : Event → Bool
  | .accountAuth _ _ => true
  | .authCancel => true
  | _ => false

/-- How many attempts were numbered. -/
def attempts (h : History) : ℕ :=
  h.countP fun x => x.2.isAttempt

/-- The server answered a query for the page `codeUrl` with `authBody`. -/
def Answered (h : History) (codeUrl : OidcAuthUrl) (authBody : AuthBody) : Prop :=
  ∃ x ∈ h, ∃ t thread, x.2 = .queryResponse t (.ok (.data authBody)) ∧
    x.1.threads t = some thread ∧ thread.phase = .querying codeUrl

/-- The task of a call is under way: `before_task` is done and `after_task` is not. -/
def Phase.active : Phase → Bool
  | .waiting => false
  | .entering => false
  | _ => true

/-- What a task in a phase relies on: nothing is shown before it shows its page, and then its page
and no answer yet; the answer it holds is one for its page. -/
def Phase.Fits (h : History) (session : OidcSession) : Phase → Prop
  | .requesting => session.codeUrl = none ∧ session.authBody = none
  | .requested _ => session.codeUrl = none ∧ session.authBody = none
  | .publishing _ => session.codeUrl = none ∧ session.authBody = none
  | .looping codeUrl => session.codeUrl = some codeUrl ∧ session.authBody = none
  | .querying codeUrl => session.codeUrl = some codeUrl ∧ session.authBody = none
  | .queried codeUrl response =>
      session.codeUrl = some codeUrl ∧ session.authBody = none ∧
        ∀ authBody, response = .ok (.data authBody) → Answered h codeUrl authBody
  | .storing codeUrl authBody =>
      session.codeUrl = some codeUrl ∧ session.authBody = none ∧ Answered h codeUrl authBody
  | _ => True

/-- What is shown of an answer belongs to the page that is shown. -/
def Shown (h : History) (session : OidcSession) : Prop :=
  ∀ authBody, session.authBody = some authBody →
    ∃ codeUrl, session.codeUrl = some codeUrl ∧ Answered h codeUrl authBody

/-- The attempts of the calls are different, and at most `n`. -/
structure Numbered (n : ℕ) (s : State) : Prop where
  le : ∀ t thread, s.threads t = some thread → thread.authAttempt ≤ n
  inj : ∀ t u thread thread', s.threads t = some thread → s.threads u = some thread' →
    thread.authAttempt = thread'.authAttempt → t = u

/-- The invariant: `owner` is the call whose task is under way, if there is one, and `running` says
so; a call that has seen that there is none may rely on it as long as its attempt is the current
one. -/
structure Inv (h : History) (owner : Option ℕ) (s : State) : Prop where
  attempt : s.session.authAttempt = attempts h
  numbered : Numbered (attempts h) s
  running : s.session.running = owner.isSome
  alive : ∀ t, owner = some t → ∃ thread, s.threads t = some thread
  active : ∀ t thread, s.threads t = some thread → (thread.phase.active = true ↔ owner = some t)
  entering : ∀ t thread, s.threads t = some thread → thread.phase = .entering →
    thread.authAttempt = s.session.authAttempt → owner = none
  fits : ∀ t thread, s.threads t = some thread → thread.phase.Fits h s.session
  shown : Shown h s.session

variable {h : History} {owner : Option ℕ} {s s' : State} {t : ℕ} {thread : Thread}
  {x : State × Event}

theorem Answered.append {codeUrl : OidcAuthUrl} {authBody : AuthBody}
    (hanswered : Answered h codeUrl authBody) (x : State × Event) :
  Answered (h ++ [x]) codeUrl authBody
  := by
  obtain ⟨y, hy, hrest⟩ := hanswered
  exact ⟨y, List.mem_append_left _ hy, hrest⟩

theorem Phase.Fits.append {phase : Phase} {session : OidcSession} (hfits : phase.Fits h session)
    (x : State × Event) :
  phase.Fits (h ++ [x]) session
  := by
  cases phase with
  | queried codeUrl response =>
      obtain ⟨hcode, hbody, hanswer⟩ := hfits
      exact ⟨hcode, hbody, fun authBody heq => (hanswer authBody heq).append x⟩
  | storing codeUrl authBody =>
      obtain ⟨hcode, hbody, hanswer⟩ := hfits
      exact ⟨hcode, hbody, hanswer.append x⟩
  | _ => exact hfits

theorem Phase.fits_of_not_active {phase : Phase} (hphase : phase.active = false)
    (session : OidcSession) :
  phase.Fits h session
  := by
  cases phase with
  | waiting => trivial
  | entering => trivial
  | _ => cases hphase

theorem Shown.append {session : OidcSession} (hshown : Shown h session) (x : State × Event) :
  Shown (h ++ [x]) session
  := by
  intro authBody hbody
  obtain ⟨codeUrl, hcode, hanswered⟩ := hshown authBody hbody
  exact ⟨codeUrl, hcode, hanswered.append x⟩

theorem attempts_append (h : History) (x : State × Event) :
  attempts (h ++ [x]) = attempts h + x.2.isAttempt.toNat
  := by
  rw [attempts, List.countP_append, List.countP_singleton]
  cases x.2.isAttempt <;> rfl

/-- Events that number no attempt leave the invariant to the state alone. -/
theorem Inv.append (hinv : Inv h owner s) (hx : x.2.isAttempt = false) :
  Inv (h ++ [x]) owner s
  := by
  have hattempts : attempts (h ++ [x]) = attempts h := by
    rw [attempts_append, hx]
    rfl
  refine ⟨?_, ?_, hinv.running, hinv.alive, hinv.active, hinv.entering, ?_, hinv.shown.append x⟩
  · rw [hattempts]
    exact hinv.attempt
  · rw [hattempts]
    exact hinv.numbered
  · intro t thread ht
    exact (hinv.fits t thread ht).append x

theorem inv_start :
  Inv [] none {} where
  attempt := rfl
  numbered := ⟨by simp, by simp⟩
  running := rfl
  alive := by simp
  active := by simp
  entering := by simp
  fits := by simp
  shown := by simp [Shown]

/-! ### The steps -/

/-- When every call was there with its attempt, the attempts are numbered as they were. -/
theorem Numbered.of_sub {n : ℕ} (hnumbered : Numbered n s)
    (hsub : ∀ t thread', s'.threads t = some thread' →
      ∃ thread, s.threads t = some thread ∧ thread.authAttempt = thread'.authAttempt) :
  Numbered n s'
  := by
  constructor
  · intro t thread' ht
    obtain ⟨thread, ht, heq⟩ := hsub t thread' ht
    rw [← heq]
    exact hnumbered.le t thread ht
  · intro t u thread₁ thread₂ ht hu heq
    obtain ⟨thread, ht, ht'⟩ := hsub t thread₁ ht
    obtain ⟨thread', hu, hu'⟩ := hsub u thread₂ hu
    apply hnumbered.inj t u thread thread' ht hu
    rw [ht', hu', heq]

/-- A call behind an update of the call `t` is that one or another one. -/
theorem update_eq_some {threads : ℕ → Option Thread} {u : ℕ} {thread' : Thread}
    (hu : Function.update threads t (some thread) u = some thread') :
  (u = t ∧ thread' = thread) ∨ (u ≠ t ∧ threads u = some thread')
  := by
  by_cases hut : u = t
  · subst hut
    rw [Function.update_self] at hu
    exact .inl ⟨rfl, (Option.some.inj hu).symm⟩
  · rw [Function.update_of_ne hut] at hu
    exact .inr ⟨hut, hu⟩

theorem threads_move {phase : Phase} {u : ℕ} {thread' : Thread}
    (hu : (s.move t thread phase).threads u = some thread') :
  (u = t ∧ thread' = { thread with phase }) ∨ (u ≠ t ∧ s.threads u = some thread')
  := update_eq_some hu

theorem Numbered.move {n : ℕ} (hnumbered : Numbered n s) (ht : s.threads t = some thread)
    (phase : Phase) :
  Numbered n (s.move t thread phase)
  := by
  apply hnumbered.of_sub
  intro u thread' hu
  rcases threads_move hu with ⟨rfl, rfl⟩ | ⟨-, hu⟩
  · exact ⟨thread, ht, rfl⟩
  · exact ⟨thread', hu, rfl⟩

/-- A thread of a state where `t` has ended is another one. -/
theorem threads_drop {u : ℕ} {thread' : Thread} (hu : (s.drop t).threads u = some thread') :
  u ≠ t ∧ s.threads u = some thread'
  := by
  change Function.update s.threads t none u = some thread' at hu
  by_cases hut : u = t
  · subst hut
    rw [Function.update_self] at hu
    cases hu
  · rw [Function.update_of_ne hut] at hu
    exact ⟨hut, hu⟩

theorem Numbered.drop {n : ℕ} (hnumbered : Numbered n s) (t : ℕ) :
  Numbered n (s.drop t)
  := by
  apply hnumbered.of_sub
  intro u thread' hu
  exact ⟨thread', (threads_drop hu).2, rfl⟩

/-- The task under way goes on to another phase, and may change what is shown. -/
theorem Inv.move (hinv : Inv h owner s) (ht : s.threads t = some thread)
    (hactive : thread.phase.active = true) {phase : Phase} (hphase : phase.active = true)
    {session : OidcSession} (config : LocalConfig)
    (hattempt : session.authAttempt = s.session.authAttempt)
    (hrunning : session.running = s.session.running) (hfits : phase.Fits h session)
    (hshown : Shown h session) :
  Inv h owner ({ s with session, config }.move t thread phase)
  := by
  have howner := (hinv.active t thread ht).mp hactive
  constructor
  · exact hattempt.trans hinv.attempt
  · have hnumbered : Numbered (attempts h) { s with session, config } :=
      ⟨hinv.numbered.le, hinv.numbered.inj⟩
    exact hnumbered.move ht phase
  · exact hrunning.trans hinv.running
  · intro u hu
    obtain rfl : u = t := Option.some.inj (hu.symm.trans howner)
    exact ⟨_, Function.update_self ..⟩
  · intro u thread' hu
    rcases threads_move hu with ⟨rfl, rfl⟩ | ⟨-, hu⟩
    · exact ⟨fun _ => howner, fun _ => hphase⟩
    · exact hinv.active u thread' hu
  · intro u thread' hu hentering hcurrent
    rcases threads_move hu with ⟨rfl, rfl⟩ | ⟨-, hu⟩
    · rw [show phase = .entering from hentering] at hphase
      cases hphase
    · exact hinv.entering u thread' hu hentering (hcurrent.trans hattempt)
  · intro u thread' hu
    rcases threads_move hu with ⟨rfl, rfl⟩ | ⟨hut, hu⟩
    · exact hfits
    · apply Phase.fits_of_not_active
      by_contra hother
      have hu' := (hinv.active u thread' hu).mp (by simpa using hother)
      exact hut (Option.some.inj (hu'.symm.trans howner))
  · exact hshown

/-- The task under way goes on and changes nothing that is shown. -/
theorem Inv.advance (hinv : Inv h owner s) (ht : s.threads t = some thread)
    (hactive : thread.phase.active = true) {phase : Phase} (hphase : phase.active = true)
    (hfits : phase.Fits h s.session) :
  Inv h owner (s.move t thread phase)
  := hinv.move ht hactive hphase s.config rfl rfl hfits hinv.shown

/-- A call has seen that no task is under way. -/
theorem Inv.stopWaiting (hinv : Inv h owner s) (ht : s.threads t = some thread)
    (hrunning : s.session.running = false) :
  Inv h owner (s.move t thread .entering)
  := by
  have howner : owner = none := by
    rw [← Option.isNone_iff_eq_none, ← Option.not_isSome, ← hinv.running, hrunning]
    rfl
  subst howner
  refine ⟨hinv.attempt, hinv.numbered.move ht _, hinv.running, by simp, ?_, fun _ _ _ _ _ => rfl,
    ?_, hinv.shown⟩
  · intro u thread' hu
    rcases threads_move hu with ⟨rfl, rfl⟩ | ⟨-, hu⟩
    · simp [Phase.active]
    · exact hinv.active u thread' hu
  · intro u thread' hu
    rcases threads_move hu with ⟨rfl, rfl⟩ | ⟨-, hu⟩
    · trivial
    · exact hinv.fits u thread' hu

/-- A call that may rely on what it has seen begins its task. -/
theorem Inv.enter (hinv : Inv h owner s) (ht : s.threads t = some thread)
    (hentering : thread.phase = .entering) (hcurrent : s.isCurrent thread = true) :
  Inv h (some t) ({ s with session := s.session.beforeTask }.move t thread .requesting)
  := by
  have hattempt : thread.authAttempt = s.session.authAttempt := (of_decide_eq_true hcurrent).symm
  obtain rfl := hinv.entering t thread ht hentering hattempt
  constructor
  · exact hinv.attempt
  · have hnumbered : Numbered (attempts h) { s with session := s.session.beforeTask } :=
      ⟨hinv.numbered.le, hinv.numbered.inj⟩
    exact hnumbered.move ht _
  · rfl
  · intro u hu
    obtain rfl := Option.some.inj hu
    exact ⟨_, Function.update_self ..⟩
  · intro u thread' hu
    rcases threads_move hu with ⟨rfl, rfl⟩ | ⟨hut, hu⟩
    · simp [Phase.active]
    · have hinactive := hinv.active u thread' hu
      simp only [reduceCtorEq, iff_false] at hinactive
      simp [hinactive, Ne.symm hut]
  · intro u thread' hu hentering' hcurrent'
    rcases threads_move hu with ⟨rfl, rfl⟩ | ⟨hut, hu⟩
    · cases hentering'
    · -- another call would have the same attempt
      exact (hut (hinv.numbered.inj u t thread' thread hu ht (hcurrent'.trans hattempt.symm))).elim
  · intro u thread' hu
    rcases threads_move hu with ⟨rfl, rfl⟩ | ⟨-, hu⟩
    · exact ⟨rfl, rfl⟩
    · apply Phase.fits_of_not_active
      have hinactive := hinv.active u thread' hu
      simpa using hinactive
  · intro authBody hbody
    cases hbody

/-- A call whose attempt is not the current one ends without a task. -/
theorem Inv.leave (hinv : Inv h owner s) (ht : s.threads t = some thread)
    (hentering : thread.phase = .entering) :
  Inv h owner (s.drop t)
  := by
  refine ⟨hinv.attempt, hinv.numbered.drop t, hinv.running, ?_, ?_, ?_, ?_, hinv.shown⟩
  · intro u hu
    have hut : u ≠ t := by
      rintro rfl
      have hactive := (hinv.active u thread ht).mpr hu
      rw [hentering] at hactive
      cases hactive
    obtain ⟨thread', hu'⟩ := hinv.alive u hu
    exact ⟨thread', (Function.update_of_ne hut ..).trans hu'⟩
  · intro u thread' hu
    exact hinv.active u thread' (threads_drop hu).2
  · intro u thread' hu
    exact hinv.entering u thread' (threads_drop hu).2
  · intro u thread' hu
    exact hinv.fits u thread' (threads_drop hu).2

/-- The task ends. -/
theorem Inv.finish (hinv : Inv h owner s) (ht : s.threads t = some thread)
    (hreturned : thread.phase = .returned) :
  Inv h none ({ s with session := s.session.afterTask }.drop t)
  := by
  have howner : owner = some t := by
    apply (hinv.active t thread ht).mp
    rw [hreturned]
    rfl
  have hothers : ∀ u thread', u ≠ t → s.threads u = some thread' →
      thread'.phase.active = false := by
    intro u thread' hut hu
    by_contra hother
    have hu' := (hinv.active u thread' hu).mp (by simpa using hother)
    exact hut (Option.some.inj (hu'.symm.trans howner))
  refine ⟨hinv.attempt, ?_, rfl, by simp, ?_, fun _ _ _ _ _ => rfl, ?_, hinv.shown⟩
  · have hnumbered : Numbered (attempts h) { s with session := s.session.afterTask } :=
      ⟨hinv.numbered.le, hinv.numbered.inj⟩
    exact hnumbered.drop t
  · intro u thread' hu
    obtain ⟨hut, hu⟩ := threads_drop hu
    simp [hothers u thread' hut hu]
  · intro u thread' hu
    obtain ⟨hut, hu⟩ := threads_drop hu
    exact Phase.fits_of_not_active (hothers u thread' hut hu) _

theorem nextAuthAttempt_eq (hinv : Inv h owner s) (hbound : attempts h + 1 < 2 ^ 64) :
  s.session.nextAuthAttempt = { s.session with authAttempt := attempts h + 1 }
  := by
  rw [OidcSession.nextAuthAttempt, hinv.attempt, Nat.mod_eq_of_lt hbound]

/-- A cancellation takes a number that no call has. -/
theorem Inv.cancel (hinv : Inv h owner s) (hbound : attempts h + 1 < 2 ^ 64)
    (hx : x.2 = .authCancel) :
  Inv (h ++ [x]) owner { s with session := s.session.nextAuthAttempt }
  := by
  have hattempts : attempts (h ++ [x]) = attempts h + 1 := by
    rw [attempts_append, hx]
    rfl
  rw [nextAuthAttempt_eq hinv hbound]
  refine ⟨hattempts.symm, ⟨?_, hinv.numbered.inj⟩, hinv.running, hinv.alive, hinv.active, ?_, ?_,
    hinv.shown.append x⟩
  · intro u thread' hu
    have hle := hinv.numbered.le u thread' hu
    omega
  · intro u thread' hu _ hcurrent
    have hle := hinv.numbered.le u thread' hu
    change thread'.authAttempt = attempts h + 1 at hcurrent
    omega
  · intro u thread' hu
    exact (hinv.fits u thread' hu).append x

/-- A new call takes a number that no other call has. -/
theorem Inv.start (hinv : Inv h owner s) (hbound : attempts h + 1 < 2 ^ 64)
    (hfree : s.threads t = none) {rememberMe : Bool} (hx : x.2 = .accountAuth t rememberMe) :
  Inv (h ++ [x]) owner
    { s with
      session := s.session.nextAuthAttempt
      threads := Function.update s.threads t (some
        { authAttempt := s.session.nextAuthAttempt.authAttempt, rememberMe, phase := .waiting }) }
  := by
  have hattempts : attempts (h ++ [x]) = attempts h + 1 := by
    rw [attempts_append, hx]
    rfl
  rw [nextAuthAttempt_eq hinv hbound]
  refine ⟨hattempts.symm, ⟨?_, ?_⟩, hinv.running, ?_, ?_, ?_, ?_, hinv.shown.append x⟩
  · intro u thread' hu
    rw [hattempts]
    rcases update_eq_some hu with ⟨-, rfl⟩ | ⟨-, hu⟩
    · exact le_refl _
    · exact (hinv.numbered.le u thread' hu).trans (Nat.le_succ _)
  · intro u v thread₁ thread₂ hu hv heq
    rcases update_eq_some hu with ⟨rfl, rfl⟩ | ⟨-, hu'⟩
    · rcases update_eq_some hv with ⟨rfl, -⟩ | ⟨-, hv'⟩
      · rfl
      · have hle := hinv.numbered.le v thread₂ hv'
        exact (Nat.not_succ_le_self _ (heq.le.trans hle)).elim
    · rcases update_eq_some hv with ⟨rfl, rfl⟩ | ⟨-, hv'⟩
      · have hle := hinv.numbered.le u thread₁ hu'
        exact (Nat.not_succ_le_self _ (heq.symm.le.trans hle)).elim
      · exact hinv.numbered.inj u v thread₁ thread₂ hu' hv' heq
  · intro u hu
    obtain ⟨thread', hu'⟩ := hinv.alive u hu
    have hut : u ≠ t := by
      rintro rfl
      rw [hfree] at hu'
      cases hu'
    exact ⟨thread', (Function.update_of_ne hut ..).trans hu'⟩
  · intro u thread' hu
    rcases update_eq_some hu with ⟨rfl, rfl⟩ | ⟨-, hu⟩
    · constructor
      · intro hactive
        cases hactive
      · intro howner
        obtain ⟨thread', hu'⟩ := hinv.alive u howner
        rw [hfree] at hu'
        cases hu'
    · exact hinv.active u thread' hu
  · intro u thread' hu hentering hcurrent
    rcases update_eq_some hu with ⟨rfl, rfl⟩ | ⟨-, hu⟩
    · cases hentering
    · have hle := hinv.numbered.le u thread' hu
      change thread'.authAttempt = attempts h + 1 at hcurrent
      omega
  · intro u thread' hu
    rcases update_eq_some hu with ⟨rfl, rfl⟩ | ⟨-, hu⟩
    · trivial
    · exact (hinv.fits u thread' hu).append x

theorem afterAuth_spec (response : Response OidcAuthUrl) {session : OidcSession}
    (hcode : session.codeUrl = none) (hbody : session.authBody = none) :
  (afterAuth response).active = true ∧ (afterAuth response).Fits h session
  := by
  rcases response with err | (_ | err | _ | codeUrl)
  · exact ⟨rfl, trivial⟩
  · exact ⟨rfl, trivial⟩
  · exact ⟨rfl, trivial⟩
  · exact ⟨rfl, trivial⟩
  · exact ⟨rfl, hcode, hbody⟩

theorem afterQuery_spec {codeUrl : OidcAuthUrl} {response : Response AuthBody}
    {session : OidcSession} (hfits : (Phase.queried codeUrl response).Fits h session) :
  (afterQuery codeUrl response).active = true ∧ (afterQuery codeUrl response).Fits h session
  := by
  obtain ⟨hcode, hbody, hanswer⟩ := hfits
  rcases response with err | (_ | err | _ | authBody)
  · exact ⟨rfl, hcode, hbody⟩
  · exact ⟨rfl, hcode, hbody⟩
  · rw [afterQuery]
    cases noAuthed err with
    | true => exact ⟨rfl, hcode, hbody⟩
    | false => exact ⟨rfl, trivial⟩
  · exact ⟨rfl, hcode, hbody⟩
  · exact ⟨rfl, hcode, hbody, hanswer authBody rfl⟩

/-- A step of a call keeps the invariant. -/
theorem Inv.run (hinv : Inv h owner s) (ht : s.threads t = some thread)
    (hrun : s.run t thread = some s') :
  ∃ owner', Inv h owner' s'
  := by
  have hfits := hinv.fits t thread ht
  rw [State.run] at hrun
  cases hphase : thread.phase with
  | waiting =>
      rw [hphase] at hrun
      dsimp only at hrun
      split_ifs at hrun with hrunning
      · exact ⟨owner, by rwa [← Option.some.inj hrun]⟩
      · obtain rfl := Option.some.inj hrun
        exact ⟨owner, hinv.stopWaiting ht (by simpa using hrunning)⟩
  | entering =>
      rw [hphase] at hrun
      dsimp only at hrun
      split_ifs at hrun with hcurrent
      · obtain rfl := Option.some.inj hrun
        exact ⟨some t, hinv.enter ht hphase hcurrent⟩
      · obtain rfl := Option.some.inj hrun
        exact ⟨owner, hinv.leave ht hphase⟩
  | requested response =>
      rw [hphase] at hrun hfits
      dsimp only at hrun
      have hspec := afterAuth_spec (h := h) response hfits.1 hfits.2
      split_ifs at hrun
      · obtain rfl := Option.some.inj hrun
        exact ⟨owner, hinv.advance ht (by rw [hphase]; rfl) hspec.1 hspec.2⟩
      · obtain rfl := Option.some.inj hrun
        exact ⟨owner, hinv.advance ht (by rw [hphase]; rfl) rfl trivial⟩
  | publishing codeUrl =>
      rw [hphase] at hrun hfits
      dsimp only at hrun
      split_ifs at hrun
      · obtain rfl := Option.some.inj hrun
        refine ⟨owner, hinv.move ht (by rw [hphase]; rfl) rfl s.config rfl rfl ⟨rfl, hfits.2⟩ ?_⟩
        intro authBody hbody
        cases hbody.symm.trans hfits.2
      · obtain rfl := Option.some.inj hrun
        exact ⟨owner, hinv.advance ht (by rw [hphase]; rfl) rfl trivial⟩
  | queried codeUrl response =>
      rw [hphase] at hrun hfits
      dsimp only at hrun
      have hspec := afterQuery_spec hfits
      split_ifs at hrun
      · obtain rfl := Option.some.inj hrun
        exact ⟨owner, hinv.advance ht (by rw [hphase]; rfl) hspec.1 hspec.2⟩
      · obtain rfl := Option.some.inj hrun
        exact ⟨owner, hinv.advance ht (by rw [hphase]; rfl) rfl trivial⟩
  | storing codeUrl authBody =>
      rw [hphase] at hrun hfits
      dsimp only at hrun
      obtain ⟨hcode, -, hanswered⟩ := hfits
      split_ifs at hrun
      · obtain rfl := Option.some.inj hrun
        refine ⟨owner, hinv.move ht (by rw [hphase]; rfl) rfl _ rfl rfl trivial ?_⟩
        intro authBody' hbody
        obtain rfl := Option.some.inj hbody
        exact ⟨codeUrl, hcode, hanswered⟩
      · obtain rfl := Option.some.inj hrun
        exact ⟨owner, hinv.advance ht (by rw [hphase]; rfl) rfl trivial⟩
  | settingState stateMsg failedMsg =>
      rw [hphase] at hrun
      dsimp only at hrun
      split_ifs at hrun
      · obtain rfl := Option.some.inj hrun
        exact ⟨owner, hinv.move ht (by rw [hphase]; rfl) rfl s.config rfl rfl trivial hinv.shown⟩
      · obtain rfl := Option.some.inj hrun
        exact ⟨owner, hinv.advance ht (by rw [hphase]; rfl) rfl trivial⟩
  | returned =>
      rw [hphase] at hrun
      obtain rfl := Option.some.inj hrun
      exact ⟨none, hinv.finish ht hphase⟩
  | requesting =>
      rw [hphase] at hrun
      cases hrun
  | looping codeUrl =>
      rw [hphase] at hrun
      cases hrun
  | querying codeUrl =>
      rw [hphase] at hrun
      cases hrun
  | exited =>
      rw [hphase] at hrun
      cases hrun

/-- Every event keeps the invariant, as long as the numbers of the attempts do not come round. -/
theorem Inv.step {e : Event} (hinv : Inv h owner s)
    (hbound : attempts (h ++ [(s, e)]) < 2 ^ 64) (hstep : Step s e s') :
  ∃ owner', Inv (h ++ [(s, e)]) owner' s'
  := by
  rw [attempts_append] at hbound
  cases e with
  | accountAuth t rememberMe =>
      rw [Step, State.step] at hstep
      split_ifs at hstep with hfree
      obtain rfl := Option.some.inj hstep
      exact ⟨owner, hinv.start hbound hfree rfl⟩
  | authCancel =>
      obtain rfl := Option.some.inj hstep
      exact ⟨owner, hinv.cancel hbound rfl⟩
  | run t =>
      obtain ⟨thread, ht, hrun⟩ := Option.bind_eq_some_iff.mp hstep
      obtain ⟨owner', hinv'⟩ := hinv.run ht hrun
      exact ⟨owner', hinv'.append rfl⟩
  | authResponse t response =>
      obtain ⟨thread, ht, hmove⟩ := Option.bind_eq_some_iff.mp hstep
      have hfits := hinv.fits t thread ht
      cases hphase : thread.phase with
      | requesting =>
          rw [hphase] at hmove hfits
          obtain rfl := Option.some.inj hmove
          have hmoved : Inv h owner (s.move t thread (.requested response)) :=
            hinv.advance ht (by rw [hphase]; rfl) rfl hfits
          exact ⟨owner, hmoved.append rfl⟩
      | _ =>
          rw [hphase] at hmove
          cases hmove
  | queryResponse t response =>
      obtain ⟨thread, ht, hmove⟩ := Option.bind_eq_some_iff.mp hstep
      have hfits := hinv.fits t thread ht
      cases hphase : thread.phase with
      | querying codeUrl =>
          rw [hphase] at hmove hfits
          obtain rfl := Option.some.inj hmove
          have happend : Inv (h ++ [(s, .queryResponse t response)]) owner s := hinv.append rfl
          refine ⟨owner, happend.advance ht (by rw [hphase]; rfl) rfl ⟨hfits.1, hfits.2, ?_⟩⟩
          rintro authBody rfl
          exact ⟨_, List.mem_append_right _ (List.mem_singleton_self _), t, thread, rfl, ht, hphase⟩
      | _ =>
          rw [hphase] at hmove
          cases hmove
  | clock t expired =>
      obtain ⟨thread, ht, hmove⟩ := Option.bind_eq_some_iff.mp hstep
      have hfits := hinv.fits t thread ht
      cases hphase : thread.phase with
      | looping codeUrl =>
          rw [hphase] at hmove hfits
          dsimp only at hmove
          split_ifs at hmove
          · obtain rfl := Option.some.inj hmove
            have hmoved : Inv h owner (s.move t thread (.querying codeUrl)) :=
              hinv.advance ht (by rw [hphase]; rfl) rfl hfits
            exact ⟨owner, hmoved.append rfl⟩
          · obtain rfl := Option.some.inj hmove
            have hmoved : Inv h owner (s.move t thread .exited) :=
              hinv.advance ht (by rw [hphase]; rfl) rfl trivial
            exact ⟨owner, hmoved.append rfl⟩
      | exited =>
          rw [hphase] at hmove
          dsimp only at hmove
          split_ifs at hmove
          · obtain rfl := Option.some.inj hmove
            have hmoved :
                Inv h owner (s.move t thread (.settingState WAITING_ACCOUNT_AUTH "timeout")) :=
              hinv.advance ht (by rw [hphase]; rfl) rfl trivial
            exact ⟨owner, hmoved.append rfl⟩
          · obtain rfl := Option.some.inj hmove
            have hmoved : Inv h owner (s.move t thread .returned) :=
              hinv.advance ht (by rw [hphase]; rfl) rfl trivial
            exact ⟨owner, hmoved.append rfl⟩
      | _ =>
          rw [hphase] at hmove
          cases hmove

/-- Every state of a run has the invariant, as long as the numbers do not come round. -/
theorem inv_of_run (hrun : Run Step {} h s) (hbound : attempts h < 2 ^ 64) :
  ∃ owner, Inv h owner s
  := by
  revert hbound
  apply hrun.history_invariant fun h s => attempts h < 2 ^ 64 → ∃ owner, Inv h owner s
  · intro _
    exact ⟨none, inv_start⟩
  · rintro h s e s' - ih hstep hbound
    have hprefix : attempts h < 2 ^ 64 := by
      rw [attempts_append] at hbound
      omega
    obtain ⟨owner, hinv⟩ := ih hprefix
    exact hinv.step hbound hstep

/-- In any order of the steps, `running` says whether a task is under way and no two are, and what
`get_result` shows of an answer was answered for the page that it shows. -/
theorem consistent_of_run (hrun : Run Step {} h s) (hbound : attempts h < 2 ^ 64) :
  (s.session.running = true ↔ ∃ t thread, s.threads t = some thread ∧ thread.phase.active = true) ∧
    (∀ t u thread thread', s.threads t = some thread → s.threads u = some thread' →
      thread.phase.active = true → thread'.phase.active = true → t = u) ∧
    ∀ authBody, s.session.authBody = some authBody →
      ∃ codeUrl, s.session.codeUrl = some codeUrl ∧ Answered h codeUrl authBody
  := by
  obtain ⟨owner, hinv⟩ := inv_of_run hrun hbound
  refine ⟨?_, ?_, hinv.shown⟩
  · rw [hinv.running, Option.isSome_iff_exists]
    constructor
    · rintro ⟨t, howner⟩
      obtain ⟨thread, ht⟩ := hinv.alive t howner
      exact ⟨t, thread, ht, (hinv.active t thread ht).mpr howner⟩
    · rintro ⟨t, thread, ht, hactive⟩
      exact ⟨t, (hinv.active t thread ht).mp hactive⟩
  · intro t u thread thread' ht hu hactive hactive'
    have hboth := ((hinv.active t thread ht).mp hactive).symm.trans
      ((hinv.active u thread' hu).mp hactive')
    exact Option.some.inj hboth

def sampleCodeUrl : OidcAuthUrl where
  code := "c1"
  url := "https://example.com/login"

def sampleBody : AuthBody where
  accessToken := "t1"
  type := "access_token"
  tfaType := ""
  secret := ""
  user := { name := "ann", displayName := none, avatar := none, status := 1 }

/-- A call up to its first query. -/
def sampleEvents : List Event :=
  [.accountAuth 1 true, .run 1, .run 1, .authResponse 1 (.ok (.data sampleCodeUrl)), .run 1,
    .run 1, .clock 1 false]

theorem consistent_of_run_sample :
  ∃ h s, Run Step {} h s ∧ s.session.authBody = some sampleBody ∧
    ∃ codeUrl, s.session.codeUrl = some codeUrl ∧ Answered h codeUrl sampleBody
  := by
  obtain ⟨h, s, hrun, htest⟩ := Run.exists_of_traceM State.step {}
    (sampleEvents ++ [.queryResponse 1 (.ok (.data sampleBody)), .run 1, .run 1])
    (fun h s => attempts h < 2 ^ 64 ∧ s.session.authBody = some sampleBody) (by decide +kernel)
  obtain ⟨hbound, hbody⟩ := of_decide_eq_true htest
  obtain ⟨-, -, hshown⟩ := consistent_of_run hrun hbound
  exact ⟨h, s, hrun, hbody, hshown sampleBody hbody⟩

/-! ### After a cancellation -/

/-- Nothing that is shown or stored has changed since `s₀`, and no call can change it: the attempts
of all are over, except that of `newest`, which still waits. -/
structure Frozen (newest : Option ℕ) (s₀ s : State) : Prop where
  result : s.session.getResult = s₀.session.getResult
  config : s.config = s₀.config
  stale : ∀ t thread, s.threads t = some thread →
    thread.authAttempt < s.session.authAttempt ∨ (newest = some t ∧ thread.phase = .waiting)

variable {newest : Option ℕ} {s₀ : State}

theorem Frozen.over (hfrozen : Frozen newest s₀ s) (ht : s.threads t = some thread)
    (hnot : newest ≠ some t ∨ thread.phase ≠ .waiting) :
  thread.authAttempt < s.session.authAttempt
  := by
  rcases hfrozen.stale t thread ht with hover | ⟨hnewest, hwaiting⟩
  · exact hover
  · rcases hnot with hnot | hnot
    · exact (hnot hnewest).elim
    · exact (hnot hwaiting).elim

/-- A call whose attempt is over goes on or ends. -/
theorem Frozen.of_threads (hfrozen : Frozen newest s₀ s)
    (hover : thread.authAttempt < s.session.authAttempt) (t : ℕ) {session : OidcSession}
    (hresult : session.getResult = s.session.getResult)
    (hattempt : session.authAttempt = s.session.authAttempt) (phase : Phase) :
  Frozen newest s₀ ({ s with session }.move t thread phase) ∧
    Frozen newest s₀ ({ s with session }.drop t)
  := by
  constructor
  · refine ⟨hresult.trans hfrozen.result, hfrozen.config, ?_⟩
    intro u thread' hu
    change _ < session.authAttempt ∨ _
    rw [hattempt]
    rcases threads_move hu with ⟨rfl, rfl⟩ | ⟨-, hu'⟩
    · exact .inl hover
    · exact hfrozen.stale u thread' hu'
  · refine ⟨hresult.trans hfrozen.result, hfrozen.config, ?_⟩
    intro u thread' hu
    change _ < session.authAttempt ∨ _
    rw [hattempt]
    exact hfrozen.stale u thread' (threads_drop hu).2

/-- A step of a call whose attempt is over changes nothing that is shown or stored. -/
theorem Frozen.run (hfrozen : Frozen newest s₀ s) (ht : s.threads t = some thread)
    (hnewest : newest ≠ some t) (hrun : s.run t thread = some s') :
  Frozen newest s₀ s'
  := by
  have hover := hfrozen.over ht (.inl hnewest)
  have hmoves := hfrozen.of_threads hover t rfl rfl
  have hcurrent : s.isCurrent thread = false := decide_eq_false hover.ne'
  rw [State.run] at hrun
  cases hphase : thread.phase with
  | waiting =>
      rw [hphase] at hrun
      dsimp only at hrun
      split_ifs at hrun
      · rwa [← Option.some.inj hrun]
      · rw [← Option.some.inj hrun]
        exact (hmoves _).1
  | entering =>
      rw [hphase] at hrun
      dsimp only at hrun
      rw [hcurrent] at hrun
      rw [← Option.some.inj hrun]
      exact (hmoves .returned).2
  | returned =>
      rw [hphase] at hrun
      rw [← Option.some.inj hrun]
      have hsession : s.session.afterTask.getResult = s.session.getResult := rfl
      exact (hfrozen.of_threads hover t hsession rfl .returned).2
  | requesting =>
      rw [hphase] at hrun
      cases hrun
  | looping codeUrl =>
      rw [hphase] at hrun
      cases hrun
  | querying codeUrl =>
      rw [hphase] at hrun
      cases hrun
  | exited =>
      rw [hphase] at hrun
      cases hrun
  | _ =>
      -- the task finds that its attempt is over, and returns
      rw [hphase] at hrun
      dsimp only at hrun
      rw [hcurrent] at hrun
      rw [← Option.some.inj hrun]
      exact (hmoves .returned).1

/-- The call of an event that starts one. -/
def Event.started : Event → Option ℕ
  | .accountAuth t _ => some t
  | _ => none

theorem Frozen.step {e : Event} (hfrozen : Frozen newest s₀ s)
    (hbound : e = .authCancel → s.session.authAttempt + 1 < 2 ^ 64) (hstart : e.started = none)
    (hnewest : ∀ t, newest = some t → e ≠ .run t) (hstep : Step s e s') :
  Frozen newest s₀ s'
  := by
  cases e with
  | accountAuth t rememberMe => cases hstart
  | authCancel =>
      obtain rfl := Option.some.inj hstep
      refine ⟨hfrozen.result, hfrozen.config, ?_⟩
      intro t thread ht
      change _ < (s.session.authAttempt + 1) % 2 ^ 64 ∨ _
      rw [Nat.mod_eq_of_lt (hbound rfl)]
      exact (hfrozen.stale t thread ht).imp_left (fun hlt => hlt.trans (Nat.lt_succ_self _))
  | run t =>
      obtain ⟨thread, ht, hrun⟩ := Option.bind_eq_some_iff.mp hstep
      exact hfrozen.run ht (fun heq => hnewest t heq rfl) hrun
  | authResponse t response =>
      obtain ⟨thread, ht, hmove⟩ := Option.bind_eq_some_iff.mp hstep
      cases hphase : thread.phase with
      | requesting =>
          have hover := hfrozen.over ht (.inr (by rw [hphase]; simp))
          rw [hphase] at hmove
          rw [← Option.some.inj hmove]
          exact (hfrozen.of_threads hover t rfl rfl _).1
      | _ =>
          rw [hphase] at hmove
          cases hmove
  | queryResponse t response =>
      obtain ⟨thread, ht, hmove⟩ := Option.bind_eq_some_iff.mp hstep
      cases hphase : thread.phase with
      | querying codeUrl =>
          have hover := hfrozen.over ht (.inr (by rw [hphase]; simp))
          rw [hphase] at hmove
          rw [← Option.some.inj hmove]
          exact (hfrozen.of_threads hover t rfl rfl _).1
      | _ =>
          rw [hphase] at hmove
          cases hmove
  | clock t expired =>
      obtain ⟨thread, ht, hmove⟩ := Option.bind_eq_some_iff.mp hstep
      cases hphase : thread.phase with
      | looping codeUrl =>
          have hover := hfrozen.over ht (.inr (by rw [hphase]; simp))
          rw [hphase] at hmove
          dsimp only at hmove
          split_ifs at hmove <;> rw [← Option.some.inj hmove] <;>
            exact (hfrozen.of_threads hover t rfl rfl _).1
      | exited =>
          have hover := hfrozen.over ht (.inr (by rw [hphase]; simp))
          rw [hphase] at hmove
          dsimp only at hmove
          split_ifs at hmove <;> rw [← Option.some.inj hmove] <;>
            exact (hfrozen.of_threads hover t rfl rfl _).1
      | _ =>
          rw [hphase] at hmove
          cases hmove

/-- An event that takes a number freezes what is shown and stored. -/
theorem Inv.frozen {e : Event} (hinv : Inv h owner s) (hbound : attempts h + 1 < 2 ^ 64)
    (he : e.isAttempt = true) (hstep : Step s e s') :
  Frozen e.started s s'
  := by
  cases e with
  | accountAuth t rememberMe =>
      rw [Step, State.step] at hstep
      split_ifs at hstep with hfree
      obtain rfl := Option.some.inj hstep
      rw [nextAuthAttempt_eq hinv hbound]
      refine ⟨rfl, rfl, ?_⟩
      intro u thread hu
      rcases update_eq_some hu with ⟨rfl, rfl⟩ | ⟨-, hu'⟩
      · exact .inr ⟨rfl, rfl⟩
      · exact .inl (Nat.lt_succ_of_le (hinv.numbered.le u thread hu'))
  | authCancel =>
      obtain rfl := Option.some.inj hstep
      rw [nextAuthAttempt_eq hinv hbound]
      refine ⟨rfl, rfl, ?_⟩
      intro u thread hu
      exact .inl (Nat.lt_succ_of_le (hinv.numbered.le u thread hu))
  | _ => cases he

theorem attempts_le_of_append (h h' : History) :
  attempts h ≤ attempts (h ++ h')
  := by
  rw [attempts, attempts, List.countP_append]
  exact Nat.le_add_right _ _

/-- After `auth_cancel` what `get_result` returns and what is stored stays the same until
`account_auth` is called, and after a call of `account_auth` until that call goes on, whatever the
tasks of earlier calls do. -/
theorem unchanged_after_attempt {before after : History} {x : State × Event}
    (hrun : Run Step {} (before ++ x :: after) s)
    (hbound : attempts (before ++ x :: after) < 2 ^ 64)
    (hx : x.2.isAttempt = true) (hstart : ∀ y ∈ after, y.2.started = none)
    (hnewest : ∀ y ∈ after, ∀ t, x.2.started = some t → y.2 ≠ .run t) :
  s.session.getResult = x.1.session.getResult ∧ s.config = x.1.config
  := by
  have hfrozen : Frozen x.2.started x.1 s := by
    apply (hrun.after (Frozen x.2.started x.1) _ _).2
    · intro s' hstep
      obtain ⟨hbefore, -⟩ := hrun.before
      have hcount : attempts before + 1 ≤ attempts (before ++ x :: after) := by
        have hle := attempts_le_of_append (before ++ [x]) after
        rw [attempts_append, hx, List.append_assoc] at hle
        exact hle
      obtain ⟨owner, hinv⟩ := inv_of_run hbefore (by omega)
      exact hinv.frozen (by omega) hx hstep
    · intro y hy s' hfrozen hstep
      apply hfrozen.step _ (hstart y hy) (hnewest y hy) hstep
      intro hcancel
      obtain ⟨after₁, after₂, rfl⟩ := List.append_of_mem hy
      have hsplit : before ++ x :: (after₁ ++ y :: after₂) =
          (before ++ x :: after₁) ++ y :: after₂ := by
        simp
      rw [hsplit] at hrun hbound
      have hcount := attempts_le_of_append ((before ++ x :: after₁) ++ [y]) after₂
      rw [attempts_append, hcancel, List.append_assoc, List.singleton_append] at hcount
      change attempts (before ++ x :: after₁) + 1 ≤ _ at hcount
      obtain ⟨owner, hinv⟩ := inv_of_run hrun.before.1 (by omega)
      rw [hinv.attempt]
      omega
  exact ⟨hfrozen.result, hfrozen.config⟩

theorem unchanged_after_attempt_sample :
  ∃ h s, Run Step {} h s ∧ h.length = 11 ∧ s.session.authBody = none ∧ s.config = {}
  := by
  obtain ⟨h, s, hrun, htest⟩ := Run.exists_of_traceM State.step {}
    (sampleEvents ++
      [.authCancel, .queryResponse 1 (.ok (.data sampleBody)), .run 1, .run 1])
    (fun h _ => h.length = 11 ∧ attempts h < 2 ^ 64 ∧ (h.drop 7).length = 4 ∧
      (∀ x ∈ (h.drop 7).take 1, x.2 = .authCancel ∧ x.1.session.authBody = none ∧
        x.1.config = {}) ∧
      ∀ y ∈ (h.drop 7).drop 1, y.2.started = none) (by decide +kernel)
  obtain ⟨hlength, hbound, hrest, hcancel, hstart⟩ := of_decide_eq_true htest
  obtain ⟨x, after, hdrop⟩ := List.exists_cons_of_length_pos (l := h.drop 7) (by omega)
  have hsplit : h = h.take 7 ++ x :: after := by
    rw [← hdrop, List.take_append_drop]
  rw [hdrop] at hcancel hstart
  obtain ⟨hx, hbody, hconfig⟩ := hcancel x (by simp)
  rw [hsplit] at hrun hbound
  obtain ⟨hresult, hconfig'⟩ := unchanged_after_attempt hrun hbound (by rw [hx]; rfl)
    (fun y hy => hstart y (by simpa using hy)) (by
      intro y _ t ht
      rw [hx] at ht
      cases ht)
  refine ⟨h, s, ?_, hlength, ?_, hconfig'.trans hconfig⟩
  · rwa [← hsplit] at hrun
  · have hshown := congrArg (fun r => r.2.2.2) hresult
    exact hshown.trans hbody

end VynxDesk.Account
