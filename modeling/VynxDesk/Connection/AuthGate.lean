import VynxDesk.Connection.Logon

/-!
# The authorization gate

When does a connection become authorized?  `Gate` is what holds of a connection that is still
waiting, together with the history of the loop: who has logged in, with a valid password or
not, and whether the second factor is still required.  It is kept by every turn of the loop,
and each of the five ways into `send_logon_response_and_keep_alive` is judged by it.
-/

namespace VynxDesk

/-! ### Histories -/

/-- The turns of the loop so far, each the state it started in, its environment and its event. -/
abbrev History := List (Loop × Env × Event)

/-- The event is a login request. -/
def Event.IsLoginRequest (ev : Event) : Prop :=
  ∃ lr, ev = .message (some (.loginRequest lr))

/-- The last login request of the history is `lr`, handled in the state `x` and the
environment `e`. -/
def LastLogin (hist : History) (x : Loop) (e : Env) (lr : LoginRequest) : Prop :=
  ∃ pre post, hist = pre ++ (x, e, .message (some (.loginRequest lr))) :: post
    ∧ ∀ y ∈ post, ¬ Event.IsLoginRequest y.2.2

/-- Some login request of the history matched a trusted device. -/
def TrustedDeviceMatched (hist : History) : Prop :=
  ∃ y ∈ hist, ∃ lr, y.2.2 = .message (some (.loginRequest lr))
    ∧ Conn.matchesTrustedDevice y.2.1 lr = true

/-- Some code of the second factor was accepted in the history. -/
def TotpAccepted (hist : History) : Prop :=
  ∃ y ∈ hist, ∃ tfa, y.2.2 = .message (some (.auth2fa tfa))
    ∧ y.1.conn.auth.awaiting2fa = true ∧ y.2.1.totpCheck tfa.code = some true

/-- The password of the request is valid and the login does not wait for a click. -/
def PasswordValidated (h : Host) (e : Env) (c : Conn) (lr : LoginRequest) : Prop :=
  Conn.needsClick h e = false
    ∧ (c.withAuth fun a => { a with lr := lr }).passwordValid h e = true

/-- The session table holds a recent session of the peer that has completed the second
factor. -/
def recent2faSession (e : Env) (lr : LoginRequest) : Bool :=
  match e.session true with
  | some session => !lr.password.isEmpty && session.tfa
  | none => false

theorem LastLogin.snoc {hist : History} {x : Loop} {e : Env} {lr : LoginRequest}
    (hlast : LastLogin hist x e lr) {y : Loop × Env × Event}
    (hy : ¬ Event.IsLoginRequest y.2.2) :
  LastLogin (hist ++ [y]) x e lr
  := by
  obtain ⟨pre, post, rfl, hpost⟩ := hlast
  refine ⟨pre, post ++ [y], by simp, ?_⟩
  intro z hz
  rcases List.mem_append.mp hz with hz | hz
  · exact hpost z hz
  · rw [List.mem_singleton.mp hz]
    exact hy

theorem lastLogin_snoc_self (hist : History) (x : Loop) (e : Env) (lr : LoginRequest) :
  LastLogin (hist ++ [(x, e, .message (some (.loginRequest lr)))]) x e lr
  := ⟨hist, [], rfl, by simp⟩

theorem TrustedDeviceMatched.snoc {hist : History} (ht : TrustedDeviceMatched hist)
    (y : Loop × Env × Event) :
  TrustedDeviceMatched (hist ++ [y])
  := by
  obtain ⟨z, hz, hmatch⟩ := ht
  exact ⟨z, List.mem_append_left _ hz, hmatch⟩

/-! ### The turns of a waiting connection -/

namespace Conn

variable (h : Host) (e : Env) (c : Conn)

/-- A message of the stream is handled by `on_message`, and the loop ends when it says so. -/
theorem onEvent_message (msg : Message) :
  (c.onEvent h e (.message msg)).1 = (c.onMessage h e msg).1
    ∧ ((c.onEvent h e (.message msg)).2 = true → (c.onMessage h e msg).2 = true)
  := by
  simp only [onEvent, onStreamMessage]
  rcases andThen_cases (c.onMessage h e msg) _ with ⟨hf, heq⟩ | ⟨ht, heq⟩
  · rw [heq]
    exact ⟨rfl, fun ht => ht⟩
  · rw [heq]
    exact ⟨rfl, fun _ => ht⟩

/-- A login message of a waiting connection goes to its handler. -/
theorem onMessage_loginMessage (hun : c.auth.authorized = false) {msg : Message}
    (hmsg : isLoginMessage msg = true) :
  c.onMessage h e msg = c.dispatch h e msg
  := by
  have hclose : isCloseReason msg = false := by
    unfold isLoginMessage at hmsg
    split at hmsg
    · rfl
    · rfl
    · rfl
    · cases hmsg
  simp [onMessage, hclose, hun]

theorem onEvent_loginMessage (hun : c.auth.authorized = false) {msg : Message}
    (hmsg : isLoginMessage msg = true) :
  (c.onEvent h e (.message msg)).1 = (c.dispatch h e msg).1
    ∧ ((c.onEvent h e (.message msg)).2 = true → (c.dispatch h e msg).2 = true)
  := by
  rw [← c.onMessage_loginMessage h e hun hmsg]
  apply c.onEvent_message h e msg

/-- Logging in is for the current request. -/
theorem lr_sendLogonResponseAndKeepAlive :
  (c.sendLogonResponseAndKeepAlive h e).1.auth.lr = c.auth.lr
  := by
  cases hauth : c.auth.authorized with
  | true => simp [sendLogonResponseAndKeepAlive, hauth]
  | false =>
      rcases c.sendLogonResponseAndKeepAlive_cases h e hauth with
        ⟨-, heq⟩ | ⟨-, -, ⟨t, a, hcore⟩, -⟩ | ⟨-, c₁, hadm, heq⟩
      · rw [heq]
        rfl
      · exact congrArg (fun k => k.auth.lr) hcore
      · obtain ⟨t, a, sid, hauth⟩ := hadm.auth
        rw [heq, hauth]

theorem lr_logonAndStartCm (lr : LoginRequest) :
  (c.logonAndStartCm h e lr).1.auth.lr = c.auth.lr
  := by
  rw [← c.lr_sendLogonResponseAndKeepAlive h e, logonAndStartCm]
  rcases andThen_cases (c.sendLogonResponseAndKeepAlive h e) _ with ⟨-, heq⟩ | ⟨-, heq⟩
  · rw [heq]
  · rw [heq]
    rfl

/-- An `Authorize` does not wait for the second factor. -/
theorem onAuthorize_of_waiting (hun : c.auth.authorized = false) :
  (c.onAuthorize h e).2 = false ∨ (c.onAuthorize h e).1.auth.authorized = true
  := by
  rw [onAuthorize]
  generalize hc₀ : (c.withAuth fun a => { a with require2fa := false }) = c₀
  have hun₀ : c₀.auth.authorized = false := by
    rw [← hc₀]
    exact hun
  have hreq₀ : c₀.auth.require2fa = false := by
    rw [← hc₀]
    rfl
  rcases andThen_cases (c₀.sendLogonResponseAndKeepAlive h e) _ with ⟨hf, heq⟩ | ⟨ht, heq⟩
  · left
    rw [heq]
    exact hf
  · right
    rw [heq]
    rcases c₀.sendLogonResponseAndKeepAlive_cases h e hun₀ with
      ⟨hask, -⟩ | ⟨-, hf, -⟩ | ⟨-, c₁, hadm, heq₁⟩
    · simp [asks2fa, hreq₀] at hask
    · rw [hf] at ht
      cases ht
    · obtain ⟨t, a, sid, hauth⟩ := hadm.auth
      rw [heq₁, hauth]

/-- An `Authorize` is for the current request. -/
theorem lr_onAuthorize :
  (c.onAuthorize h e).1.auth.lr = c.auth.lr
  := by
  rw [onAuthorize]
  generalize hc₀ : (c.withAuth fun a => { a with require2fa := false }) = c₀
  have hlr₀ : c₀.auth.lr = c.auth.lr := by
    rw [← hc₀]
    rfl
  rw [← hlr₀, ← c₀.lr_sendLogonResponseAndKeepAlive h e]
  rcases andThen_cases (c₀.sendLogonResponseAndKeepAlive h e) _ with ⟨-, heq⟩ | ⟨-, heq⟩
  · rw [heq]
  · rw [heq]

/-- A login that need not wait for the second factor is refused or authorized. -/
theorem logonAndStartCm_of_not_asked {lr : LoginRequest} (hun : c.auth.authorized = false)
    (hask : c.asks2fa h e = false) :
  (c.logonAndStartCm h e lr).2 = false ∨ (c.logonAndStartCm h e lr).1.auth.authorized = true
  := by
  rcases c.logonAndStartCm_cases h e lr hun with ⟨hask', -⟩ | ⟨-, hf, -⟩ | ⟨-, c₁, hadm, heq⟩
  · rw [hask] at hask'
    cases hask'
  · left
    exact hf
  · right
    obtain ⟨t, a, sid, hauth⟩ := hadm.auth
    rw [heq]
    change (c₁.setAuthorized.sendLogonResponseAuthorized h e).auth.authorized = true
    rw [hauth]

/-- An `Auth2fa` changes nothing, or the login it completes is refused or authorized. -/
theorem onAuth2fa_of_waiting (tfa : Auth2fa) (hun : c.auth.authorized = false) :
  (Quiet c (c.onAuth2fa h e tfa).1 ∧ Emits Plain c (c.onAuth2fa h e tfa).1)
    ∨ (c.onAuth2fa h e tfa).2 = false ∨ (c.onAuth2fa h e tfa).1.auth.authorized = true
  := by
  rcases c.onAuth2fa_cases h e tfa with hq | ⟨-, -, c₁, hcore, -, -, hkeep, hq, -⟩
  · left
    exact hq
  · right
    have hauth : c₁.auth = _ := congrArg Core.auth hcore
    have hask : c₁.asks2fa h e = false := by
      rw [asks2fa, hauth]
      rfl
    rw [hkeep, auth_eq_of_core hq.1]
    exact c₁.logonAndStartCm_of_not_asked h e (by rw [hauth]; exact hun) hask

/-- A `SwitchSidesResponse` changes nothing, or the login it completes is refused or
authorized. -/
theorem onSwitchSidesResponse_of_waiting (sr : SwitchSidesResponse)
    (hun : c.auth.authorized = false) :
  (Quiet c (c.onSwitchSidesResponse h e sr).1
      ∧ Emits Plain c (c.onSwitchSidesResponse h e sr).1)
    ∨ (c.onSwitchSidesResponse h e sr).2 = false
    ∨ (c.onSwitchSidesResponse h e sr).1.auth.authorized = true
  := by
  rcases c.onSwitchSidesResponse_cases h e sr with
    hq | ⟨hf, -⟩ | ⟨lr, c₁, -, hcore, -, -, hkeep, hq, -⟩
  · left
    exact hq
  · right; left
    exact hf
  · right
    have hauth : c₁.auth = _ := congrArg Core.auth hcore
    have hask : c₁.asks2fa h e = false := by
      rw [asks2fa, hauth]
      simp [Core.withAuth, switchedAuth]
    rw [hkeep, auth_eq_of_core hq.1]
    exact c₁.logonAndStartCm_of_not_asked h e (by rw [hauth]; exact hun) hask

theorem isRecentSession_true :
  c.isRecentSession h e true = recent2faSession e c.auth.lr
  := by
  rw [isRecentSession, recent2faSession]
  cases e.session true with
  | none => rfl
  | some session =>
      dsimp only
      rw [Bool.true_and, Bool.not_true, Bool.false_and, Bool.or_false]

/-- The fields of a login that the gate looks at. -/
theorem scopedAuth_gate (union : Option LoginUnion) (a : Auth) :
  (scopedAuth union a).lr = a.lr ∧ (scopedAuth union a).require2fa = a.require2fa
    ∧ (scopedAuth union a).awaiting2fa = a.awaiting2fa
    ∧ (scopedAuth union a).fromSwitch = a.fromSwitch
    ∧ (scopedAuth union a).authorized = a.authorized
  := by
  rcases union with _ | (_ | _ | _ | _ | _) <;> exact ⟨rfl, rfl, rfl, rfl, rfl⟩

variable {h e c} in
/-- What a prepared request leaves of the fields the gate looks at. -/
theorem Prepared.gate {lr : LoginRequest} {c₁ : Conn} (hp : Prepared h e c lr c₁) :
  c₁.auth.lr = lr ∧ c₁.auth.require2fa = (c.auth.require2fa && !matchesTrustedDevice e lr)
    ∧ c₁.auth.awaiting2fa = false ∧ c₁.auth.fromSwitch = c.auth.fromSwitch
    ∧ c₁.auth.authorized = c.auth.authorized
  := by
  have ha : c₁.auth = requestedAuth h e lr c.auth := congrArg Core.auth hp.core
  rw [ha]
  exact scopedAuth_gate lr.union _

variable {h e c} in
/-- A prepared request with a valid password was validated when it was handled. -/
theorem Prepared.validated {lr : LoginRequest} {c₁ : Conn} (hp : Prepared h e c lr c₁)
    (hclick : needsClick h e = false) (hvalid : c₁.passwordValid h e = true) :
  PasswordValidated h e c lr
  := by
  refine ⟨hclick, ?_⟩
  rw [← hvalid]
  apply passwordValid_congr
  · exact (congrArg Core.salt hp.core).symm
  · exact (congrArg Core.challenge hp.core).symm
  · exact hp.gate.1.symm

/-- The outcomes of a login request on a waiting connection. -/
theorem onLoginRequest_outcome (lr : LoginRequest) (hun : c.auth.authorized = false) :
  (c.onLoginRequest h e lr).2 = false ∧ (c.onLoginRequest h e lr).1.auth.authorized = false
    ∨ ((c.onLoginRequest h e lr).1.auth.lr = lr
      ∧ idWhitelistAllows h e.idWhitelist lr.myId.val = true
      ∧ (c.onLoginRequest h e lr).1.auth.fromSwitch = c.auth.fromSwitch
      ∧ (c.onLoginRequest h e lr).1.auth.require2fa
        = (c.auth.require2fa && !matchesTrustedDevice e lr)
      ∧ ((c.onLoginRequest h e lr).1.auth.awaiting2fa = true → PasswordValidated h e c lr)
      ∧ ((c.onLoginRequest h e lr).1.auth.authorized = true → PasswordValidated h e c lr
        ∧ ((c.onLoginRequest h e lr).1.auth.require2fa = false ∨ recent2faSession e lr = true
          ∨ c.auth.fromSwitch = true)))
  := by
  rcases c.onLoginRequest_cases h e lr hun with ⟨hf, hunap⟩ | ⟨c₁, hp, heq⟩
  · left
    exact ⟨hf, hunap.authorized.trans hun⟩
  rw [heq]
  obtain ⟨hlr, hreq, hawait, hswitch, hauth₁⟩ := hp.gate
  rw [hun] at hauth₁
  rcases c₁.approveLogin_cases h e hlr with ⟨⟨-, t, htok⟩, -, -⟩ | ⟨hclick, hvalid, c₂, hq, -, heq₂⟩
  · right
    have ha : (c₁.approveLogin h e lr).1.auth = _ := congrArg Core.auth htok
    rw [ha]
    refine ⟨hlr, hp.allowed, hswitch, hreq, ?_, ?_⟩
    · intro hw
      have hw : c₁.auth.awaiting2fa = true := hw
      rw [hawait] at hw
      cases hw
    · intro hw
      have hw : c₁.auth.authorized = true := hw
      rw [hauth₁] at hw
      cases hw
  · have hpw := hp.validated hclick hvalid
    have hauth₂ := auth_eq_of_core hq.1
    rw [heq₂]
    rcases c₂.logonAndStartCm_cases h e lr (by rw [hauth₂, hauth₁]) with
      ⟨-, -, hcore, -⟩ | ⟨-, hf, ⟨t, a, hcore⟩, -⟩ | ⟨hask, c₃, hadm, heq₃⟩
    · right
      have ha : (c₂.logonAndStartCm h e lr).1.auth = _ := congrArg Core.auth hcore
      rw [ha]
      have hauth₂ : c₂.core.auth = c₁.auth := hauth₂
      simp only [Core.withAuth, hauth₂]
      refine ⟨hlr, hp.allowed, hswitch, hreq, fun _ => hpw, ?_⟩
      intro hw
      rw [hauth₁] at hw
      cases hw
    · left
      have ha : (c₂.logonAndStartCm h e lr).1.auth = _ := congrArg Core.auth hcore
      rw [ha]
      have hauth₂ : c₂.core.auth = c₁.auth := hauth₂
      simp only [Core.withAuth, hauth₂]
      exact ⟨hf, hauth₁⟩
    · right
      obtain ⟨t, a, sid, hauth₃⟩ := hadm.auth
      have ha : (c₂.logonAndStartCm h e lr).1.auth = _ :=
        (congrArg (fun r => r.1.auth) heq₃).trans hauth₃
      rw [ha, hauth₂]
      refine ⟨hlr, hp.allowed, hswitch, hreq, fun _ => hpw, fun _ => ⟨hpw, ?_⟩⟩
      simp only [asks2fa, isRecentSession_true, hauth₂, hlr, hswitch] at hask
      rcases hr : c₁.auth.require2fa with _ | _
      · left
        rfl
      · right
        simpa [hr, or_iff_not_imp_left] using hask

end Conn

/-! ### The gate -/

/-- What holds of a connection that is not yet authorized, in a loop that started in `s₀`. -/
structure Gate (h : Host) (s₀ : Loop) (hist : History) (s : Loop) : Prop where
  notSwitched : s.conn.auth.fromSwitch = false
  factor : s.conn.auth.require2fa = false →
    s₀.conn.auth.require2fa = false ∨ TrustedDeviceMatched hist
  login : s.cmStarted = true ∨ s.conn.auth.awaiting2fa = true →
    ∃ x e lr, LastLogin hist x e lr ∧ s.conn.auth.lr = lr
      ∧ idWhitelistAllows h e.idWhitelist lr.myId.val = true
      ∧ (s.conn.auth.awaiting2fa = true → PasswordValidated h e x.conn lr)

section Gate

variable {h : Host} {s₀ s : Loop} {hist : History} {e : Env} {ev : Event}

/-- A turn that leaves what the login decided, and is no login request, keeps the gate. -/
theorem Gate.unchanged {s' : Loop} (hg : Gate h s₀ hist s) (hauth : s'.conn.auth = s.conn.auth)
    (hcm : s'.cmStarted = s.cmStarted) (hev : ¬ ev.IsLoginRequest) :
  Gate h s₀ (hist ++ [(s, e, ev)]) s'
  := by
  constructor
  · rw [hauth]
    exact hg.notSwitched
  · rw [hauth]
    intro hreq
    rcases hg.factor hreq with h₀ | ht
    · left
      exact h₀
    · right
      exact ht.snoc _
  · rw [hauth, hcm]
    intro hlogin
    obtain ⟨x, e₁, lr, hlast, hrest⟩ := hg.login hlogin
    exact ⟨x, e₁, lr, hlast.snoc hev, hrest⟩

/-- Effects that tell the connection manager about no login leave it as it was. -/
theorem cmStarted_next_of_noLogin {c' : Conn} (hno : ∀ x ∈ c'.out, Conn.NoLogin x) :
  (s.cmStarted || c'.out.any Effect.startsCm) = s.cmStarted
  := by
  have hany : c'.out.any Effect.startsCm = false := by
    rw [List.any_eq_false]
    intro x hx
    rw [hno x hx]
    exact Bool.false_ne_true
  rw [hany, Bool.or_false]

/-- The login events. -/
theorem Event.isLogin_cases (hev : ev.isLogin = true) :
  ev = .cm .authorize ∨ (∃ lr, ev = .message (some (.loginRequest lr)))
    ∨ (∃ tfa, ev = .message (some (.auth2fa tfa)))
    ∨ ∃ sr, ev = .message (some (.switchSidesResponse sr))
  := by
  unfold Event.isLogin at hev
  split at hev
  · left
    rfl
  · right
    unfold isLoginMessage at hev
    split at hev
    · left
      exact ⟨_, rfl⟩
    · right; left
      exact ⟨_, rfl⟩
    · right; right
      exact ⟨_, rfl⟩
    · cases hev
  · cases hev

/-- A login request that leaves the connection waiting keeps the gate. -/
theorem Gate.loginRequest {lr : LoginRequest} (hg : Gate h s₀ hist s)
    (hun : s.conn.auth.authorized = false)
    (hrun : (s.next h e (.message (some (.loginRequest lr)))).running = true) :
  Gate h s₀ (hist ++ [(s, e, .message (some (.loginRequest lr)))])
    (s.next h e (.message (some (.loginRequest lr))))
  := by
  obtain ⟨hconn, hkeep⟩ :=
    s.conn.clear.onEvent_loginMessage h e hun (show isLoginMessage (some (.loginRequest lr)) = true from rfl)
  rcases s.conn.clear.onLoginRequest_outcome h e lr hun with
    ⟨hf, -⟩ | ⟨hlr, hallow, hswitch, hreq, hawait, -⟩
  · rw [show (s.conn.clear.onLoginRequest h e lr).2 = true from hkeep hrun] at hf
    cases hf
  have hnext : (s.next h e (.message (some (.loginRequest lr)))).conn
      = (s.conn.clear.onLoginRequest h e lr).1 := hconn
  constructor
  · rw [hnext, hswitch]
    exact hg.notSwitched
  · rw [hnext, hreq]
    intro hfalse
    rcases htrust : Conn.matchesTrustedDevice e lr with _ | _
    · rw [htrust, Bool.not_false, Bool.and_true] at hfalse
      rcases hg.factor hfalse with h₀ | ht
      · left
        exact h₀
      · right
        exact ht.snoc _
    · right
      exact ⟨_, List.mem_append_right _ (List.mem_singleton_self _), lr, rfl, htrust⟩
  · intro _
    refine ⟨s, e, lr, lastLogin_snoc_self hist s e lr, ?_, hallow, ?_⟩
    · rw [hnext, hlr]
    · rw [hnext]
      exact hawait

/-- Every turn that leaves the connection waiting keeps the gate. -/
theorem Gate.next (hg : Gate h s₀ hist s) (hun : s.conn.auth.authorized = false)
    (hrun : (s.next h e ev).running = true)
    (hstill : (s.next h e ev).conn.auth.authorized = false) :
  Gate h s₀ (hist ++ [(s, e, ev)]) (s.next h e ev)
  := by
  by_cases hlogin : ev.IsLoginRequest
  · obtain ⟨lr, rfl⟩ := hlogin
    exact hg.loginRequest hun hrun
  suffices hsame : (s.next h e ev).conn.auth = s.conn.auth
      ∧ ∀ x ∈ (s.next h e ev).conn.out, Conn.NoLogin x from
    hg.unchanged hsame.1 (cmStarted_next_of_noLogin hsame.2) hlogin
  cases hev : ev.isLogin with
  | false =>
      exact ⟨(s.conn.clear.keeps_onEvent h e hev).1, s.conn.clear.noLogin_onEvent h e rfl hun hev⟩
  | true =>
      rcases Event.isLogin_cases hev with rfl | ⟨lr, rfl⟩ | ⟨tfa, rfl⟩ | ⟨sr, rfl⟩
      · rcases s.conn.clear.onAuthorize_of_waiting h e hun with hf | hauth
        · exact absurd (hrun.symm.trans hf) Bool.noConfusion
        · exact absurd (hauth.symm.trans hstill) Bool.noConfusion
      · exact absurd ⟨lr, rfl⟩ hlogin
      · obtain ⟨hconn, hkeep⟩ := s.conn.clear.onEvent_loginMessage h e hun
          (show isLoginMessage (some (.auth2fa tfa)) = true from rfl)
        have hnext : (s.next h e (.message (some (.auth2fa tfa)))).conn
            = (s.conn.clear.onAuth2fa h e tfa).1 := hconn
        rcases s.conn.clear.onAuth2fa_of_waiting h e tfa hun with ⟨hq, hno⟩ | hf | hauth
        · rw [hnext]
          exact ⟨Conn.auth_eq_of_core hq.1, fun x hx => (hno.forall_mem rfl x hx).noLogin⟩
        · exact absurd ((hkeep hrun).symm.trans hf) Bool.noConfusion
        · rw [hnext] at hstill
          exact absurd (hauth.symm.trans hstill) Bool.noConfusion
      · obtain ⟨hconn, hkeep⟩ := s.conn.clear.onEvent_loginMessage h e hun
          (show isLoginMessage (some (.switchSidesResponse sr)) = true from rfl)
        have hnext : (s.next h e (.message (some (.switchSidesResponse sr)))).conn
            = (s.conn.clear.onSwitchSidesResponse h e sr).1 := hconn
        rcases s.conn.clear.onSwitchSidesResponse_of_waiting h e sr hun with ⟨hq, hno⟩ | hf | hauth
        · rw [hnext]
          exact ⟨Conn.auth_eq_of_core hq.1, fun x hx => (hno.forall_mem rfl x hx).noLogin⟩
        · exact absurd ((hkeep hrun).symm.trans hf) Bool.noConfusion
        · rw [hnext] at hstill
          exact absurd (hauth.symm.trans hstill) Bool.noConfusion

end Gate

/-! ### Runs -/

namespace Conn

variable (h : Host) (e : Env) (c : Conn)

theorem authorized_logonAndStartCm (lr : LoginRequest) (hauth : c.auth.authorized = true) :
  (c.logonAndStartCm h e lr).1.auth.authorized = true
  := by
  rw [auth_eq_of_core (c.quiet_logonAndStartCm_of_authorized h e lr hauth).1]
  exact hauth

theorem authorized_dispatch {msg : Message} (hmsg : isLoginRequest msg = false)
    (hauth : c.auth.authorized = true) :
  (c.dispatch h e msg).1.auth.authorized = true
  := by
  cases hlogin : isLoginMessage msg with
  | false =>
      rw [(c.keeps_dispatch h e hlogin).1]
      exact hauth
  | true =>
      unfold isLoginMessage at hlogin
      split at hlogin
      · cases hmsg
      · rename_i tfa
        change (c.onAuth2fa h e tfa).1.auth.authorized = true
        rcases c.onAuth2fa_cases h e tfa with ⟨hq, -⟩ | ⟨-, -, c₁, hcore, -, -, -, hq, -⟩
        · rw [auth_eq_of_core hq.1]
          exact hauth
        · have hauth₁ : c₁.auth = _ := congrArg Core.auth hcore
          rw [auth_eq_of_core hq.1]
          exact c₁.authorized_logonAndStartCm h e _ (by rw [hauth₁]; exact hauth)
      · rename_i sr
        change (c.onSwitchSidesResponse h e sr).1.auth.authorized = true
        rcases c.onSwitchSidesResponse_cases h e sr with
          ⟨hq, -⟩ | ⟨-, hunap⟩ | ⟨lr, c₁, -, hcore, -, -, -, hq, -⟩
        · rw [auth_eq_of_core hq.1]
          exact hauth
        · rw [hunap.authorized]
          exact hauth
        · have hauth₁ : c₁.auth = _ := congrArg Core.auth hcore
          rw [auth_eq_of_core hq.1]
          exact c₁.authorized_logonAndStartCm h e lr (by rw [hauth₁]; exact hauth)
      · cases hlogin

/-- An authorized connection stays authorized. -/
theorem authorized_onEvent {ev : Event} (hauth : c.auth.authorized = true) :
  (c.onEvent h e ev).1.auth.authorized = true
  := by
  cases hev : ev.isLogin with
  | false =>
      rw [(c.keeps_onEvent h e hev).1]
      exact hauth
  | true =>
      unfold Event.isLogin at hev
      split at hev
      · change (c.onAuthorize h e).1.auth.authorized = true
        unfold onAuthorize sendLogonResponseAndKeepAlive
        split
        · exact hauth
        · rename_i hnot
          exact absurd hauth hnot
      · rename_i msg
        rw [(c.onEvent_message h e msg).1]
        unfold onMessage
        split
        · rw [auth_onClose]
          exact hauth
        split
        · exact hauth
        rename_i hlogin
        have hlogin : isLoginRequest msg = false := by simpa [hauth] using hlogin
        split
        · rw [(c.keeps_handleAuthorizedScopeViolation h e _).1]
          exact hauth
        · exact c.authorized_dispatch h e hlogin hauth
      · cases hev

theorem core_sendDenied (p : Permission) (b : Bool) :
  (c.sendDenied p b).core = c.core
  := by
  rw [sendDenied]
  split_ifs <;> rfl

/-- Opening a connection decides nothing. -/
theorem core_onOpen {c' : Conn} (hopen : c.onOpen h e = some c') :
  c'.core = c.core
  := by
  rw [onOpen] at hopen
  split at hopen
  · cases hopen
  · rw [← Option.some.inj hopen]
    simp only [core_sendDenied]
    split_ifs
    · simp
    · simp [core_sendDenied]

end Conn

/-- The connection of a loop that starts waits for a login. -/
theorem Loop.IsStart.auth {h : Host} {s₀ : Loop} (hstart : s₀.IsStart h) :
  s₀.cmStarted = false ∧ ∃ b, s₀.conn.auth = { require2fa := b }
  := by
  obtain ⟨e, id, salt, challenge, c, hopen, rfl⟩ := hstart
  refine ⟨rfl, e.get2fa, ?_⟩
  exact Conn.auth_eq_of_core (Conn.core_onOpen h e _ hopen)

/-- The gate holds of every waiting connection. -/
theorem gate_of_run {h : Host} {s₀ s : Loop} {hist : History} (hstart : s₀.IsStart h)
    (hrun : Run (Loop.Step h) s₀ hist s) :
  s.running = true → s.conn.auth.authorized = false → Gate h s₀ hist s
  := by
  apply Run.history_invariant
    (fun hist s => s.running = true → s.conn.auth.authorized = false → Gate h s₀ hist s) _ _ hrun
  · obtain ⟨hcm, b, hauth⟩ := hstart.auth
    intro _ _
    constructor
    · rw [hauth]
    · intro hreq
      left
      exact hreq
    · rw [hcm, hauth]
      rintro (hf | hf) <;> cases hf
  · rintro hist s ⟨e, ev⟩ s' - hgate ⟨hrunning, -, rfl⟩ hrun' hun'
    have hun : s.conn.auth.authorized = false := by
      by_contra hauth
      have hauth' : (s.conn.clear.onEvent h e ev).1.auth.authorized = true :=
        s.conn.clear.authorized_onEvent h e (Bool.not_eq_false _ ▸ hauth)
      exact absurd (hauth'.symm.trans hun') Bool.noConfusion
    exact (hgate hrunning hun).next hun hrun' hun'

/-- The message that entered the authorization is one of four: an `Authorize`, a
`SwitchSidesResponse` with the unexpired uuid stored for its peer, a login request with a valid
password, or an `Auth2fa` with an accepted code while the last login request was one with a
valid password. -/
def EntryPoint (h : Host) (hist : History) (s : Loop) (e : Env) (ev : Event) : Prop :=
  ev = .cm .authorize
    ∨ (∃ sr lr, ev = .message (some (.switchSidesResponse sr)) ∧ sr.lr = some lr
      ∧ Conn.storedSwitchSidesUuid e lr.myId.val = some sr.uuid)
    ∨ (∃ lr, ev = .message (some (.loginRequest lr)) ∧ PasswordValidated h e s.conn lr)
    ∨ ∃ tfa, ev = .message (some (.auth2fa tfa)) ∧ e.totpCheck tfa.code = some true
      ∧ ∃ x e₁ lr, LastLogin hist x e₁ lr ∧ PasswordValidated h e₁ x.conn lr

/-- The login that set the current request, with the environment it was handled in: the message
of the turn itself, or the last login request before an `Authorize` or an `Auth2fa`. -/
def CurrentLogin (hist : History) (e : Env) (ev : Event) (e₁ : Env) (lr : LoginRequest) : Prop :=
  (e₁ = e ∧ (ev = .message (some (.loginRequest lr))
      ∨ ∃ sr, ev = .message (some (.switchSidesResponse sr)) ∧ sr.lr = some lr))
    ∨ ((ev = .cm .authorize ∨ ∃ tfa, ev = .message (some (.auth2fa tfa)))
      ∧ ∃ x, LastLogin hist x e₁ lr)

/-- The turn needs no second factor, or the connection has none required, or has completed it:
by a code, by a trusted device, or by a recent session. -/
def SecondFactor (s₀ : Loop) (hist : History) (s : Loop) (e : Env) (ev : Event)
    (lr : LoginRequest) : Prop :=
  ev = .cm .authorize ∨ (∃ sr, ev = .message (some (.switchSidesResponse sr)))
    ∨ s₀.conn.auth.require2fa = false
    ∨ TotpAccepted (hist ++ [(s, e, ev)])
    ∨ TrustedDeviceMatched (hist ++ [(s, e, ev)])
    ∨ recent2faSession e lr = true

section Entry

variable {h : Host} {s₀ s : Loop} {hist : History} {e : Env}

/-- An `Authorize` is for the last login request, which the whitelist allowed. -/
theorem Gate.authorize (hgate : Gate h s₀ hist s) (hcm : s.cmStarted = true) :
  ∃ x e₁, LastLogin hist x e₁ (s.next h e (.cm .authorize)).conn.auth.lr
    ∧ idWhitelistAllows h e₁.idWhitelist
      (s.next h e (.cm .authorize)).conn.auth.lr.myId.val = true
  := by
  obtain ⟨x, e₁, lr, hlast, hlr, hallow, -⟩ := hgate.login (Or.inl hcm)
  have hsame : (s.next h e (.cm .authorize)).conn.auth.lr = lr := by
    rw [← hlr]
    exact s.conn.clear.lr_onAuthorize h e
  rw [hsame]
  exact ⟨x, e₁, hlast, hallow⟩

/-- An `Auth2fa` that authorizes has an accepted code and is for the last login request, which
the whitelist allowed and whose password was valid. -/
theorem Gate.auth2fa {tfa : Auth2fa} (hgate : Gate h s₀ hist s)
    (hun : s.conn.auth.authorized = false)
    (hauth : (s.next h e (.message (some (.auth2fa tfa)))).conn.auth.authorized = true) :
  s.conn.auth.awaiting2fa = true ∧ e.totpCheck tfa.code = some true
    ∧ ∃ x e₁ lr, LastLogin hist x e₁ lr
      ∧ (s.next h e (.message (some (.auth2fa tfa)))).conn.auth.lr = lr
      ∧ idWhitelistAllows h e₁.idWhitelist lr.myId.val = true ∧ PasswordValidated h e₁ x.conn lr
  := by
  have hconn : (s.next h e (.message (some (.auth2fa tfa)))).conn
      = (s.conn.clear.onAuth2fa h e tfa).1 :=
    (s.conn.clear.onEvent_loginMessage h e hun rfl).1
  rw [hconn] at hauth ⊢
  rcases s.conn.clear.onAuth2fa_cases h e tfa with ⟨hq, -⟩ | ⟨hawait, htotp, c₁, hcore, -, -, -, hq, -⟩
  · rw [Conn.auth_eq_of_core hq.1] at hauth
    exact absurd (hauth.symm.trans hun) Bool.noConfusion
  · have hawait : s.conn.auth.awaiting2fa = true := hawait
    obtain ⟨x, e₁, lr, hlast, hlr, hallow, hpw⟩ := hgate.login (Or.inr hawait)
    refine ⟨hawait, htotp, x, e₁, lr, hlast, ?_, hallow, hpw hawait⟩
    have hauth₁ : c₁.auth = _ := congrArg Core.auth hcore
    rw [Conn.auth_eq_of_core hq.1, Conn.lr_logonAndStartCm, hauth₁]
    exact hlr

/-- A `SwitchSidesResponse` that authorizes has the stored uuid, and the whitelist allows its
peer. -/
theorem switchSidesResponse_entry {sr : SwitchSidesResponse}
    (hun : s.conn.auth.authorized = false)
    (hauth : (s.next h e (.message (some (.switchSidesResponse sr)))).conn.auth.authorized = true) :
  ∃ lr, Conn.SwitchAccepted h e sr lr
    ∧ (s.next h e (.message (some (.switchSidesResponse sr)))).conn.auth.lr = lr
  := by
  have hconn : (s.next h e (.message (some (.switchSidesResponse sr)))).conn
      = (s.conn.clear.onSwitchSidesResponse h e sr).1 :=
    (s.conn.clear.onEvent_loginMessage h e hun rfl).1
  rw [hconn] at hauth ⊢
  rcases s.conn.clear.onSwitchSidesResponse_cases h e sr with
    ⟨hq, -⟩ | ⟨-, hunap⟩ | ⟨lr, c₁, hacc, hcore, -, -, -, hq, -⟩
  · rw [Conn.auth_eq_of_core hq.1] at hauth
    exact absurd (hauth.symm.trans hun) Bool.noConfusion
  · rw [hunap.authorized] at hauth
    exact absurd (hauth.symm.trans hun) Bool.noConfusion
  · have hauth₁ : c₁.auth = _ := congrArg Core.auth hcore
    refine ⟨lr, hacc, ?_⟩
    rw [Conn.auth_eq_of_core hq.1, Conn.lr_logonAndStartCm, hauth₁]
    rfl

/-- A login request that authorizes has a valid password, the whitelist allows its peer, and the
second factor is not required any more or completed by a recent session. -/
theorem Gate.loginRequest_entry {lr : LoginRequest} (hgate : Gate h s₀ hist s)
    (hun : s.conn.auth.authorized = false)
    (hauth : (s.next h e (.message (some (.loginRequest lr)))).conn.auth.authorized = true) :
  (s.next h e (.message (some (.loginRequest lr)))).conn.auth.lr = lr
    ∧ idWhitelistAllows h e.idWhitelist lr.myId.val = true
    ∧ PasswordValidated h e s.conn lr
    ∧ (s₀.conn.auth.require2fa = false
      ∨ TrustedDeviceMatched (hist ++ [(s, e, .message (some (.loginRequest lr)))])
      ∨ recent2faSession e lr = true)
  := by
  have hconn : (s.next h e (.message (some (.loginRequest lr)))).conn
      = (s.conn.clear.onLoginRequest h e lr).1 :=
    (s.conn.clear.onEvent_loginMessage h e hun rfl).1
  rw [hconn] at hauth ⊢
  rcases s.conn.clear.onLoginRequest_outcome h e lr hun with
    ⟨-, hna⟩ | ⟨hlr, hallow, -, hreq, -, hentry⟩
  · exact absurd (hauth.symm.trans hna) Bool.noConfusion
  · obtain ⟨hpw, hfactor⟩ := hentry hauth
    refine ⟨hlr, hallow, hpw, ?_⟩
    rcases hfactor with hfree | hrecent | hswitch
    · rw [hreq] at hfree
      rcases htrust : Conn.matchesTrustedDevice e lr with _ | _
      · rw [htrust, Bool.not_false, Bool.and_true] at hfree
        rcases hgate.factor hfree with h₀ | ht
        · left
          exact h₀
        · right; left
          exact ht.snoc _
      · right; left
        exact ⟨_, List.mem_append_right _ (List.mem_singleton_self _), lr, rfl, htrust⟩
    · right; right
      exact hrecent
    · exact absurd (hswitch.symm.trans hgate.notSwitched) Bool.noConfusion

/-- A connection becomes authorized only through one of the four entry points, for a peer the
whitelist allowed when its login was handled, and with the second factor settled. -/
theorem authorized_through_gate {ev : Event} {s' : Loop} (hstart : s₀.IsStart h)
    (hrun : Run (Loop.Step h) s₀ hist s) (hstep : Loop.Step h s (e, ev) s')
    (hbefore : s.conn.auth.authorized = false) (hafter : s'.conn.auth.authorized = true) :
  EntryPoint h hist s e ev
    ∧ (∃ e₁, CurrentLogin hist e ev e₁ s'.conn.auth.lr
      ∧ idWhitelistAllows h e₁.idWhitelist s'.conn.auth.lr.myId.val = true)
    ∧ SecondFactor s₀ hist s e ev s'.conn.auth.lr
  := by
  obtain ⟨hrunning, hcm, rfl⟩ := hstep
  have hgate := gate_of_run hstart hrun hrunning hbefore
  cases hev : ev.isLogin with
  | false =>
      have hsame : (s.next h e ev).conn.auth = s.conn.auth :=
        (s.conn.clear.keeps_onEvent h e hev).1
      rw [hsame] at hafter
      exact absurd (hafter.symm.trans hbefore) Bool.noConfusion
  | true =>
      rcases Event.isLogin_cases hev with rfl | ⟨lr, rfl⟩ | ⟨tfa, rfl⟩ | ⟨sr, rfl⟩
      · obtain ⟨x, e₁, hlast, hallow⟩ := hgate.authorize (e := e) (hcm .authorize rfl rfl)
        exact ⟨.inl rfl, ⟨e₁, .inr ⟨.inl rfl, x, hlast⟩, hallow⟩, .inl rfl⟩
      · obtain ⟨hlr, hallow, hpw, hfactor⟩ := hgate.loginRequest_entry hbefore hafter
        refine ⟨.inr (.inr (.inl ⟨lr, rfl, hpw⟩)), ⟨e, ?_, ?_⟩, ?_⟩
        · rw [hlr]
          exact .inl ⟨rfl, .inl rfl⟩
        · rw [hlr]
          exact hallow
        · rw [hlr]
          rcases hfactor with h₀ | ht | hrecent
          · exact .inr (.inr (.inl h₀))
          · exact .inr (.inr (.inr (.inr (.inl ht))))
          · exact .inr (.inr (.inr (.inr (.inr hrecent))))
      · obtain ⟨hawait, htotp, x, e₁, lr, hlast, hlr, hallow, hpw⟩ := hgate.auth2fa hbefore hafter
        refine ⟨.inr (.inr (.inr ⟨tfa, rfl, htotp, x, e₁, lr, hlast, hpw⟩)), ⟨e₁, ?_, ?_⟩, ?_⟩
        · rw [hlr]
          exact .inr ⟨.inr ⟨tfa, rfl⟩, x, hlast⟩
        · rw [hlr]
          exact hallow
        · refine .inr (.inr (.inr (.inl ⟨(s, e, _), ?_, tfa, rfl, hawait, htotp⟩)))
          exact List.mem_append_right _ (List.mem_singleton_self _)
      · obtain ⟨lr, hacc, hlr⟩ := switchSidesResponse_entry hbefore hafter
        have huuid : Conn.storedSwitchSidesUuid e lr.myId.val = some sr.uuid := by
          have := hacc.uuid
          simp only [Conn.matchesSwitchSides, Bool.and_eq_true, decide_eq_true_eq] at this
          exact this.2
        refine ⟨.inr (.inl ⟨sr, lr, rfl, hacc.lr_eq, huuid⟩), ⟨e, ?_, ?_⟩, .inr (.inl ⟨sr, rfl⟩)⟩
        · rw [hlr]
          exact .inl ⟨rfl, .inr ⟨sr, rfl, hacc.lr_eq⟩⟩
        · rw [hlr]
          exact hacc.allowed

end Entry

/-! ### Runs through the gate -/

/-- SHA-256 on the salted password `pw` and on its challenge. -/
def sampleSha256 (b : Bytes) : Bytes :=
  if b = utf8 "pwsalt" then
    [254, 80, 2, 227, 161, 186, 72, 169, 130, 247, 195, 31, 236, 114, 6, 93, 27, 69, 21, 71, 206,
      34, 144, 167, 102, 186, 71, 123, 254, 195, 33, 130]
  else if b.take 2 = [254, 80] then
    [75, 23, 46, 87, 119, 252, 91, 215, 61, 91, 242, 19, 144, 85, 146, 27, 123, 196, 89, 188, 186,
      253, 115, 243, 252, 66, 69, 159, 78, 164, 138, 100]
  else b

/-- A Linux build. -/
def linuxHost : Host := Host.sample .linux false sampleSha256

/-- The peer has a recent session that has completed the second factor. -/
def recentEnv : Env := { session := fun _ => some ⟨"pw", true⟩ }

/-- A login request with the password of the recent session. -/
def recentLogin : LoginRequest where
  password := [75, 23, 46, 87, 119, 252, 91, 215, 61, 91, 242, 19, 144, 85, 146, 27, 123, 196, 89,
    188, 186, 253, 115, 243, 252, 66, 69, 159, 78, 164, 138, 100]

/-- A login request that waits for a click. -/
def clickLogin : History :=
  [(Loop.sample linuxHost {}, {}, .message (some (.loginRequest {})))]

/-- The state in which `clickLogin` leaves the loop. -/
def clickWaiting : Loop :=
  (Loop.sample linuxHost {}).next linuxHost {} (.message (some (.loginRequest {})))

theorem run_clickLogin :
  Run (Loop.Step linuxHost) (Loop.sample linuxHost {}) clickLogin clickWaiting
  := by
  refine Run.snoc .nil ⟨rfl, ?_, rfl⟩
  intro d hd
  cases hd

/-- The gate on a login that was authorized by a click. -/
theorem authorized_through_gate_click :
  EntryPoint linuxHost clickLogin clickWaiting {} (.cm .authorize)
    ∧ (∃ e₁, CurrentLogin clickLogin {} (.cm .authorize) e₁
        (clickWaiting.next linuxHost {} (.cm .authorize)).conn.auth.lr
      ∧ idWhitelistAllows linuxHost e₁.idWhitelist
        (clickWaiting.next linuxHost {} (.cm .authorize)).conn.auth.lr.myId.val = true)
    ∧ SecondFactor (Loop.sample linuxHost {}) clickLogin clickWaiting {} (.cm .authorize)
      (clickWaiting.next linuxHost {} (.cm .authorize)).conn.auth.lr
  := authorized_through_gate (Loop.isStart_sample rfl) run_clickLogin
    ⟨by decide, fun _ _ _ => by decide, rfl⟩ (by decide) (by decide)

/-- A whitelist that does not allow the peer of `clickLogin`. -/
def closedEnv : Env := { idWhitelist := ["x"] }

theorem not_idWhitelistAllows_closedEnv :
  idWhitelistAllows linuxHost closedEnv.idWhitelist "" = false
  := by
  have hbare : String.ofList ("".toList.takeWhile (· ≠ '@')) = "" := by decide
  have htrim : linuxHost.toLowercase (trim "").toList = [] := by decide
  have hpat : linuxHost.toLowercase (trim "x").toList = ['x'] := by decide
  have hmatch : wildcardMatch linuxHost "x" "" = false := by
    rw [wildcardMatch, htrim, hpat, wildcardLoop]
    decide
  simp only [idWhitelistAllows, closedEnv, hbare, List.any_cons, List.any_nil, hmatch]
  rfl

/-- A recent session stands in for the second factor: the connection requires it, no code was
ever accepted and no trusted device matched, and the password login authorizes all the same.
And the whitelist is read when the login is handled: a click authorizes a peer that the
whitelist at that time no longer allows. -/
theorem authorized_by_recentSession_and_after_whitelistChange :
  (∃ s', (Loop.sample linuxHost { get2fa := true }).IsStart linuxHost
      ∧ Loop.Step linuxHost (Loop.sample linuxHost { get2fa := true })
        (recentEnv, .message (some (.loginRequest recentLogin))) s'
      ∧ (Loop.sample linuxHost { get2fa := true }).conn.auth.authorized = false
      ∧ s'.conn.auth.authorized = true
      ∧ (Loop.sample linuxHost { get2fa := true }).conn.auth.require2fa = true
      ∧ ¬ TotpAccepted [(Loop.sample linuxHost { get2fa := true }, recentEnv,
          .message (some (.loginRequest recentLogin)))]
      ∧ ¬ TrustedDeviceMatched [(Loop.sample linuxHost { get2fa := true }, recentEnv,
          .message (some (.loginRequest recentLogin)))])
    ∧ ∃ s s', (Loop.sample linuxHost {}).IsStart linuxHost
      ∧ Run (Loop.Step linuxHost) (Loop.sample linuxHost {}) clickLogin s
      ∧ Loop.Step linuxHost s (closedEnv, .cm .authorize) s'
      ∧ s.conn.auth.authorized = false ∧ s'.conn.auth.authorized = true
      ∧ idWhitelistAllows linuxHost closedEnv.idWhitelist s'.conn.auth.lr.myId.val = false
  := by
  constructor
  · refine ⟨_, Loop.isStart_sample rfl, ⟨rfl, ?_, rfl⟩, by decide, by decide, by decide, ?_, ?_⟩
    · intro d hd
      cases hd
    · rintro ⟨y, hy, tfa, hev, -⟩
      rw [List.mem_singleton.mp hy] at hev
      cases hev
    · rintro ⟨y, hy, lr, hev, htrust⟩
      rw [List.mem_singleton.mp hy] at hev htrust
      cases hev
      exact absurd htrust (by decide)
  · exact ⟨clickWaiting, _, Loop.isStart_sample rfl, run_clickLogin,
      ⟨by decide, fun _ _ _ => by decide, rfl⟩, by decide, by decide,
      not_idWhitelistAllows_closedEnv⟩

end VynxDesk
