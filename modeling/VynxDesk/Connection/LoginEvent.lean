import VynxDesk.Connection.AuthGate

/-!
# The login events of a waiting connection

`LoginOutcome` is the inversion of a login event on a connection that is not yet authorized: the
event changes nothing, or the login is refused, or it waits, or it is approved.  The invariants
of whole runs are derived from it.
-/

namespace VynxDesk

namespace Conn

/-- What a login event decides before `send_logon_response_and_keep_alive`. -/
def enteredAuth (h : Host) (e : Env) (ev : Event) (a : Auth) : Auth :=
  match ev with
  | .message (some (.loginRequest lr)) => requestedAuth h e lr a
  | .message (some (.switchSidesResponse ⟨_, some lr⟩)) => switchedAuth e lr a
  | _ => { a with require2fa := false }

/-- The event may enter `send_logon_response_and_keep_alive`: a login request has the scope of
the first one, and a `SwitchSidesResponse` is accepted. -/
structure Enters (h : Host) (e : Env) (c : Conn) (ev : Event) : Prop where
  request : ∀ lr, ev = .message (some (.loginRequest lr)) → LatchAllows h c lr
  switch : ∀ sr, ev = .message (some (.switchSidesResponse sr)) → ∃ lr, SwitchAccepted h e sr lr

/-- A login that was approved: `c₀` enters `send_logon_response_and_keep_alive`, `c₁` has passed
its checks, and `c'` is the authorized connection. -/
structure Approved (h : Host) (e : Env) (c : Conn) (ev : Event) (c₀ c₁ c' : Conn) : Prop where
  enters : Enters h e c ev
  core : c₀.core = c.core.withAuth (enteredAuth h e ev)
  control : c₀.control = c.control
  unframed : Emits Unframed c c₀
  admitted : Admitted h e c₀ c₁
  quiet : Quiet (c₁.setAuthorized.sendLogonResponseAuthorized h e) c'
  unframed' : Emits Unframed (c₁.setAuthorized.sendLogonResponseAuthorized h e) c'

/-- A login request that waits for a click, for another password or for the second factor. -/
structure Waiting (h : Host) (e : Env) (c : Conn) (lr : LoginRequest) (c' : Conn) : Prop where
  latch : LatchAllows h c lr
  allowed : idWhitelistAllows h e.idWhitelist lr.myId.val = true
  core : ∃ b t, ((requestedAuth h e lr c.auth).terminal = false → t = c.auth.terminalUserToken)
    ∧ c'.core = c.core.withAuth fun a =>
      { requestedAuth h e lr a with awaiting2fa := b, terminalUserToken := t }
  control : c'.control = c.control
  emits : Emits NoHandshake c c'

/-- What a login event does to a connection that is not yet authorized. -/
inductive LoginOutcome (h : Host) (e : Env) (c : Conn) (ev : Event) (r : Conn × Bool) : Prop where
  | unchanged (hquiet : Quiet c r.1) (hplain : Emits Plain c r.1) (hev : ¬ ev.IsLoginRequest)
  | refused (hend : r.2 = false) (hun : r.1.auth.authorized = false)
      (hid : r.1.auth.authedConnId = c.auth.authedConnId) (hctl : r.1.control = c.control)
      (hsocket : r.1.portForwardSocket = c.portForwardSocket) (hemit : Emits NoHandshake c r.1)
  | waits (lr : LoginRequest) (hev : ev = .message (some (.loginRequest lr)))
      (hwait : Waiting h e c lr r.1)
  | approved (c₀ c₁ : Conn) (happ : Approved h e c ev c₀ c₁ r.1)

variable {h : Host} {e : Env} {c : Conn}

theorem LoginOutcome.of_refused {ev : Event} {r : Conn × Bool} {c₀ c' : Conn} {f : Auth → Auth}
    (hend : r.2 = false) (hcore : c₀.core = c.core.withAuth f)
    (hf : ∀ a, (f a).authorized = a.authorized ∧ (f a).authedConnId = a.authedConnId)
    (hctl : c₀.control = c.control) (hemit : Emits Unframed c c₀)
    (hun : c.auth.authorized = false) (href : Refused c₀ c') (hq : Quiet c' r.1)
    (hemit' : Emits Unframed c' r.1) :
  LoginOutcome h e c ev r
  := by
  obtain ⟨t, a, hrcore⟩ := href.core
  have hauth : r.1.auth = _ := (auth_eq_of_core hq.1).trans (congrArg Core.auth hrcore)
  have hauth₀ : c₀.core.auth = f c.auth := congrArg Core.auth hcore
  apply LoginOutcome.refused hend
  · rw [hauth]
    change c₀.core.auth.authorized = false
    rw [hauth₀, (hf _).1, hun]
  · rw [hauth]
    change c₀.core.auth.authedConnId = _
    rw [hauth₀, (hf _).2]
  · rw [hq.2, href.control, hctl]
  · apply (congrArg Core.portForwardSocket (hq.1.trans hrcore)).trans
    apply congrArg Core.portForwardSocket hcore
  · apply ((hemit.mono fun _ hx => hx.noHandshake).trans href.emits).trans
    apply hemit'.mono fun _ hx => hx.noHandshake

theorem requestedAuth_authorized (lr : LoginRequest) (a : Auth) :
  (requestedAuth h e lr a).authorized = a.authorized
    ∧ (requestedAuth h e lr a).authedConnId = a.authedConnId
  := by
  unfold requestedAuth scopedAuth
  rcases lr.union with _ | (_ | _ | _ | _ | _) <;> exact ⟨rfl, rfl⟩

theorem enteredAuth_authorized (ev : Event) (a : Auth) :
  (enteredAuth h e ev a).authorized = a.authorized
    ∧ (enteredAuth h e ev a).authedConnId = a.authedConnId
  := by
  unfold enteredAuth
  split
  · apply requestedAuth_authorized
  · exact ⟨rfl, rfl⟩
  · exact ⟨rfl, rfl⟩

/-- A login whose second factor is settled is refused or approved. -/
theorem loginOutcome_logonAndStartCm {ev : Event} {r : Conn × Bool} {c₀ : Conn}
    {lr : LoginRequest} (hun : c.auth.authorized = false) (henters : Enters h e c ev)
    (hcore : c₀.core = c.core.withAuth (enteredAuth h e ev)) (hctl : c₀.control = c.control)
    (hemit : Emits Unframed c c₀) (hask : c₀.asks2fa h e = false)
    (hend : (c₀.logonAndStartCm h e lr).2 = false → r.2 = false)
    (hq : Quiet (c₀.logonAndStartCm h e lr).1 r.1)
    (hemit' : Emits Unframed (c₀.logonAndStartCm h e lr).1 r.1) :
  LoginOutcome h e c ev r
  := by
  have hun₀ : c₀.auth.authorized = false := by
    have hauth : c₀.auth = _ := congrArg Core.auth hcore
    rw [hauth]
    change (enteredAuth h e ev c.auth).authorized = false
    rw [(enteredAuth_authorized ev c.auth).1, hun]
  rcases c₀.logonAndStartCm_cases h e lr hun₀ with
    ⟨hask', -⟩ | ⟨-, hf, href⟩ | ⟨-, c₁, hadm, heq⟩
  · exact absurd (hask'.symm.trans hask) Bool.noConfusion
  · apply LoginOutcome.of_refused (hend hf) hcore (enteredAuth_authorized ev) hctl hemit hun href
      hq hemit'
  · rw [heq] at hq hemit'
    have hcm : Emits Unframed (c₁.setAuthorized.sendLogonResponseAuthorized h e)
        ((c₁.setAuthorized.sendLogonResponseAuthorized h e).tryStartCm lr.myId lr.myName
          (c₁.setAuthorized.sendLogonResponseAuthorized h e).auth.authorized) :=
      (Emits.refl _).emit (by rfl)
    apply LoginOutcome.approved c₀ c₁
    exact ⟨henters, hcore, hctl, hemit, hadm, Quiet.trans ⟨by simp, by simp⟩ hq, hcm.trans hemit'⟩

theorem Prepared.enters {lr : LoginRequest} {c₁ : Conn} (hp : Prepared h e c lr c₁) :
  Enters h e c (.message (some (.loginRequest lr)))
  := by
  constructor
  · intro lr' hev
    cases hev
    exact hp.latch
  · intro sr hev
    cases hev

/-- A login request on a waiting connection. -/
theorem loginOutcome_onLoginRequest (lr : LoginRequest) (hun : c.auth.authorized = false)
    {r : Conn × Bool} (hr : r.1 = (c.onLoginRequest h e lr).1)
    (hend : (c.onLoginRequest h e lr).2 = false → r.2 = false) :
  LoginOutcome h e c (.message (some (.loginRequest lr))) r
  := by
  rcases c.onLoginRequest_cases h e lr hun with ⟨hf, hunap⟩ | ⟨c₁, hp, heq⟩
  · rw [← hr] at hunap
    apply LoginOutcome.refused (hend hf) (hunap.authorized.trans hun) hunap.authedConnId
      hunap.control hunap.socket hunap.emits
  rw [heq] at hr hend
  have hauth₁ : c₁.auth = requestedAuth h e lr c.auth := congrArg Core.auth hp.core
  have hun₁ : c₁.auth.authorized = false := by
    rw [hauth₁, (requestedAuth_authorized lr c.auth).1, hun]
  have hemit₁ := hp.unframed.mono fun _ hx => hx.noHandshake
  have hwaits {c' : Conn} {b : Bool} (t : Option TerminalUserToken)
      (ht : c₁.auth.terminal = false → t = c₁.auth.terminalUserToken)
      (hcore : c'.core = c₁.core.withAuth fun a =>
        { a with awaiting2fa := b, terminalUserToken := t })
      (hctl : c'.control = c₁.control) (hemit : Emits NoHandshake c₁ c') :
      Waiting h e c lr c' := by
    refine ⟨hp.latch, hp.allowed, ⟨b, t, ?_, ?_⟩, hctl.trans hp.control, hemit₁.trans hemit⟩
    · intro hterm
      rw [ht (by rw [hauth₁]; exact hterm), hauth₁]
      apply scopedAuth_terminalUserToken
    · rw [hcore, hp.core]
      rfl
  rcases c₁.approveLogin_cases h e hp.gate.1 with
    ⟨⟨hctl, t, hcore⟩, htoken, hemit⟩ | ⟨-, -, c₂, hq, hemit, heq₂⟩
  · rw [← hr] at hctl hcore htoken hemit
    apply LoginOutcome.waits lr rfl
    refine hwaits (b := c₁.auth.awaiting2fa) t ?_ hcore hctl hemit
    intro hterm
    have ht : r.1.auth.terminalUserToken = t := congrArg (fun k => k.auth.terminalUserToken) hcore
    rw [← ht, htoken hterm]
  · rw [heq₂] at hr hend
    cases hask : c₂.asks2fa h e with
    | false =>
        apply loginOutcome_logonAndStartCm hun hp.enters (hq.1.trans hp.core)
          (hq.2.trans hp.control) (hp.unframed.trans hemit) hask hend
        · rw [hr]
          apply quiet_refl
        · rw [hr]
          apply Emits.refl
    | true =>
        have hun₂ : c₂.auth.authorized = false := by
          rw [auth_eq_of_core hq.1, hun₁]
        rcases c₂.logonAndStartCm_cases h e lr hun₂ with
          ⟨-, hctl, hcore, hemit₂⟩ | ⟨hask', -⟩ | ⟨hask', -⟩
        · rw [← hr] at hctl hcore hemit₂
          apply LoginOutcome.waits lr rfl
          refine hwaits (b := true) c₁.auth.terminalUserToken (fun _ => rfl) ?_
            (hctl.trans hq.2) ((hemit.mono fun _ hx => hx.noHandshake).trans hemit₂)
          rw [hcore, hq.1]
          rfl
        · exact absurd (hask.symm.trans hask') Bool.noConfusion
        · exact absurd (hask.symm.trans hask') Bool.noConfusion

/-- An `Authorize` on a waiting connection. -/
theorem loginOutcome_onAuthorize (hun : c.auth.authorized = false) :
  LoginOutcome h e c (.cm .authorize) (c.onAuthorize h e)
  := by
  have henters : Enters h e c (.cm .authorize) := by
    constructor
    · intro lr hev
      cases hev
    · intro sr hev
      cases hev
  rw [onAuthorize]
  generalize hc₀ : (c.withAuth fun a => { a with require2fa := false }) = c₀
  have hcore : c₀.core = c.core.withAuth (enteredAuth h e (.cm .authorize)) := by
    rw [← hc₀]
    rfl
  have hctl : c₀.control = c.control := by
    rw [← hc₀]
    rfl
  have hemit : Emits Unframed c c₀ := by
    rw [← hc₀]
    apply (Emits.refl c).withAuth
  have hask : c₀.asks2fa h e = false := by
    rw [← hc₀]
    rfl
  have hun₀ : c₀.auth.authorized = false := by
    rw [← hc₀]
    exact hun
  rcases c₀.sendLogonResponseAndKeepAlive_cases h e hun₀ with
    ⟨hask', -⟩ | ⟨-, hf, href⟩ | ⟨-, c₁, hadm, heq⟩
  · exact absurd (hask'.symm.trans hask) Bool.noConfusion
  · rcases andThen_cases (c₀.sendLogonResponseAndKeepAlive h e) _ with ⟨-, heq⟩ | ⟨ht, -⟩
    · rw [heq]
      apply LoginOutcome.of_refused hf hcore (enteredAuth_authorized _) hctl hemit hun href
      · apply quiet_refl
      · apply Emits.refl
    · exact absurd (hf.symm.trans ht) Bool.noConfusion
  · rw [heq, andThen_true]
    apply LoginOutcome.approved c₀ c₁
    exact ⟨henters, hcore, hctl, hemit, hadm, quiet_refl _, Emits.refl _⟩

/-- An `Auth2fa` on a waiting connection. -/
theorem loginOutcome_onAuth2fa (tfa : Auth2fa) (hun : c.auth.authorized = false)
    {r : Conn × Bool} (hr : r.1 = (c.onAuth2fa h e tfa).1)
    (hend : (c.onAuth2fa h e tfa).2 = false → r.2 = false) :
  LoginOutcome h e c (.message (some (.auth2fa tfa))) r
  := by
  rcases c.onAuth2fa_cases h e tfa with
    ⟨hq, hplain⟩ | ⟨-, -, c₀, hcore, hctl, hemit, hkeep, hq, hemit'⟩
  · rw [← hr] at hq hplain
    apply LoginOutcome.unchanged hq hplain
    rintro ⟨lr, hlr⟩
    cases hlr
  · have henters : Enters h e c (.message (some (.auth2fa tfa))) := by
      constructor
      · intro lr hev
        cases hev
      · intro sr hev
        cases hev
    have hask : c₀.asks2fa h e = false := by
      have hauth : c₀.auth = _ := congrArg Core.auth hcore
      rw [asks2fa, hauth]
      rfl
    rw [← hr] at hq hemit'
    apply loginOutcome_logonAndStartCm hun henters hcore hctl hemit hask _ hq hemit'
    intro hf
    apply hend
    rw [hkeep, hf]

/-- A `SwitchSidesResponse` on a waiting connection. -/
theorem loginOutcome_onSwitchSidesResponse (sr : SwitchSidesResponse)
    (hun : c.auth.authorized = false)
    {r : Conn × Bool} (hr : r.1 = (c.onSwitchSidesResponse h e sr).1)
    (hend : (c.onSwitchSidesResponse h e sr).2 = false → r.2 = false) :
  LoginOutcome h e c (.message (some (.switchSidesResponse sr))) r
  := by
  rcases c.onSwitchSidesResponse_cases h e sr with
    ⟨hq, hplain⟩ | ⟨hf, hunap⟩ | ⟨lr, c₀, hacc, hcore, hctl, hemit, hkeep, hq, hemit'⟩
  · rw [← hr] at hq hplain
    apply LoginOutcome.unchanged hq hplain
    rintro ⟨lr, hlr⟩
    cases hlr
  · rw [← hr] at hunap
    apply LoginOutcome.refused (hend hf) (hunap.authorized.trans hun) hunap.authedConnId
      hunap.control hunap.socket hunap.emits
  · have henters : Enters h e c (.message (some (.switchSidesResponse sr))) := by
      constructor
      · intro lr hev
        cases hev
      · intro sr' hev
        cases hev
        exact ⟨lr, hacc⟩
    obtain ⟨uuid, lr'⟩ := sr
    obtain rfl : lr' = some lr := hacc.lr_eq
    have hask : c₀.asks2fa h e = false := by
      have hauth : c₀.auth = _ := congrArg Core.auth hcore
      rw [asks2fa, hauth]
      simp [Core.withAuth, switchedAuth]
    rw [← hr] at hq hemit'
    apply loginOutcome_logonAndStartCm hun henters hcore hctl hemit hask _ hq hemit'
    intro hf
    apply hend
    rw [hkeep, hf]

/-- A login event on a waiting connection. -/
theorem loginOutcome_onEvent {ev : Event} (hun : c.auth.authorized = false)
    (hev : ev.isLogin = true) :
  LoginOutcome h e c ev (c.onEvent h e ev)
  := by
  have hend (msg : Message) (hmsg : isLoginMessage msg = true)
      (hf : (c.dispatch h e msg).2 = false) : (c.onEvent h e (.message msg)).2 = false := by
    by_contra ht
    have hkeep := (c.onEvent_loginMessage h e hun hmsg).2 (Bool.not_eq_false _ ▸ ht)
    exact absurd (hf.symm.trans hkeep) Bool.noConfusion
  rcases Event.isLogin_cases hev with rfl | ⟨lr, rfl⟩ | ⟨tfa, rfl⟩ | ⟨sr, rfl⟩
  · apply loginOutcome_onAuthorize hun
  · apply loginOutcome_onLoginRequest lr hun
    · apply (c.onEvent_loginMessage h e hun rfl).1
    · apply hend (some (.loginRequest lr)) rfl
  · apply loginOutcome_onAuth2fa tfa hun
    · apply (c.onEvent_loginMessage h e hun rfl).1
    · apply hend (some (.auth2fa tfa)) rfl
  · apply loginOutcome_onSwitchSidesResponse sr hun
    · apply (c.onEvent_loginMessage h e hun rfl).1
    · apply hend (some (.switchSidesResponse sr)) rfl

/-- The turn that authorizes a connection is a login that was approved. -/
theorem approved_of_authorized {ev : Event} (hun : c.auth.authorized = false)
    (hauth : (c.onEvent h e ev).1.auth.authorized = true) :
  ev.isLogin = true ∧ ∃ c₀ c₁, Approved h e c ev c₀ c₁ (c.onEvent h e ev).1
  := by
  cases hev : ev.isLogin with
  | false =>
      rw [(c.keeps_onEvent h e hev).1, hun] at hauth
      cases hauth
  | true =>
      apply And.intro rfl
      rcases loginOutcome_onEvent (h := h) (e := e) hun hev with
        ⟨hq, -, -⟩ | ⟨-, hun', -, -, -, -⟩ | ⟨lr, -, hwait⟩ | ⟨c₀, c₁, happ⟩
      · rw [auth_eq_of_core hq.1, hun] at hauth
        cases hauth
      · exact absurd (hun'.symm.trans hauth) Bool.noConfusion
      · obtain ⟨b, t, -, hcore⟩ := hwait.core
        have hkept : (c.onEvent h e ev).1.auth.authorized = c.auth.authorized :=
          (congrArg (fun k => k.auth.authorized) hcore).trans
            (requestedAuth_authorized (h := h) (e := e) lr c.auth).1
        rw [hkept, hun] at hauth
        cases hauth
      · use c₀, c₁

/-! ### The type of the session -/

/-- The connection is authorized for the session that its scope describes. -/
def Typed (c : Conn) : Prop := c.authedConnType = some c.authConnTypeOnLogin

theorem authConnTypeOnLogin_of_core {c c' : Conn} (hcore : c'.core = c.core) :
  c'.authConnTypeOnLogin = c.authConnTypeOnLogin
  := by
  unfold authConnTypeOnLogin
  rw [auth_eq_of_core hcore, isPortForward_eq_of_core hcore]

theorem Typed.of_core {c c' : Conn} (ht : Typed c) (hcore : c'.core = c.core) :
  Typed c'
  := by
  rw [Typed, authedConnType]
  rw [authConnTypeOnLogin_of_core hcore, auth_eq_of_core hcore]
  apply ht

/-- An approved connection is authorized for the session its scope describes. -/
theorem Approved.typed {ev : Event} {c₀ c₁ c' : Conn} (happ : Approved h e c ev c₀ c₁ c') :
  c'.auth.authorized = true ∧ Typed c'
  := by
  obtain ⟨sid, -, hsid⟩ := c₁.core_setAuthorized_sendLogonResponseAuthorized h e
  have hcore := happ.quiet.1.trans hsid
  have hauth : c'.auth = _ := congrArg Core.auth hcore
  constructor
  · rw [hauth]
    rfl
  · rw [Typed, authedConnType]
    rw [hauth]
    apply congrArg some
    have hpf : c'.isPortForward = c₁.isPortForward := congrArg Core.isPortForward hcore
    rw [authConnTypeOnLogin, authConnTypeOnLogin, hauth, hpf]
    rfl

/-- What a login event leaves of a session. -/
structure SessionKept (c : Conn) (r : Conn × Bool) : Prop where
  authorized : r.1.auth.authorized = c.auth.authorized
  authedConnId : r.1.auth.authedConnId = c.auth.authedConnId
  token : r.1.auth.terminalUserToken = c.auth.terminalUserToken
  control : r.1.control = c.control
  typed : r.2 = true → Typed c → Typed r.1

theorem SessionKept.of_quiet {c' : Conn} {b : Bool} (hq : Quiet c c') :
  SessionKept c (c', b)
  := by
  have hauth := auth_eq_of_core hq.1
  constructor
  · rw [hauth]
  · rw [hauth]
  · rw [hauth]
  · apply hq.2
  · intro _ ht
    apply ht.of_core hq.1

theorem SessionKept.of_keeps {r : Conn × Bool} (hk : Keeps c r) (hctl : r.1.control = c.control) :
  SessionKept c r
  := by
  constructor
  · rw [hk.1]
  · rw [hk.1]
  · rw [hk.1]
  · apply hctl
  · intro ht htyped
    apply htyped.of_core (hk.core ht)

theorem sessionKept_onAuth2fa (tfa : Auth2fa) (hauth : c.auth.authorized = true) :
  SessionKept c (c.onAuth2fa h e tfa)
  := by
  rcases c.onAuth2fa_cases h e tfa with
    ⟨hq, -⟩ | ⟨-, -, c₁, hcore, hctl, -, -, hq, -⟩
  · apply SessionKept.of_quiet hq
  · have hauth₁ : c₁.auth = { c.auth with require2fa := false } := congrArg Core.auth hcore
    have hq := (c₁.quiet_logonAndStartCm_of_authorized h e c₁.auth.lr
      (by rw [hauth₁]; exact hauth)).trans hq
    have hauth' := (auth_eq_of_core hq.1).trans hauth₁
    constructor
    · rw [hauth']
    · rw [hauth']
    · rw [hauth']
    · rw [hq.2, hctl]
    · intro _ ht
      refine Typed.of_core ?_ hq.1
      have hpf : c₁.isPortForward = c.isPortForward := congrArg Core.isPortForward hcore
      rw [Typed, authedConnType, authConnTypeOnLogin] at ht ⊢
      rw [hauth₁, hpf]
      exact ht

/-- An authorized peer that switches sides has a remote session, and keeps it. -/
theorem sessionKept_onSwitchSidesResponse (sr : SwitchSidesResponse)
    (hauth : c.auth.authorized = true) (hremote : c.authedConnType = some .remote) :
  SessionKept c (c.onSwitchSidesResponse h e sr)
  := by
  rcases c.onSwitchSidesResponse_cases h e sr with
    ⟨hq, -⟩ | ⟨hf, hunap⟩ | ⟨lr, c₁, -, hcore, hctl, -, -, hq, -⟩
  · apply SessionKept.of_quiet hq
  · refine ⟨hunap.authorized, hunap.authedConnId, hunap.token, hunap.control, ?_⟩
    intro ht
    exact absurd (hf.symm.trans ht) Bool.noConfusion
  · have hauth₁ : c₁.auth = switchedAuth e lr c.auth := congrArg Core.auth hcore
    have hq := (c₁.quiet_logonAndStartCm_of_authorized h e lr (by rw [hauth₁]; exact hauth)).trans hq
    have hauth' := (auth_eq_of_core hq.1).trans hauth₁
    constructor
    · rw [hauth']
      rfl
    · rw [hauth']
      rfl
    · rw [hauth']
      rfl
    · rw [hq.2, hctl]
    · intro _ ht
      refine Typed.of_core ?_ hq.1
      have hpf : c₁.isPortForward = c.isPortForward := congrArg Core.isPortForward hcore
      have hno : c.isPortForward = false := by
        rw [Typed] at ht
        rw [hremote] at ht
        rw [authConnTypeOnLogin] at ht
        by_contra hpf
        simp only [Bool.not_eq_false] at hpf
        rw [hpf] at ht
        split at ht <;> cases ht
      rw [Typed, authedConnType, authConnTypeOnLogin]
      rw [hauth₁, hpf, hno]
      exact hremote

theorem control_handleAuthorizedScopeViolation (message : String) :
  (c.handleAuthorizedScopeViolation h e message).1.control = c.control
  := by
  unfold handleAuthorizedScopeViolation
  dsimp only
  split_ifs
  · simp [sendCloseReasonNoRetry]
  · rfl

/-- A login message on an authorized connection, but for a login request, is judged by the scope
of the session first. -/
theorem sessionKept_message {msg : Message} (hauth : c.auth.authorized = true)
    (hclose : isCloseReason msg = false) (hrequest : isLoginRequest msg = false)
    (hdispatch : c.authorizedScopeViolation h msg = none → SessionKept c (c.dispatch h e msg)) :
  SessionKept c (c.onEvent h e (.message msg))
  := by
  obtain ⟨hfst, hsnd⟩ := c.onEvent_message h e msg
  have hkept : SessionKept c (c.onMessage h e msg) := by
    rw [onMessage]
    rw [hclose, hrequest, hauth]
    simp only [Bool.and_false, Bool.false_eq_true, if_false, if_true]
    split
    · apply SessionKept.of_keeps
      · apply keeps_handleAuthorizedScopeViolation
      · apply control_handleAuthorizedScopeViolation
    · apply hdispatch
      assumption
  constructor
  · rw [hfst, hkept.authorized]
  · rw [hfst, hkept.authedConnId]
  · rw [hfst, hkept.token]
  · rw [hfst, hkept.control]
  · intro ht
    rw [hfst]
    apply hkept.typed (hsnd ht)

/-- Only a remote session may switch sides. -/
theorem authedConnType_of_switchSidesResponse {sr : SwitchSidesResponse}
    (hscope : c.authorizedScopeViolation h (some (.switchSidesResponse sr)) = none) :
  c.authedConnType = some .remote
  := by
  rw [authorizedScopeViolation] at hscope
  split at hscope
  · cases hscope
  · rename_i connType htype
    rw [htype]
    cases connType
    · rfl
    all_goals cases hscope

/-- A login event on an authorized connection keeps the session. -/
theorem sessionKept_loginEvent {ev : Event} (hauth : c.auth.authorized = true)
    (hev : ev.isLogin = true) :
  SessionKept c (c.onEvent h e ev)
  := by
  rcases Event.isLogin_cases hev with rfl | ⟨lr, rfl⟩ | ⟨tfa, rfl⟩ | ⟨sr, rfl⟩
  · have heq : c.onEvent h e (.cm .authorize)
        = (c.withAuth fun a => { a with require2fa := false }, !c.portForwardSocket) := by
      change c.onAuthorize h e = _
      have hauth' : (c.withAuth fun a => { a with require2fa := false }).auth.authorized = true :=
        hauth
      rw [onAuthorize, sendLogonResponseAndKeepAlive, if_pos hauth', andThen_true]
      rfl
    rw [heq]
    exact ⟨rfl, rfl, rfl, rfl, fun _ ht => ht⟩
  · have heq : c.onMessage h e (some (.loginRequest lr)) = (c, true) := by
      simp [onMessage, isCloseReason, isLoginRequest, hauth]
    obtain ⟨hfst, -⟩ := c.onEvent_message h e (some (.loginRequest lr))
    rw [heq] at hfst
    constructor
    · rw [hfst]
    · rw [hfst]
    · rw [hfst]
    · rw [hfst]
    · intro _ ht
      rw [hfst]
      exact ht
  · apply sessionKept_message hauth rfl rfl
    intro _
    apply sessionKept_onAuth2fa tfa hauth
  · apply sessionKept_message hauth rfl rfl
    intro hscope
    apply sessionKept_onSwitchSidesResponse sr hauth
    apply authedConnType_of_switchSidesResponse hscope

end Conn

/-! ### Runs -/

/-- What holds of the connection of every reachable loop: before it is authorized it has no type
of session, and no tunnel while the loop runs; afterwards its type is that of its scope. -/
structure Sound (s : Loop) : Prop where
  idle : s.conn.auth.authorized = false → s.conn.auth.authedConnId = none
  closed : s.running = true → s.conn.auth.authorized = false → s.conn.isPortForward = false
  typed : s.running = true → s.conn.auth.authorized = true → s.conn.Typed

section Sound

variable {h : Host} {s s₀ : Loop} {e : Env} {ev : Event}

theorem Sound.other (hs : Sound s) (hrunning : s.running = true) (hev : ev.isLogin = false) :
  Sound (s.next h e ev)
  := by
  obtain ⟨hauth, hcore, -⟩ := s.conn.clear.keeps_onEvent h e hev
  have hauth : (s.next h e ev).conn.auth = s.conn.auth := hauth
  constructor
  · rw [hauth]
    apply hs.idle
  · intro hrun hun
    rw [hauth] at hun
    rw [← hs.closed hrunning hun]
    apply Conn.isPortForward_eq_of_core (hcore hrun)
  · intro hrun hauthd
    rw [hauth] at hauthd
    apply Conn.Typed.of_core (c := s.conn.clear) (hs.typed hrunning hauthd) (hcore hrun)

theorem Sound.waiting (hs : Sound s) (hrunning : s.running = true) (hev : ev.isLogin = true)
    (hun : s.conn.auth.authorized = false) :
  Sound (s.next h e ev)
  := by
  have hid := hs.idle hun
  have hpf := hs.closed hrunning hun
  rcases Conn.loginOutcome_onEvent (h := h) (e := e) (c := s.conn.clear) hun hev with
    ⟨hq, -, -⟩ | ⟨hend, hun', hid', -, -, -⟩ | ⟨lr, -, hwait⟩ | ⟨c₀, c₁, happ⟩
  · have hauth : (s.next h e ev).conn.auth = s.conn.auth := Conn.auth_eq_of_core hq.1
    constructor
    · intro _
      rw [hauth, hid]
    · intro _ _
      rw [← hpf]
      apply Conn.isPortForward_eq_of_core hq.1
    · intro _ hauthd
      rw [hauth, hun] at hauthd
      cases hauthd
  · constructor
    · intro _
      apply hid'.trans hid
    · intro hrun
      exact absurd (hend.symm.trans hrun) Bool.noConfusion
    · intro hrun
      exact absurd (hend.symm.trans hrun) Bool.noConfusion
  · obtain ⟨b, t, -, hcore⟩ := hwait.core
    have hauth : (s.next h e ev).conn.auth = _ := congrArg Core.auth hcore
    have hrequested := Conn.requestedAuth_authorized (h := h) (e := e) lr s.conn.auth
    constructor
    · intro _
      rw [hauth]
      apply hrequested.2.trans hid
    · intro _ _
      rw [← hpf]
      apply congrArg Core.isPortForward hcore
    · intro _ hauthd
      rw [hauth] at hauthd
      exact absurd ((hrequested.1.trans hun).symm.trans hauthd) Bool.noConfusion
  · obtain ⟨hauthd, htyped⟩ := happ.typed
    constructor
    · intro hun'
      exact absurd (hun'.symm.trans hauthd) Bool.noConfusion
    · intro _ hun'
      exact absurd (hun'.symm.trans hauthd) Bool.noConfusion
    · intro _ _
      apply htyped

/-- Every turn of the loop keeps its soundness. -/
theorem Sound.next (hs : Sound s) (hrunning : s.running = true) :
  Sound (s.next h e ev)
  := by
  cases hev : ev.isLogin with
  | false => apply hs.other hrunning hev
  | true =>
      cases hauth : s.conn.auth.authorized with
      | false => apply hs.waiting hrunning hev hauth
      | true =>
          have hkept := Conn.sessionKept_loginEvent (h := h) (e := e) (c := s.conn.clear) hauth hev
          constructor
          · intro hun
            exact absurd (hun.symm.trans (hkept.authorized.trans hauth)) Bool.noConfusion
          · intro _ hun
            exact absurd (hun.symm.trans (hkept.authorized.trans hauth)) Bool.noConfusion
          · intro hrun _
            apply hkept.typed hrun
            apply hs.typed hrunning hauth

theorem sound_of_isStart (hstart : s₀.IsStart h) :
  Sound s₀
  := by
  obtain ⟨e, id, salt, challenge, c, hopen, rfl⟩ := hstart
  have hcore := Conn.core_onOpen h e _ hopen
  have hauth : c.auth = { require2fa := e.get2fa } := Conn.auth_eq_of_core hcore
  constructor
  · intro _
    rw [hauth]
  · intro _ _
    apply Conn.isPortForward_eq_of_core hcore
  · intro _ hauthd
    rw [hauth] at hauthd
    cases hauthd

/-- Every reachable loop is sound. -/
theorem sound_of_run {hist : History} (hstart : s₀.IsStart h)
    (hrun : Run (Loop.Step h) s₀ hist s) :
  Sound s
  := by
  apply Run.invariant Sound (sound_of_isStart hstart) _ hrun
  rintro s ⟨e, ev⟩ s' hs ⟨hrunning, -, rfl⟩
  apply hs.next hrunning

end Sound

end VynxDesk
