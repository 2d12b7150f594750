import VynxDesk.Connection.TerminalToken
import VynxDesk.Lib.PrefixCode

/-!
# The scope of the first login

The bytes that `login_scope_digest` hashes determine who logs in and the scope of the session, so
a connection whose hash function is injective keeps the scope of its first login request: every
other request before the connection is authorized ends it, and a password, a second factor or a
click authorizes the scope of the first request.
-/

namespace VynxDesk

/-! ### The hashed bytes -/

/-- The scope of a union.  A variant this build does not know is remote. -/
def LoginUnion.scope : Option LoginUnion → Option LoginUnion
  | some .unknown => none
  | union => union

/-- The scope a login request asks for: file transfer, camera, terminal or port forward with all of
its fields, or `none` for remote. -/
def LoginRequest.scope (lr : LoginRequest) : Option LoginUnion := LoginUnion.scope lr.union

/-- A field can be read off its length and its bytes. -/
theorem prefixFreeOn_pushBytes :
  PrefixFreeOn pushBytes { field | field.length < 256 ^ 8 }
  := by
  apply PrefixFreeOn.lengthPrefixed
  apply PrefixFreeOn.of_length 8 _ (injOn_leBytes 8)
  intro n _
  apply length_leBytes

theorem pushBytes_ne_nil (field : Bytes) :
  pushBytes field ≠ []
  := by
  intro hnil
  have hlen := congrArg List.length hnil
  rw [pushBytes, List.length_append, length_leBytes, List.length_nil] at hlen
  omega

theorem Str.length_bytes_lt (s : Str) :
  s.bytes.length < 256 ^ 8
  := by
  have hsize : s.bytes.length = s.val.utf8ByteSize := String.size_toByteArray
  have hlt := s.size_lt
  rw [hsize]
  omega

theorem Str.bytes_injective :
  Function.Injective Str.bytes
  := by
  rintro ⟨s, hs⟩ ⟨s', hs'⟩ heq
  have hval : s = s' := by
    apply String.toByteArray_inj.mp
    apply ByteArray.ext
    apply Array.toList_inj.mp heq
  subst hval
  rfl

theorem boolByte_injective :
  Function.Injective boolByte
  := by
  intro b b'
  cases b <;> cases b' <;> simp [boolByte]

/-- The fields of a scope are short enough for their lengths. -/
theorem length_loginScopeFields (union : Option LoginUnion) :
  ∀ field ∈ loginScopeFields union, field.length < 256 ^ 8
  := by
  rcases union with _ | (ft | _ | t | pf | _)
  all_goals
    simp only [loginScopeFields, List.forall_mem_cons, List.not_mem_nil, false_implies,
      implies_true, and_true]
  · decide
  · refine ⟨by decide, ft.dir.length_bytes_lt, ?_⟩
    cases ft.showHidden <;> decide
  · decide
  · exact ⟨by decide, t.serviceId.length_bytes_lt⟩
  · refine ⟨by decide, pf.host.length_bytes_lt, ?_, ?_⟩
    · rw [length_leBytes]
      decide
    · cases pf.multiplex <;> decide
  · decide

theorem loginScopeFields_scope (union : Option LoginUnion) :
  loginScopeFields (LoginUnion.scope union) = loginScopeFields union
  := by
  rcases union with _ | (_ | _ | _ | _ | _) <;> rfl

theorem scope_ne_unknown (union : Option LoginUnion) :
  LoginUnion.scope union ≠ some .unknown
  := by
  rcases union with _ | (_ | _ | _ | _ | _) <;> simp [LoginUnion.scope]

/-- The fields that are hashed determine the scope: their number tells the kinds apart, but for
the camera and the remote session, whose names differ. -/
theorem injOn_loginScopeFields :
  Set.InjOn loginScopeFields { union | union ≠ some .unknown }
  := by
  have hname : utf8 "view_camera" ≠ utf8 "remote" := by decide
  intro union hne union' hne' heq
  have hlength := congrArg List.length heq
  rcases union with _ | (ft | _ | t | pf | _) <;>
    rcases union' with _ | (ft' | _ | t' | pf' | _) <;> try cases hlength
  · rfl
  · exact absurd (List.cons.inj heq).1.symm hname
  · exact absurd rfl hne'
  · obtain ⟨dir, showHidden⟩ := ft
    obtain ⟨dir', showHidden'⟩ := ft'
    simp only [loginScopeFields, List.cons.injEq, and_true, true_and] at heq
    rw [Str.bytes_injective heq.1, boolByte_injective heq.2]
  · exact absurd (List.cons.inj heq).1 hname
  · rfl
  · exact absurd rfl hne'
  · obtain ⟨serviceId⟩ := t
    obtain ⟨serviceId'⟩ := t'
    simp only [loginScopeFields, List.cons.injEq, and_true, true_and] at heq
    rw [Str.bytes_injective heq]
  · obtain ⟨host, port, multiplex⟩ := pf
    obtain ⟨host', port', multiplex'⟩ := pf'
    simp only [loginScopeFields, List.cons.injEq, and_true, true_and] at heq
    have hport : port.toNat = port'.toNat := injOn_leBytes 4 port.isLt port'.isLt heq.2.1
    rw [Str.bytes_injective heq.1, BitVec.eq_of_toNat_eq hport, boolByte_injective heq.2.2]
  · exact absurd rfl hne
  · exact absurd rfl hne
  · exact absurd rfl hne

/-- The hashed bytes of two login requests are equal exactly when their peers and their scopes
are. -/
theorem loginScopeBytes_eq_iff (lr lr' : LoginRequest) :
  loginScopeBytes lr = loginScopeBytes lr' ↔ lr.myId = lr'.myId ∧ lr.scope = lr'.scope
  := by
  have hshort (lr : LoginRequest) :
      ∀ field ∈ lr.myId.bytes :: loginScopeFields lr.union, field.length < 256 ^ 8 := by
    rw [List.forall_mem_cons]
    apply And.intro lr.myId.length_bytes_lt (length_loginScopeFields _)
  constructor
  · intro heq
    have hfields := prefixFreeOn_pushBytes.injOn_flatMap (fun field _ => pushBytes_ne_nil field)
      (hshort lr) (hshort lr') heq
    obtain ⟨hid, hfields⟩ := List.cons.inj hfields
    constructor
    · apply Str.bytes_injective hid
    · apply injOn_loginScopeFields (scope_ne_unknown _) (scope_ne_unknown _)
      rw [loginScopeFields_scope, loginScopeFields_scope, hfields]
  · rintro ⟨hid, hscope⟩
    rw [loginScopeBytes, loginScopeBytes, hid, ← loginScopeFields_scope lr.union,
      ← loginScopeFields_scope lr'.union]
    rw [LoginRequest.scope, LoginRequest.scope] at hscope
    rw [hscope]

/-! ### The scope in force -/

/-- The directory a file transfer asks for, and whether it shows hidden files. -/
def LoginRequest.directory (lr : LoginRequest) : Option (String × Bool) :=
  match lr.scope with
  | some (.fileTransfer ft) => some (ft.dir.val, ft.showHidden)
  | _ => none

/-- The address a port forward asks for. -/
def LoginRequest.target (lr : LoginRequest) : String :=
  match lr.scope with
  | some (.portForward pf) => (normalizePortForwardTarget pf).1
  | _ => ""

/-- The terminal service a terminal session asks for. -/
def LoginRequest.serviceId (lr : LoginRequest) : Option String :=
  match lr.scope with
  | some (.terminal t) => some t.serviceId.val
  | _ => none

theorem requestedAuth_loginScope {h : Host} {e : Env} (lr : LoginRequest) (a : Auth) :
  (Conn.requestedAuth h e lr a).loginScope = some (loginScopeDigest h lr)
  := by
  unfold Conn.requestedAuth Conn.scopedAuth
  rcases lr.union with _ | (_ | _ | _ | _ | _) <;> rfl

/-- The peer and the scope are those of the request, but for the terminal service. -/
structure ScopeInForce (lr : LoginRequest) (a : Auth) : Prop where
  myId : a.lr.myId = lr.myId
  scope : a.lr.scope = lr.scope
  directory : a.fileTransfer = lr.directory
  target : a.portForwardAddress = lr.target
  viewCamera : a.viewCamera = true ↔ lr.scope = some .viewCamera
  terminal : a.terminal = lr.serviceId.isSome

/-- The peer and the scope are those of the request. -/
structure ScopeLatched (lr : LoginRequest) (a : Auth) : Prop where
  inForce : ScopeInForce lr a
  serviceId : ∀ sid, lr.serviceId = some sid → a.terminalServiceId = sid

theorem scopeLatched_requestedAuth {h : Host} {e : Env} (lr : LoginRequest) (a : Auth) :
  ScopeLatched lr (Conn.requestedAuth h e lr a)
  := by
  have hlr : (Conn.requestedAuth h e lr a).lr = lr := by
    unfold Conn.requestedAuth Conn.scopedAuth
    rcases lr.union with _ | (_ | _ | _ | _ | _) <;> rfl
  constructor
  · constructor
    · rw [hlr]
    · rw [hlr]
    all_goals
      rcases hunion : lr.union with _ | (ft | _ | t | pf | _) <;>
        simp [Conn.requestedAuth, Conn.scopedAuth, LoginRequest.directory, LoginRequest.target,
          LoginRequest.serviceId, LoginRequest.scope, LoginUnion.scope, hunion]
  · intro sid hsid
    rcases hunion : lr.union with _ | (ft | _ | t | pf | _)
    all_goals
      simp only [LoginRequest.serviceId, LoginRequest.scope, LoginUnion.scope, hunion,
        reduceCtorEq, Option.some.injEq] at hsid
    simp [Conn.requestedAuth, Conn.scopedAuth, hunion, hsid]

/-- The scope of a request is that of every request for the same. -/
theorem ScopeLatched.of_scope_eq {lr lr' : LoginRequest} {a : Auth} (hs : ScopeLatched lr a)
    (hid : lr.myId = lr'.myId) (hscope : lr.scope = lr'.scope) :
  ScopeLatched lr' a
  := by
  obtain ⟨⟨hid', hscope', hdir, htarget, hcamera, hterm⟩, hsid⟩ := hs
  simp only [LoginRequest.directory, LoginRequest.target, LoginRequest.serviceId, hscope]
    at hscope' hdir htarget hcamera hterm hsid
  exact ⟨⟨hid'.trans hid, hscope', hdir, htarget, hcamera, hterm⟩, hsid⟩

/-- The checks of a login that is approved keep its scope; only a terminal session without a
service gets a fresh one. -/
theorem ScopeLatched.approved {h : Host} {e : Env} {c c₀ c₁ c' : Conn} {ev : Event}
    {lr : LoginRequest} (hs : ScopeLatched lr (Conn.enteredAuth h e ev c.auth))
    (happ : Conn.Approved h e c ev c₀ c₁ c') :
  ScopeInForce lr c'.auth
    ∧ ∀ sid, lr.serviceId = some sid → c'.auth.terminalServiceId = sid
      ∨ sid.isEmpty = true ∧ c'.auth.terminalServiceId = e.generateServiceId
  := by
  have hauth₀ : c₀.auth = Conn.enteredAuth h e ev c.auth := congrArg Core.auth happ.core
  rw [← hauth₀] at hs
  obtain ⟨t, a, s, m, -, haddress, hcore₁⟩ := happ.admitted.core
  obtain ⟨sid, hfrom, hsid⟩ := c₁.core_setAuthorized_sendLogonResponseAuthorized h e
  have hauth₁ : c₁.auth = { c₀.auth with
      awaiting2fa := false, terminalUserToken := t, portForwardAddress := a } :=
    congrArg Core.auth hcore₁
  have hauth : c'.auth = { c₁.auth with
      authorized := true, authedConnId := some c₁.authConnTypeOnLogin,
      terminalServiceId := sid } := congrArg Core.auth (happ.quiet.1.trans hsid)
  obtain ⟨⟨hid, hscope, hdir, htarget, hcamera, hterm⟩, hservice⟩ := hs
  rw [hauth, hauth₁]
  constructor
  · refine ⟨hid, hscope, hdir, ?_, hcamera, hterm⟩
    rcases haddress with haddress | ⟨pf, hunion, haddress⟩
    · rw [haddress]
      exact htarget
    · rw [haddress, LoginRequest.target, ← hscope, LoginRequest.scope, hunion]
      rfl
  · intro sid' hsid'
    rw [hauth₁] at hfrom
    rw [← hservice sid' hsid']
    apply hfrom

/-! ### Runs -/

/-- The login request of an event. -/
def Event.loginRequest : Event → Option LoginRequest
  | .message (some (.loginRequest lr)) => some lr
  | _ => none

/-- The first login request of a history. -/
def firstLogin (hist : History) : Option LoginRequest :=
  hist.findSome? fun y => y.2.2.loginRequest

theorem firstLogin_snoc (hist : History) (y : Loop × Env × Event) :
  firstLogin (hist ++ [y]) = (firstLogin hist).or y.2.2.loginRequest
  := by
  rw [firstLogin, List.findSome?_append, firstLogin]
  simp

theorem firstLogin_ne_none {hist : History} {x : Loop} {e : Env} {lr : LoginRequest}
    (hlast : LastLogin hist x e lr) :
  firstLogin hist ≠ none
  := by
  obtain ⟨pre, post, rfl, -⟩ := hlast
  intro hnone
  have hlr := List.findSome?_eq_none_iff.mp hnone (x, e, .message (some (.loginRequest lr)))
    (List.mem_append_right pre List.mem_cons_self)
  cases hlr

theorem Event.loginRequest_eq_none {ev : Event} (hev : ¬ ev.IsLoginRequest) :
  ev.loginRequest = none
  := by
  unfold Event.loginRequest
  split
  · rename_i lr
    exact absurd ⟨lr, rfl⟩ hev
  · rfl

/-- What a connection that waits remembers: the scope of the first login request. -/
structure Latch (h : Host) (hist : History) (a : Auth) : Prop where
  digest : a.loginScope = (firstLogin hist).map (loginScopeDigest h)
  scope : ∀ lr, firstLogin hist = some lr → ScopeLatched lr a

section Latch

variable {h : Host} {s s' s₀ : Loop} {hist : History} {e : Env} {ev : Event}

/-- A request the latch lets through asks for the scope of the first one. -/
theorem Latch.same {c : Conn} (hinj : Function.Injective h.sha256)
    (hl : Latch h hist c.auth) {lr lr₁ : LoginRequest} (hfirst : firstLogin hist = some lr₁)
    (hallows : Conn.LatchAllows h c lr) :
  lr.myId = lr₁.myId ∧ lr.scope = lr₁.scope
  := by
  have hdigest := hl.digest
  rw [hfirst] at hdigest
  rcases hallows with hnone | hsome
  · rw [hnone] at hdigest
    cases hdigest
  · rw [hsome] at hdigest
    apply (loginScopeBytes_eq_iff lr lr₁).mp
    apply hinj
    apply Option.some.inj hdigest

/-- A request that the latch lets through leaves the scope of the first one. -/
theorem Latch.request {c : Conn} (hinj : Function.Injective h.sha256) (hl : Latch h hist c.auth)
    {lr : LoginRequest} (hallows : Conn.LatchAllows h c lr) :
  ∃ lr₁, firstLogin (hist ++ [(s, e, .message (some (.loginRequest lr)))]) = some lr₁
    ∧ loginScopeDigest h lr = loginScopeDigest h lr₁
    ∧ ScopeLatched lr₁ (Conn.requestedAuth h e lr c.auth)
  := by
  have hscope := scopeLatched_requestedAuth (h := h) (e := e) lr c.auth
  rw [firstLogin_snoc]
  cases hfirst : firstLogin hist with
  | none =>
      use lr
      exact ⟨rfl, rfl, hscope⟩
  | some lr₁ =>
      obtain ⟨hid, hsame⟩ := hl.same hinj hfirst hallows
      use lr₁
      refine ⟨rfl, ?_, hscope.of_scope_eq hid hsame⟩
      rw [loginScopeDigest, (loginScopeBytes_eq_iff lr lr₁).mpr ⟨hid, hsame⟩]
      rfl

theorem Latch.unchanged {a : Auth} (hl : Latch h hist s.conn.auth) (hauth : a = s.conn.auth)
    (hev : ¬ ev.IsLoginRequest) :
  Latch h (hist ++ [(s, e, ev)]) a
  := by
  have hfirst : firstLogin (hist ++ [(s, e, ev)]) = firstLogin hist := by
    rw [firstLogin_snoc, Event.loginRequest_eq_none hev, Option.or_none]
  constructor
  · rw [hfirst, hauth]
    apply hl.digest
  · intro lr
    rw [hfirst, hauth]
    apply hl.scope

/-- Every turn after which the connection still waits keeps the latch. -/
theorem Latch.next (hinj : Function.Injective h.sha256) (hl : Latch h hist s.conn.auth)
    (hun : s.conn.auth.authorized = false) (hrunning : (s.next h e ev).running = true)
    (hun' : (s.next h e ev).conn.auth.authorized = false) :
  Latch h (hist ++ [(s, e, ev)]) (s.next h e ev).conn.auth
  := by
  cases hev : ev.isLogin with
  | false =>
      apply hl.unchanged
      · apply (s.conn.clear.keeps_onEvent h e hev).1
      · rintro ⟨lr, rfl⟩
        cases hev
  | true =>
      rcases Conn.loginOutcome_onEvent (h := h) (e := e) (c := s.conn.clear) hun hev with
        ⟨hq, -, hnot⟩ | ⟨hend, -, -, -, -⟩ | ⟨lr, rfl, hwait⟩ | ⟨c₀, c₁, happ⟩
      · apply hl.unchanged (Conn.auth_eq_of_core hq.1) hnot
      · exact absurd (hend.symm.trans hrunning) Bool.noConfusion
      · obtain ⟨b, t, -, hcore⟩ := hwait.core
        have hauth : (s.next h e (.message (some (.loginRequest lr)))).conn.auth
            = { Conn.requestedAuth h e lr s.conn.auth with
                awaiting2fa := b, terminalUserToken := t } := congrArg Core.auth hcore
        obtain ⟨lr₁, hfirst, hdigest, hscope⟩ := Latch.request (s := s) (c := s.conn.clear) hinj hl
          hwait.latch
        rw [hauth]
        constructor
        · rw [hfirst, Option.map_some, ← hdigest]
          apply requestedAuth_loginScope
        · intro lr' hfirst'
          rw [hfirst] at hfirst'
          cases hfirst'
          obtain ⟨⟨hid, hsame, hdir, htarget, hcamera, hterm⟩, hservice⟩ := hscope
          exact ⟨⟨hid, hsame, hdir, htarget, hcamera, hterm⟩, hservice⟩
      · exact absurd (hun'.symm.trans happ.typed.1) Bool.noConfusion

/-- Every connection that waits remembers the scope of the first login request. -/
theorem latch_of_run (hinj : Function.Injective h.sha256) (hstart : s₀.IsStart h)
    (hrun : Run (Loop.Step h) s₀ hist s) :
  s.running = true → s.conn.auth.authorized = false → Latch h hist s.conn.auth
  := by
  apply Run.history_invariant
    (fun hist s => s.running = true → s.conn.auth.authorized = false → Latch h hist s.conn.auth)
    _ _ hrun
  · obtain ⟨e, id, salt, challenge, c, hopen, rfl⟩ := hstart
    intro _ _
    have hauth : c.auth = { require2fa := e.get2fa } := Conn.auth_eq_of_core (Conn.core_onOpen h e _ hopen)
    constructor
    · rw [hauth]
      rfl
    · intro lr hfirst
      cases hfirst
  · rintro hist s ⟨e, ev⟩ s' hrun ih ⟨hrunning, hcm, rfl⟩ hrunning' hun'
    have hun : s.conn.auth.authorized = false := by
      by_contra hauth
      have hauth' : (s.conn.clear.onEvent h e ev).1.auth.authorized = true :=
        s.conn.clear.authorized_onEvent h e (Bool.not_eq_false _ ▸ hauth)
      exact absurd (hauth'.symm.trans hun') Bool.noConfusion
    apply (ih hrunning hun).next hinj hun hrunning' hun'

/-- A login request for another peer or another scope than the first one ends a connection that
waits, and changes nothing on an authorized one. -/
def RetriesEnd (h : Host) (hist : History) (s : Loop) : Prop :=
  ∀ lr₁, firstLogin hist = some lr₁
    → ∀ e lr s', Loop.Step h s (e, .message (some (.loginRequest lr))) s'
    → lr.myId ≠ lr₁.myId ∨ lr.scope ≠ lr₁.scope
    → (s.conn.auth.authorized = false → s'.running = false ∧ s'.conn.auth.authorized = false)
      ∧ (s.conn.auth.authorized = true → s'.conn = s.conn.clear)

/-- A password, a second factor or a click authorizes the peer and the scope of the first login
request; a terminal session without a service gets a fresh one. -/
def AuthorizesFirst (h : Host) (hist : History) (s : Loop) : Prop :=
  ∀ e ev s', Loop.Step h s (e, ev) s'
    → s.conn.auth.authorized = false → s'.conn.auth.authorized = true
    → (∀ sr, ev ≠ .message (some (.switchSidesResponse sr)))
    → ∃ lr₁, firstLogin (hist ++ [(s, e, ev)]) = some lr₁ ∧ ScopeInForce lr₁ s'.conn.auth
      ∧ ∀ sid, lr₁.serviceId = some sid → s'.conn.auth.terminalServiceId = sid
        ∨ sid.isEmpty = true ∧ s'.conn.auth.terminalServiceId = e.generateServiceId

theorem retriesEnd_of_run (hinj : Function.Injective h.sha256) (hstart : s₀.IsStart h)
    (hrun : Run (Loop.Step h) s₀ hist s) :
  RetriesEnd h hist s
  := by
  rintro lr₁ hfirst e lr s' ⟨hrunning, -, rfl⟩ hother
  constructor
  · intro hun
    have hl : Latch h hist s.conn.clear.auth := latch_of_run hinj hstart hrun hrunning hun
    have hdiffers : ¬ Conn.LatchAllows h s.conn.clear lr := by
      intro hallows
      obtain ⟨hid, hscope⟩ := hl.same hinj hfirst hallows
      rcases hother with hother | hother
      · apply hother hid
      · apply hother hscope
    have houtcome : Conn.LoginOutcome h e s.conn.clear (.message (some (.loginRequest lr)))
        (s.conn.clear.onEvent h e (.message (some (.loginRequest lr)))) :=
      Conn.loginOutcome_onEvent hun rfl
    rcases houtcome with
      ⟨-, -, hnot⟩ | ⟨hend, hun', -, -, -⟩ | ⟨lr', hev, hwait⟩ | ⟨c₀, c₁, happ⟩
    · exact absurd ⟨lr, rfl⟩ hnot
    · exact ⟨hend, hun'⟩
    · cases hev
      exact absurd hwait.latch hdiffers
    · exact absurd (happ.enters.request lr rfl) hdiffers
  · intro hauth
    have hauth : s.conn.clear.auth.authorized = true := hauth
    obtain ⟨hfst, -⟩ := s.conn.clear.onEvent_message h e (some (.loginRequest lr))
    apply hfst.trans
    simp [Conn.onMessage, Conn.isCloseReason, Conn.isLoginRequest, hauth]

/-- A click, a second factor and a password enter the authorization with the scope of the first
request. -/
theorem Latch.entered (hinj : Function.Injective h.sha256) (hl : Latch h hist s.conn.auth)
    (hgate : Gate h s₀ hist s) (hstep : Loop.Step h s (e, ev) s')
    (hun : s.conn.auth.authorized = false) (hauth : s'.conn.auth.authorized = true)
    (henters : Conn.Enters h e s.conn.clear ev) (hev : ev.isLogin = true)
    (hswitch : ∀ sr, ev ≠ .message (some (.switchSidesResponse sr))) :
  ∃ lr₁, firstLogin (hist ++ [(s, e, ev)]) = some lr₁
    ∧ ScopeLatched lr₁ (Conn.enteredAuth h e ev s.conn.auth)
  := by
  obtain ⟨-, hcm, rfl⟩ := hstep
  have hkept (hnot : ¬ ev.IsLoginRequest) (hne : firstLogin hist ≠ none) :
      ∃ lr₁, firstLogin (hist ++ [(s, e, ev)]) = some lr₁
        ∧ ScopeLatched lr₁ { s.conn.auth with require2fa := false } := by
    obtain ⟨lr₁, hfirst⟩ := Option.ne_none_iff_exists'.mp hne
    use lr₁
    constructor
    · rw [firstLogin_snoc, Event.loginRequest_eq_none hnot, Option.or_none, hfirst]
    · obtain ⟨⟨hid, hscope, hdir, htarget, hcamera, hterm⟩, hservice⟩ := hl.scope lr₁ hfirst
      exact ⟨⟨hid, hscope, hdir, htarget, hcamera, hterm⟩, hservice⟩
  rcases Event.isLogin_cases hev with rfl | ⟨lr, rfl⟩ | ⟨tfa, rfl⟩ | ⟨sr, rfl⟩
  · obtain ⟨x, e₁, hlast, -⟩ := hgate.authorize (e := e) (hcm _ rfl rfl)
    apply hkept _ (firstLogin_ne_none hlast)
    rintro ⟨lr, hlr⟩
    cases hlr
  · obtain ⟨lr₁, hfirst, -, hscope⟩ := Latch.request (s := s) (e := e) (c := s.conn.clear)
      hinj hl (henters.request lr rfl)
    exact ⟨lr₁, hfirst, hscope⟩
  · obtain ⟨-, -, x, e₁, lr, hlast, -⟩ := hgate.auth2fa hun hauth
    apply hkept _ (firstLogin_ne_none hlast)
    rintro ⟨lr, hlr⟩
    cases hlr
  · exact absurd rfl (hswitch sr)

theorem authorizesFirst_of_run (hinj : Function.Injective h.sha256) (hstart : s₀.IsStart h)
    (hrun : Run (Loop.Step h) s₀ hist s) :
  AuthorizesFirst h hist s
  := by
  intro e ev s' hstep hun hauth hswitch
  have hrunning := hstep.1
  have hl := latch_of_run hinj hstart hrun hrunning hun
  have hgate := gate_of_run hstart hrun hrunning hun
  obtain rfl := hstep.2.2
  obtain ⟨hev, c₀, c₁, happ⟩ := Conn.approved_of_authorized (c := s.conn.clear) hun hauth
  obtain ⟨lr₁, hfirst, hscope⟩ := hl.entered hinj hgate hstep hun hauth happ.enters hev hswitch
  obtain ⟨hforce, hservice⟩ := ScopeLatched.approved (c := s.conn.clear) hscope happ
  exact ⟨lr₁, hfirst, hforce, hservice⟩

end Latch

/-- The hashed bytes of a login request are those of its peer and its scope, and where the hash
function is injective every connection keeps to the peer and the scope of its first request. -/
theorem loginScope_latched :
  (∀ lr lr' : LoginRequest,
    loginScopeBytes lr = loginScopeBytes lr' ↔ lr.myId = lr'.myId ∧ lr.scope = lr'.scope)
  ∧ ∀ (h : Host) (s₀ s : Loop) (hist : History), Function.Injective h.sha256 → s₀.IsStart h
    → Run (Loop.Step h) s₀ hist s → RetriesEnd h hist s ∧ AuthorizesFirst h hist s
  := by
  apply And.intro loginScopeBytes_eq_iff
  intro h s₀ s hist hinj hstart hrun
  constructor
  · apply retriesEnd_of_run hinj hstart hrun
  · apply authorizesFirst_of_run hinj hstart hrun

/-! ### A run with a hash function that is injective -/

/-- A Linux build whose hash function is the identity. -/
def identityHost : Host := Host.sample .linux false id

/-- The peer asks for a session of the given scope. -/
def scopeRequest (union : Option LoginUnion) : Event :=
  .message (some (.loginRequest { union := union }))

/-- The peer waits for a click. -/
def scopeWaiting (union : Option LoginUnion) : Loop :=
  (Loop.sample identityHost {}).next identityHost {} (scopeRequest union)

/-- The click, where a fresh terminal service is called `ts`. -/
def clickEnv : Env := { generateServiceId := "ts" }

/-- The click authorizes the peer. -/
def scopeSession (union : Option LoginUnion) : Loop :=
  (scopeWaiting union).next identityHost clickEnv (.cm .authorize)

/-- The history of `scopeSession`. -/
def scopeHistory (union : Option LoginUnion) : History :=
  [(Loop.sample identityHost {}, ({} : Env), scopeRequest union)]
    ++ [(scopeWaiting union, clickEnv, .cm .authorize)]

theorem run_scopeWaiting (union : Option LoginUnion) :
  Run (Loop.Step identityHost) (Loop.sample identityHost {})
    [(Loop.sample identityHost {}, ({} : Env), scopeRequest union)] (scopeWaiting union)
  := by
  refine Run.snoc .nil ⟨rfl, ?_, rfl⟩
  intro d hd
  cases hd

/-- The scope stays latched while the peer waits for a click. -/
theorem loginScope_latched_scopeWaiting :
  RetriesEnd identityHost [(Loop.sample identityHost {}, ({} : Env), scopeRequest none)]
    (scopeWaiting none)
  ∧ AuthorizesFirst identityHost
    [(Loop.sample identityHost {}, ({} : Env), scopeRequest none)] (scopeWaiting none)
  := by
  apply loginScope_latched.2 identityHost (Loop.sample identityHost {})
  · apply Function.injective_id
  · apply Loop.isStart_sample rfl
  · apply run_scopeWaiting

/-- A request for another scope does not end a connection that is already authorized, and a
terminal session without a service is authorized with a fresh one. -/
theorem other_scope_after_authorization :
  Function.Injective identityHost.sha256
    ∧ (Loop.sample identityHost {}).IsStart identityHost
    ∧ (Run (Loop.Step identityHost) (Loop.sample identityHost {}) (scopeHistory none)
        (scopeSession none)
      ∧ firstLogin (scopeHistory none) = some {}
      ∧ (scopeSession none).running = true
      ∧ ((scopeSession none).next identityHost {} (scopeRequest (some .viewCamera))).running = true)
    ∧ Run (Loop.Step identityHost) (Loop.sample identityHost {})
        (scopeHistory (some (.terminal { serviceId := .empty })))
        (scopeSession (some (.terminal { serviceId := .empty })))
      ∧ (scopeSession (some (.terminal { serviceId := .empty }))).conn.auth.authorized = true
      ∧ (scopeSession (some (.terminal { serviceId := .empty }))).conn.auth.terminalServiceId = "ts"
  := by
  have hclick (union : Option LoginUnion) (hrunning : (scopeWaiting union).running = true)
      (hcm : (scopeWaiting union).cmStarted = true) :
      Run (Loop.Step identityHost) (Loop.sample identityHost {}) (scopeHistory union)
        (scopeSession union) :=
    (run_scopeWaiting union).snoc ⟨hrunning, fun _ _ _ => hcm, rfl⟩
  refine ⟨Function.injective_id, Loop.isStart_sample rfl,
    ⟨hclick none (by decide) (by decide), by decide, by decide, by decide⟩,
    hclick _ (by decide) (by decide), by decide, by decide⟩

end VynxDesk
