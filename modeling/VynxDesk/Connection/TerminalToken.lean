import VynxDesk.Connection.Confinement

/-!
# The token of a terminal session

A terminal login fills the token of the user its terminal runs as before it is approved.
`TerminalOwned` says that only a terminal session is authorized with a token.  It holds all along a
run in which no login of another kind is let in while a token waits (`TokenSafe`): an accepted
`SwitchSidesResponse` is one.
-/

namespace VynxDesk

/-- The effect hands a terminal action to the terminal service. -/
def Effect.handlesTerminal : Effect → Bool
  | .handleTerminalAction .. => true
  | _ => false

namespace Conn

variable {h : Host} {e : Env} {c : Conn}

/-- The connection is not authorized, and a terminal login on it has filled the token. -/
def TokenWaits (c : Conn) : Prop :=
  c.auth.authorized = false ∧ c.auth.terminalUserToken.isSome = true

/-- An authorized connection with a token is a terminal session. -/
def TerminalOwned (c : Conn) : Prop :=
  c.auth.authorized = true → c.auth.terminalUserToken.isSome = true
    → c.authedConnType = some .terminal

theorem TerminalOwned.of_auth_eq {c' : Conn} (howned : c.TerminalOwned)
    (hauth : c'.auth = c.auth) :
  c'.TerminalOwned
  := by
  rw [TerminalOwned, authedConnType]
  rw [hauth]
  apply howned

/-- The last login asked for a terminal session, and the scope is that of one. -/
structure TerminalScope (a : Auth) : Prop where
  union : ∃ t, a.lr.union = some (.terminal t)
  fileTransfer : a.fileTransfer = none
  viewCamera : a.viewCamera = false

theorem terminalScope_requestedAuth {lr : LoginRequest} {a : Auth}
    (hterm : (requestedAuth h e lr a).terminal = true) :
  TerminalScope (requestedAuth h e lr a)
  := by
  rcases hunion : lr.union with _ | (ft | _ | t | pf | _)
  all_goals simp only [requestedAuth, scopedAuth, hunion] at hterm ⊢
  · cases hterm
  · cases hterm
  · cases hterm
  · exact ⟨⟨t, hunion⟩, rfl, rfl⟩
  · cases hterm
  · cases hterm

theorem requestedAuth_terminal {lr : LoginRequest} {a : Auth} {t : Terminal}
    (hunion : lr.union = some (.terminal t)) :
  (requestedAuth h e lr a).terminal = true
  := by
  simp only [requestedAuth, scopedAuth, hunion]

/-- A login of a terminal session that passed every check opened no tunnel. -/
theorem Admitted.isPortForward_of_terminal {c₁ : Conn} (hadm : Admitted h e c c₁)
    {t : Terminal} (hunion : c.auth.lr.union = some (.terminal t)) :
  c₁.isPortForward = c.isPortForward
  := by
  obtain ⟨-, -, rfl⟩ := hadm
  generalize hc₀ : (c.withAuth fun a => { a with awaiting2fa := false }) = c₀
  obtain ⟨-, t', hprep⟩ := c₀.onlyToken_prepareTerminalLoginForAuthorization h e
  have hlr : (c₀.prepareTerminalLoginForAuthorization h e).1.auth.lr = c₀.auth.lr :=
    congrArg (fun k => k.auth.lr) hprep
  have hpf : (c₀.prepareTerminalLoginForAuthorization h e).1.isPortForward = c₀.isPortForward :=
    congrArg Core.isPortForward hprep
  have hconn : (c₀.prepareTerminalLoginForAuthorization h e).1.connectPortForwardIfNeeded e
      = ((c₀.prepareTerminalLoginForAuthorization h e).1, true) := by
    have hunion₀ : c₀.auth.lr.union = some (.terminal t) := by
      rw [← hc₀]
      exact hunion
    rw [connectPortForwardIfNeeded]
    rw [hlr, hunion₀]
    split_ifs <;> rfl
  rw [hconn, hpf, ← hc₀]
  rfl

/-- A login that was approved kept the token unless it is one of a terminal session, and then it
is authorized as one. -/
theorem Approved.token {ev : Event} {c₀ c₁ c' : Conn} (happ : Approved h e c ev c₀ c₁ c') :
  ((enteredAuth h e ev c.auth).terminal = false
      → c'.auth.terminalUserToken = (enteredAuth h e ev c.auth).terminalUserToken)
    ∧ ((enteredAuth h e ev c.auth).terminal = true → TerminalScope (enteredAuth h e ev c.auth)
      → c.isPortForward = false → c'.authedConnType = some .terminal)
  := by
  have hauth₀ : c₀.auth = enteredAuth h e ev c.auth := congrArg Core.auth happ.core
  have hpf₀ : c₀.isPortForward = c.isPortForward := congrArg Core.isPortForward happ.core
  obtain ⟨t, a, s, m, ht, -, hcore₁⟩ := happ.admitted.core
  obtain ⟨sid, -, hsid⟩ := c₁.core_setAuthorized_sendLogonResponseAuthorized h e
  have hcore := happ.quiet.1.trans hsid
  have hauth₁ : c₁.auth = { c₀.auth with
      awaiting2fa := false, terminalUserToken := t, portForwardAddress := a } :=
    congrArg Core.auth hcore₁
  have hauth : c'.auth = { c₁.auth with
      authorized := true, authedConnId := some c₁.authConnTypeOnLogin,
      terminalServiceId := sid } := congrArg Core.auth hcore
  constructor
  · intro hterm
    rw [hauth, hauth₁, ← hauth₀]
    apply ht
    rw [hauth₀]
    apply hterm
  · intro hterm hscope hpf
    obtain ⟨⟨t', hunion⟩, hfile, hcamera⟩ := hscope
    rw [← hauth₀] at hterm hunion hfile hcamera
    have hpf₁ := happ.admitted.isPortForward_of_terminal hunion
    rw [hpf₀, hpf] at hpf₁
    rw [authedConnType, hauth]
    simp [authConnTypeOnLogin, hpf₁, hauth₁, hterm, hfile, hcamera]

/-- A terminal action reaches the terminal service only on an authorized connection with a
token. -/
theorem token_of_handlesTerminal {action : Bytes} {x : Effect}
    (hx : x ∈ (c.onMessage h e (some (.terminalAction action))).1.out) (hout : c.out = [])
    (hhandles : x.handlesTerminal = true) :
  c.auth.authorized = true ∧ c.auth.terminalUserToken.isSome = true
  := by
  cases hauth : c.auth.authorized with
  | false => simp [onMessage, isCloseReason, hauth, dispatch, hout] at hx
  | true =>
      apply And.intro rfl
      simp only [onMessage, isCloseReason, hauth, isLoginRequest, Bool.true_and,
        Bool.false_eq_true, if_false, if_true] at hx
      split at hx
      · have hconf := (confine_handleAuthorizedScopeViolation (T := .remote) _).forall_mem hout x hx
        cases x with
        | handleTerminalAction => cases hconf
        | _ => cases hhandles
      · by_contra htoken
        rw [Bool.not_eq_true, Option.isSome_eq_false_iff, Option.isNone_iff_eq_none] at htoken
        simp [dispatch, onAuthorizedMessage, handleTerminalAction, htoken, hout] at hx

end Conn

/-! ### Runs -/

/-- While a token waits, the turn is no accepted `SwitchSidesResponse`, and no login request of
another kind that the latch lets through. -/
structure TokenSafe (h : Host) (s : Loop) (i : Env × Event) : Prop where
  switch : s.conn.TokenWaits → ∀ sr lr, i.2 = .message (some (.switchSidesResponse sr))
    → ¬ Conn.SwitchAccepted h i.1 sr lr
  request : s.conn.TokenWaits → ∀ lr, i.2 = .message (some (.loginRequest lr))
    → Conn.LatchAllows h s.conn lr → ∃ t, lr.union = some (.terminal t)

/-- A terminal action reaches the terminal service on terminal sessions only. -/
def ActionsOwned (h : Host) (s : Loop) : Prop :=
  ∀ e action s', Loop.Step h s (e, .message (some (.terminalAction action))) s'
    → ∀ x ∈ s'.conn.out, x.handlesTerminal = true
    → s.conn.auth.authorized = true ∧ s.conn.authedConnType = some .terminal

/-- What carries `TerminalOwned` along a run: a token that waits belongs to a terminal scope. -/
structure TokenHeld (s : Loop) : Prop where
  sound : Sound s
  scope : s.running = true → s.conn.auth.authorized = false → s.conn.auth.terminal = true
    → Conn.TerminalScope s.conn.auth
  waiting : s.running = true → s.conn.TokenWaits → s.conn.auth.terminal = true
  owned : s.conn.TerminalOwned

section TokenHeld

variable {h : Host} {s s₀ : Loop} {e : Env} {ev : Event}

theorem TokenHeld.of_auth_eq {s' : Loop} (hs : TokenHeld s) (hrunning : s.running = true)
    (hsound : Sound s') (hauth : s'.conn.auth = s.conn.auth) :
  TokenHeld s'
  := by
  apply TokenHeld.mk hsound
  · intro _
    rw [hauth]
    apply hs.scope hrunning
  · intro _
    rw [Conn.TokenWaits]
    rw [hauth]
    apply hs.waiting hrunning
  · apply hs.owned.of_auth_eq hauth

/-- A login request that waits keeps the token with a terminal scope. -/
theorem tokenHeld_waits {lr : LoginRequest}
    (hun : s.conn.auth.authorized = false)
    (hsafe : TokenSafe h s (e, .message (some (.loginRequest lr))))
    (hsound : Sound (s.next h e (.message (some (.loginRequest lr)))))
    (hwait : Conn.Waiting h e s.conn.clear lr
      (s.next h e (.message (some (.loginRequest lr)))).conn) :
  TokenHeld (s.next h e (.message (some (.loginRequest lr))))
  := by
  obtain ⟨b, t, ht, hcore⟩ := hwait.core
  have hauth : (s.next h e (.message (some (.loginRequest lr)))).conn.auth
      = { Conn.requestedAuth h e lr s.conn.auth with awaiting2fa := b, terminalUserToken := t } :=
    congrArg Core.auth hcore
  apply TokenHeld.mk hsound
  · intro _ _ hterm
    rw [hauth] at hterm ⊢
    obtain ⟨hunion, hfile, hcamera⟩ := Conn.terminalScope_requestedAuth hterm
    exact ⟨hunion, hfile, hcamera⟩
  · rintro _ ⟨-, htoken⟩
    rw [hauth] at htoken ⊢
    by_contra hterm
    have hterm : (Conn.requestedAuth h e lr s.conn.auth).terminal = false := by
      simpa using hterm
    have hwaits : s.conn.TokenWaits := ⟨hun, ht hterm ▸ htoken⟩
    obtain ⟨t', hunion⟩ := hsafe.request hwaits lr rfl hwait.latch
    rw [Conn.requestedAuth_terminal hunion] at hterm
    cases hterm
  · intro hauthd
    rw [hauth] at hauthd
    have hrequested := Conn.requestedAuth_authorized (h := h) (e := e) lr s.conn.auth
    exact absurd ((hrequested.1.trans hun).symm.trans hauthd) Bool.noConfusion

/-- A login that is approved leaves the token to a terminal session. -/
theorem TokenHeld.approved {c₀ c₁ : Conn} (hs : TokenHeld s) (hrunning : s.running = true)
    (hun : s.conn.auth.authorized = false) (hev : ev.isLogin = true) (hsafe : TokenSafe h s (e, ev))
    (happ : Conn.Approved h e s.conn.clear ev c₀ c₁ (s.next h e ev).conn) :
  (s.next h e ev).conn.TerminalOwned
  := by
  intro _ htoken
  obtain ⟨hkeep, htype⟩ := happ.token
  have hpf : s.conn.clear.isPortForward = false := hs.sound.closed hrunning hun
  by_cases hterm : (Conn.enteredAuth h e ev s.conn.auth).terminal = true
  · apply htype hterm _ hpf
    rcases Event.isLogin_cases hev with rfl | ⟨lr, rfl⟩ | ⟨tfa, rfl⟩ | ⟨sr, rfl⟩
    · obtain ⟨hunion, hfile, hcamera⟩ := hs.scope hrunning hun hterm
      exact ⟨hunion, hfile, hcamera⟩
    · apply Conn.terminalScope_requestedAuth hterm
    · obtain ⟨hunion, hfile, hcamera⟩ := hs.scope hrunning hun hterm
      exact ⟨hunion, hfile, hcamera⟩
    · obtain ⟨lr, hacc⟩ := happ.enters.switch sr rfl
      obtain ⟨uuid, lr'⟩ := sr
      obtain rfl : lr' = some lr := hacc.lr_eq
      cases hterm
  · rw [Bool.not_eq_true] at hterm
    rw [hkeep hterm] at htoken
    rcases Event.isLogin_cases hev with rfl | ⟨lr, rfl⟩ | ⟨tfa, rfl⟩ | ⟨sr, rfl⟩
    · exact absurd (hterm.symm.trans (hs.waiting hrunning ⟨hun, htoken⟩)) Bool.noConfusion
    · have hwaits : s.conn.TokenWaits := by
        apply And.intro hun
        rw [← htoken]
        apply congrArg Option.isSome
        symm
        apply Conn.scopedAuth_terminalUserToken
      obtain ⟨t, hunion⟩ := hsafe.request hwaits lr rfl (happ.enters.request lr rfl)
      exact absurd (hterm.symm.trans (Conn.requestedAuth_terminal hunion)) Bool.noConfusion
    · exact absurd (hterm.symm.trans (hs.waiting hrunning ⟨hun, htoken⟩)) Bool.noConfusion
    · obtain ⟨lr, hacc⟩ := happ.enters.switch sr rfl
      apply absurd hacc
      apply hsafe.switch _ sr lr rfl
      obtain ⟨uuid, lr'⟩ := sr
      obtain rfl : lr' = some lr := hacc.lr_eq
      exact ⟨hun, htoken⟩

/-- Every safe turn keeps the tokens with their sessions. -/
theorem TokenHeld.next (hs : TokenHeld s) (hrunning : s.running = true)
    (hsafe : TokenSafe h s (e, ev)) :
  TokenHeld (s.next h e ev)
  := by
  have hsound : Sound (s.next h e ev) := hs.sound.next hrunning
  cases hev : ev.isLogin with
  | false =>
      apply hs.of_auth_eq hrunning hsound
      apply (s.conn.clear.keeps_onEvent h e hev).1
  | true =>
      cases hauth : s.conn.auth.authorized with
      | true =>
          have hkept := Conn.sessionKept_loginEvent (h := h) (e := e) (c := s.conn.clear) hauth hev
          have hauthd := hkept.authorized.trans hauth
          apply TokenHeld.mk hsound
          · intro _ hun
            exact absurd (hun.symm.trans hauthd) Bool.noConfusion
          · rintro _ ⟨hun, -⟩
            exact absurd (hun.symm.trans hauthd) Bool.noConfusion
          · intro _ htoken
            apply hkept.authedConnId.trans
            apply hs.owned hauth
            rw [← htoken]
            apply congrArg Option.isSome hkept.token.symm
      | false =>
          rcases Conn.loginOutcome_onEvent (h := h) (e := e) (c := s.conn.clear) hauth hev with
            ⟨hq, -, -⟩ | ⟨hend, hun, -, -, -⟩ | ⟨lr, rfl, hwait⟩ | ⟨c₀, c₁, happ⟩
          · apply hs.of_auth_eq hrunning hsound
            apply Conn.auth_eq_of_core hq.1
          · apply TokenHeld.mk hsound
            · intro hrun
              exact absurd (hend.symm.trans hrun) Bool.noConfusion
            · intro hrun
              exact absurd (hend.symm.trans hrun) Bool.noConfusion
            · intro hauthd
              exact absurd (hun.symm.trans hauthd) Bool.noConfusion
          · apply tokenHeld_waits hauth hsafe hsound hwait
          · have hauthd := happ.typed.1
            apply TokenHeld.mk hsound
            · intro _ hun
              exact absurd (hun.symm.trans hauthd) Bool.noConfusion
            · rintro _ ⟨hun, -⟩
              exact absurd (hun.symm.trans hauthd) Bool.noConfusion
            · apply hs.approved hrunning hauth hev hsafe happ

theorem tokenHeld_of_isStart (hstart : s₀.IsStart h) :
  TokenHeld s₀
  := by
  have hsound := sound_of_isStart hstart
  obtain ⟨e, id, salt, challenge, c, hopen, rfl⟩ := hstart
  have hauth : c.auth = { require2fa := e.get2fa } := Conn.auth_eq_of_core (Conn.core_onOpen h e _ hopen)
  apply TokenHeld.mk hsound
  · intro _ _ hterm
    rw [hauth] at hterm
    cases hterm
  · rintro _ ⟨-, htoken⟩
    rw [hauth] at htoken
    cases htoken
  · intro hauthd
    rw [hauth] at hauthd
    cases hauthd

/-- Where tokens belong to terminal sessions, so do the actions that reach the service. -/
theorem TokenHeld.actionsOwned (hs : TokenHeld s) :
  ActionsOwned h s
  := by
  rintro e action s' ⟨-, -, rfl⟩ x hx hhandles
  obtain ⟨hfst, -⟩ := s.conn.clear.onEvent_message h e (some (.terminalAction action))
  have hx : x ∈ (s.conn.clear.onEvent h e (.message (some (.terminalAction action)))).1.out := hx
  rw [hfst] at hx
  obtain ⟨hauth, htoken⟩ := Conn.token_of_handlesTerminal hx rfl hhandles
  constructor
  · apply hauth
  · apply hs.owned hauth htoken

/-- Tokens and terminal actions belong to terminal sessions all along every run of safe turns. -/
theorem terminalOwned_of_run {hist : History} (hstart : s₀.IsStart h)
    (hrun : Run (Loop.Step h) s₀ hist s) (hsafe : ∀ x ∈ hist, TokenSafe h x.1 x.2) :
  (∀ x ∈ hist, x.1.conn.TerminalOwned ∧ ActionsOwned h x.1)
    ∧ s.conn.TerminalOwned ∧ ActionsOwned h s
  := by
  apply Run.forall_of (TokenSafe h) TokenHeld (fun s => s.conn.TerminalOwned ∧ ActionsOwned h s)
    (tokenHeld_of_isStart hstart) _ _ hrun hsafe
  · intro s hs
    apply And.intro hs.owned hs.actionsOwned
  · rintro s ⟨e, ev⟩ s' hs hsafe ⟨hrunning, -, rfl⟩
    apply hs.next hrunning hsafe

end TokenHeld

/-! ### A terminal login that waits for a click -/

/-- A Windows build with the client. -/
def windowsHost : Host := Host.sample .windows true sampleSha256

/-- A request for a terminal that runs as an administrator. -/
def terminalRequest : LoginRequest where
  union := some (.terminal { serviceId := .empty })
  osLogin := { username := "admin", password := "pw" }

/-- The request is handled where its user is an administrator. -/
def terminalLogin : Env × Event :=
  ({ logonCheck := fun _ _ => .admin }, .message (some (.loginRequest terminalRequest)))

/-- The peer waits for a click. -/
def tokenWaiting : Loop :=
  (Loop.sample windowsHost {}).next windowsHost terminalLogin.1 terminalLogin.2

theorem run_tokenWaiting :
  Run (Loop.Step windowsHost) (Loop.sample windowsHost {})
    [(Loop.sample windowsHost {}, terminalLogin)] tokenWaiting
  := by
  refine Run.snoc .nil ⟨rfl, ?_, rfl⟩
  intro d hd
  cases hd

/-- A click authorizes the peer for the terminal session its token was filled for. -/
theorem terminalOwned_click :
  (∀ x ∈ [(Loop.sample windowsHost {}, terminalLogin)] ++ [(tokenWaiting, ({} : Env), .cm .authorize)],
      x.1.conn.TerminalOwned ∧ ActionsOwned windowsHost x.1)
    ∧ (tokenWaiting.next windowsHost {} (.cm .authorize)).conn.TerminalOwned
    ∧ ActionsOwned windowsHost (tokenWaiting.next windowsHost {} (.cm .authorize))
  := by
  apply terminalOwned_of_run (Loop.isStart_sample (e := {}) rfl)
  · apply run_tokenWaiting.snoc
    exact ⟨by decide, fun _ _ _ => by decide, rfl⟩
  · intro x hx
    rcases List.mem_append.mp hx with hx | hx
    · rw [List.mem_singleton.mp hx]
      constructor
      · rintro ⟨-, htoken⟩
        cases htoken
      · rintro ⟨-, htoken⟩
        cases htoken
    · rw [List.mem_singleton.mp hx]
      constructor
      · intro _ sr lr hev
        cases hev
      · intro _ lr hev
        cases hev

/-- The uuid of the other connection on which the user switches sides. -/
def switchUuid : Bytes := List.replicate 16 7

/-- The waiting peer answers a switch of sides. -/
def switchAnswer : Env × Event :=
  ({ switchSidesUuid := [("", 0, switchUuid)] },
    .message (some (.switchSidesResponse { uuid := switchUuid, lr := some {} })))

/-- The state after the answer. -/
def switchedSession : Loop := tokenWaiting.next windowsHost switchAnswer.1 switchAnswer.2

/-- A terminal login that waits for a click becomes a remote session with its token by a switch
of sides, and its terminal actions reach the terminal service. -/
theorem not_terminalOwned_switchedSession :
  (Loop.sample windowsHost {}).IsStart windowsHost
    ∧ Run (Loop.Step windowsHost) (Loop.sample windowsHost {})
      ([(Loop.sample windowsHost {}, terminalLogin)] ++ [(tokenWaiting, switchAnswer)])
      switchedSession
    ∧ switchedSession.conn.authedConnType = some .remote ∧ ¬ switchedSession.conn.TerminalOwned
    ∧ ¬ ActionsOwned windowsHost switchedSession
  := by
  have htype : switchedSession.conn.authedConnType = some .remote := by decide
  refine ⟨Loop.isStart_sample rfl, ?_, htype, ?_, ?_⟩
  · apply run_tokenWaiting.snoc
    refine ⟨by decide, ?_, rfl⟩
    intro d hd
    cases hd
  · intro howned
    have hterm := howned (by decide) (by decide)
    rw [htype] at hterm
    cases hterm
  · intro howned
    have hstep : Loop.Step windowsHost switchedSession
        ({}, .message (some (.terminalAction [])))
        (switchedSession.next windowsHost {} (.message (some (.terminalAction [])))) := by
      refine ⟨by decide, ?_, rfl⟩
      intro d hd
      cases hd
    have hterm := howned {} [] _ hstep (.handleTerminalAction "" false .selfUser []) (by decide) rfl
    rw [htype] at hterm
    cases hterm.2

end VynxDesk
