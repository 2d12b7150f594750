import VynxDesk.Connection.Emits

/-!
# What logging in changes

How each part of the login messages changes the core of a connection, down to an inversion of
`send_logon_response_and_keep_alive`: it asks for the second factor, or refuses, or authorizes
the connection.
-/

namespace VynxDesk

/-- Change what the login decided. -/
def Core.withAuth (k : Core) (f : Auth → Auth) : Core := { k with auth := f k.auth }

namespace Conn

variable (h : Host) (e : Env) (c : Conn)

/-! ### Effects -/

@[simp] theorem core_withAuth (f : Auth → Auth) : (c.withAuth f).core = c.core.withAuth f := rfl

@[simp] theorem core_sendLoginError (err : String) :
  (c.sendLoginError e err).core = c.core := rfl

@[simp] theorem control_sendLoginError (err : String) :
  (c.sendLoginError e err).control = c.control := rfl

@[simp] theorem core_tryStartCm (peerId : Str) (name : String) (b : Bool) :
  (c.tryStartCm peerId name b).core = c.core := rfl

@[simp] theorem control_tryStartCm (peerId : Str) (name : String) (b : Bool) :
  (c.tryStartCm peerId name b).control = c.control := rfl

theorem quiet_tryStartCmIpc :
  Quiet c c.tryStartCmIpc
  := by
  rw [tryStartCmIpc]
  split_ifs <;> exact ⟨rfl, rfl⟩

/-- A check of the login: it writes nothing to the peer when it passes, and no message of the
handshake when it refuses. -/
def Check (c : Conn) (r : Conn × Bool) : Prop :=
  Emits NoHandshake c r.1 ∧ (r.2 = true → Emits Unframed c r.1)

variable {c} in
theorem Check.of_unframed {r : Conn × Bool} (hr : Emits Unframed c r.1) :
  Check c r
  := ⟨hr.mono fun _ hx => hx.noHandshake, fun _ => hr⟩

variable {c} in
theorem Check.of_false {c' : Conn} (hr : Emits NoHandshake c c') :
  Check c (c', false)
  := ⟨hr, fun hf => by cases hf⟩

variable {c} in
/-- The next check of a login. -/
theorem Check.andThen {r : Conn × Bool} {next : Conn → Conn × Bool} (hr : Check c r)
    (hnext : r.2 = true → Check r.1 (next r.1)) :
  Check c (VynxDesk.andThen r next)
  := by
  rcases andThen_cases r next with ⟨-, heq⟩ | ⟨ht, heq⟩
  · rw [heq]
    exact hr
  · rw [heq]
    exact ⟨hr.1.trans (hnext ht).1, fun hn => (hr.2 ht).trans ((hnext ht).2 hn)⟩

theorem check_sendLoginError (err : String) :
  Check c (c.sendLoginError e err, false)
  := .of_false ((Emits.refl c).emit (by rfl))

/-! ### The user of a terminal -/

/-- Only the token of the terminal changed. -/
def OnlyToken (c c' : Conn) : Prop :=
  c'.control = c.control
    ∧ ∃ t, c'.core = c.core.withAuth fun a => { a with terminalUserToken := t }

variable {c} in
theorem OnlyToken.of_quiet {c' : Conn} (hq : Quiet c c') :
  OnlyToken c c'
  := ⟨hq.2, c.auth.terminalUserToken, hq.1⟩

variable {c} in
theorem OnlyToken.trans_quiet {c' c'' : Conn} (ht : OnlyToken c c') (hq : Quiet c' c'') :
  OnlyToken c c''
  := by
  obtain ⟨hc, t, hk⟩ := ht
  exact ⟨hq.2.trans hc, t, hq.1.trans hk⟩

theorem onlyToken_setTerminalUserToken (t : Option TerminalUserToken) :
  OnlyToken c (c.setTerminalUserToken t)
  := ⟨rfl, t, rfl⟩

theorem onlyToken_fillTerminalUserToken (username password : String) :
  OnlyToken c (c.fillTerminalUserToken h e username password).1
  := by
  rw [fillTerminalUserToken]
  split_ifs
  · rw [handleAdministratorCheck]
    split
    · exact c.onlyToken_setTerminalUserToken _
    · exact OnlyToken.of_quiet c.quiet_refl
    · exact OnlyToken.of_quiet c.quiet_refl
  · exact c.onlyToken_setTerminalUserToken _
  · rw [handleInstalledUser]
    split
    · exact OnlyToken.of_quiet c.quiet_refl
    · exact c.onlyToken_setTerminalUserToken _
    · exact OnlyToken.of_quiet c.quiet_refl
  · exact c.onlyToken_setTerminalUserToken _
  · exact c.onlyToken_setTerminalUserToken _

theorem onlyToken_fillTerminalUserTokenOrRefuse (b : Bool) :
  OnlyToken c (c.fillTerminalUserTokenOrRefuse h e b).1
  := by
  have hfill := c.onlyToken_fillTerminalUserToken h e (trim c.auth.lr.osLogin.username)
    c.auth.lr.osLogin.password
  rw [fillTerminalUserTokenOrRefuse]
  split
  · rename_i c' msg heq
    rw [heq] at hfill
    split_ifs
    · exact hfill.trans_quiet ⟨rfl, rfl⟩
    · exact hfill.trans_quiet ⟨rfl, rfl⟩
  · rename_i c' heq
    rw [heq] at hfill
    split_ifs
    · exact hfill.trans_quiet ⟨rfl, rfl⟩
    · exact hfill

theorem quiet_checkServiceSpecifiedUser :
  Quiet c (c.checkServiceSpecifiedUser e).1
  := by
  rw [checkServiceSpecifiedUser]
  split
  · split_ifs <;> exact ⟨rfl, rfl⟩
  · exact ⟨rfl, rfl⟩

theorem onlyToken_prepareTerminalLoginForAuthorization :
  OnlyToken c (c.prepareTerminalLoginForAuthorization h e).1
  := by
  rw [prepareTerminalLoginForAuthorization]
  dsimp only
  split
  · exact OnlyToken.of_quiet c.quiet_refl
  split
  · exact OnlyToken.of_quiet ⟨rfl, rfl⟩
  split
  · exact OnlyToken.of_quiet ⟨rfl, rfl⟩
  generalize shouldUseTerminalOsLoginScope h c.auth.terminal (trim c.auth.lr.osLogin.username) = b
  have hfill := c.onlyToken_fillTerminalUserTokenOrRefuse h e b
  rcases andThen_cases (c.fillTerminalUserTokenOrRefuse h e b) _ with ⟨-, heq⟩ | ⟨-, heq⟩
  · rw [heq]
    exact hfill
  · rw [heq]
    generalize (c.fillTerminalUserTokenOrRefuse h e b).1 = c₁ at hfill
    have hcheck := hfill.trans_quiet (c₁.quiet_checkServiceSpecifiedUser e)
    rcases andThen_cases (c₁.checkServiceSpecifiedUser e) _ with ⟨-, heq⟩ | ⟨-, heq⟩
    · rw [heq]
      exact hcheck
    · rw [heq]
      dsimp only
      split_ifs
      · exact hcheck.trans_quiet (quiet_tryStartCmIpc _)
      · exact hcheck

theorem unframed_tryStartCmIpc :
  Emits Unframed c c.tryStartCmIpc
  := by
  rw [tryStartCmIpc]
  split_ifs
  · exact (Emits.refl c).withBook.emit (by rfl)
  · exact .refl c

theorem unframed_fillTerminalUserToken (username password : String) :
  Emits Unframed c (c.fillTerminalUserToken h e username password).1
  := by
  have hset (t : Option TerminalUserToken) : Emits Unframed c (c.setTerminalUserToken t) :=
    (Emits.refl c).withAuth
  rw [fillTerminalUserToken]
  split_ifs
  · rw [handleAdministratorCheck]
    split
    · exact hset _
    · exact .refl c
    · exact .refl c
  · exact hset _
  · rw [handleInstalledUser]
    split
    · exact .refl c
    · exact hset _
    · exact .refl c
  · exact hset _
  · exact hset _

theorem check_fillTerminalUserTokenOrRefuse (b : Bool) :
  Check c (c.fillTerminalUserTokenOrRefuse h e b)
  := by
  have hfill := c.unframed_fillTerminalUserToken h e (trim c.auth.lr.osLogin.username)
    c.auth.lr.osLogin.password
  rw [fillTerminalUserTokenOrRefuse]
  split
  · rename_i c' msg heq
    rw [heq] at hfill
    apply Check.of_false
    apply (hfill.mono fun _ hx => hx.noHandshake).trans
    split_ifs
    · exact ((Emits.refl c').emit (by rfl)).emit (by rfl)
    · exact (Emits.refl c').emit (by rfl)
  · rename_i c' heq
    rw [heq] at hfill
    apply Check.of_unframed
    split_ifs
    · exact hfill.emit (by rfl)
    · exact hfill

theorem check_checkServiceSpecifiedUser :
  Check c (c.checkServiceSpecifiedUser e)
  := by
  rw [checkServiceSpecifiedUser]
  split
  · split_ifs
    · exact c.check_sendLoginError e _
    · exact .of_unframed (.refl c)
  · exact .of_unframed (.refl c)

theorem check_prepareTerminalLoginForAuthorization :
  Check c (c.prepareTerminalLoginForAuthorization h e)
  := by
  rw [prepareTerminalLoginForAuthorization]
  dsimp only
  split
  · exact .of_unframed (.refl c)
  split
  · exact c.check_sendLoginError e _
  split
  · exact c.check_sendLoginError e _
  · apply (c.check_fillTerminalUserTokenOrRefuse h e _).andThen
    intro _
    apply (check_checkServiceSpecifiedUser e _).andThen
    intro _
    apply Check.of_unframed
    split_ifs
    · exact unframed_tryStartCmIpc _
    · exact .refl _

/-- A login that is not for a terminal does not touch the token. -/
theorem prepareTerminalLoginForAuthorization_of_not_terminal (ht : c.auth.terminal = false) :
  c.prepareTerminalLoginForAuthorization h e = (c, true)
  := by
  simp [prepareTerminalLoginForAuthorization, ht]

/-! ### Authorization -/

/-- The address is the one on record, or that of the port forward the login asks for. -/
def TargetAddress (a : Auth) (address : String) : Prop :=
  address = a.portForwardAddress
    ∨ ∃ pf, a.lr.union = some (.portForward pf) ∧ address = (normalizePortForwardTarget pf).1

/-- How connecting the tunnel changes the core: the address, and either end of the tunnel. -/
theorem core_connectPortForwardIfNeeded :
  ∃ a s m, TargetAddress c.auth a ∧ (c.connectPortForwardIfNeeded e).1.core
    = { c.core.withAuth fun x => { x with portForwardAddress := a } with
        portForwardSocket := s, portForwardMux := m }
  := by
  rw [connectPortForwardIfNeeded]
  dsimp only
  split_ifs
  · exact ⟨_, c.portForwardSocket, c.portForwardMux, Or.inl rfl, rfl⟩
  · split
    · rename_i pf hunion
      split_ifs
      · exact ⟨_, c.portForwardSocket, _, Or.inl rfl, rfl⟩
      · exact ⟨_, _, c.portForwardMux, Or.inr ⟨pf, hunion, rfl⟩, rfl⟩
      · exact ⟨_, c.portForwardSocket, c.portForwardMux, Or.inr ⟨pf, hunion, rfl⟩, rfl⟩
      · exact ⟨_, c.portForwardSocket, c.portForwardMux, Or.inr ⟨pf, hunion, rfl⟩, rfl⟩
    · exact ⟨_, c.portForwardSocket, c.portForwardMux, Or.inl rfl, rfl⟩

theorem control_connectPortForwardIfNeeded :
  (c.connectPortForwardIfNeeded e).1.control = c.control
  := by
  rw [connectPortForwardIfNeeded]
  dsimp only
  split_ifs
  · rfl
  · split
    · split_ifs <;> rfl
    · rfl

/-- A target that cannot be reached leaves the tunnels alone. -/
theorem core_connectPortForwardIfNeeded_of_refused
    (hf : (c.connectPortForwardIfNeeded e).2 = false) :
  ∃ a, (c.connectPortForwardIfNeeded e).1.core
    = c.core.withAuth fun x => { x with portForwardAddress := a }
  := by
  revert hf
  rw [connectPortForwardIfNeeded]
  split
  · intro hf
    cases hf
  split
  · rename_i pf _
    dsimp only
    split_ifs
    · intro hf
      cases hf
    · intro hf
      cases hf
    · intro _
      use (normalizePortForwardTarget pf).1
      rfl
    · intro _
      use (normalizePortForwardTarget pf).1
      rfl
  · intro hf
    cases hf

theorem check_connectPortForwardIfNeeded :
  Check c (c.connectPortForwardIfNeeded e)
  := by
  rw [connectPortForwardIfNeeded]
  split
  · exact .of_unframed (.refl c)
  split
  · dsimp only
    split_ifs
    · exact .of_unframed (.of_out_eq rfl rfl)
    · exact .of_unframed (.of_out_eq rfl rfl)
    · exact .of_false ((Emits.refl c).withAuth.emit (by rfl))
    · exact .of_false ((Emits.refl c).withAuth.emit (by rfl))
  · exact .of_unframed (.refl c)

@[simp]
theorem core_updateScopedLoginOptions :
  (c.updateScopedLoginOptions h e).core = c.core
  := by
  rw [updateScopedLoginOptions]
  split
  · rfl
  · dsimp only
    split
    · rfl
    · split
      · exact core_updateOptions h e _ _
      · rfl

/-- The ID of the terminal service is the one on record, or a fresh one where there is none. -/
def ServiceId (e : Env) (a : Auth) (sid : String) : Prop :=
  sid = a.terminalServiceId ∨ a.terminalServiceId.isEmpty = true ∧ sid = e.generateServiceId

/-- Only the ID of the terminal service may change: a session without one gets a fresh one. -/
def OnlyServiceId (e : Env) (c c' : Conn) : Prop :=
  ∃ sid, ServiceId e c.auth sid
    ∧ c'.core = c.core.withAuth fun a => { a with terminalServiceId := sid }

variable {e c} in
theorem OnlyServiceId.of_core {c' : Conn} (hc : c'.core = c.core) :
  OnlyServiceId e c c'
  := ⟨c.auth.terminalServiceId, Or.inl rfl, hc⟩

theorem onlyServiceId_initTerminalService :
  OnlyServiceId e c (c.initTerminalService e)
  := by
  rw [initTerminalService]
  split
  · exact OnlyServiceId.of_core rfl
  · dsimp only
    split_ifs with hempty
    · exact ⟨e.generateServiceId, Or.inr ⟨hempty, rfl⟩, rfl⟩
    · exact OnlyServiceId.of_core rfl

theorem onlyServiceId_startSession (b : Bool) :
  OnlyServiceId e c (c.startSession h e b)
  := by
  rw [startSession]
  split
  · dsimp only
    split_ifs <;> exact OnlyServiceId.of_core rfl
  · split
    · dsimp only
      split_ifs
      · apply onlyServiceId_initTerminalService e (c.withPerm fun p => { p with keyboard := false })
      · exact OnlyServiceId.of_core rfl
    · split
      · dsimp only
        split_ifs
        · exact OnlyServiceId.of_core rfl
        · apply OnlyServiceId.of_core
          exact (c.quiet_trySubCameraDisplays e).1
      · split_ifs
        · exact OnlyServiceId.of_core (c.core_trySubMonitorServices h e)
        · exact OnlyServiceId.of_core rfl

theorem quiet_updateCodecOnLogin : Quiet c c.updateCodecOnLogin := quiet_emit _ _

theorem quiet_sendLogonResponse :
  Quiet c (c.sendLogonResponse e).1
  := by
  unfold sendLogonResponse
  split_ifs
  · exact quiet_emit _ _
  · exact c.quiet_updateCodecOnLogin.trans (quiet_emit _ _)
  · unfold remoteLogonResponse
    dsimp only
    split
    · split_ifs
      · exact ((quiet_emit _ _).trans (quiet_updateCodecOnLogin _)).trans (quiet_emit _ _)
      · exact c.quiet_updateCodecOnLogin.trans (quiet_emit _ _)
    · split_ifs
      · have hb : Quiet c ((c.send .isInited).withBook fun b => { b with displayIdx := ‹Nat› }) :=
          ⟨rfl, rfl⟩
        exact (hb.trans (quiet_updateCodecOnLogin _)).trans (quiet_emit _ _)
      · have hb : Quiet c (c.withBook fun b => { b with displayIdx := ‹Nat› }) := ⟨rfl, rfl⟩
        exact (hb.trans (quiet_updateCodecOnLogin _)).trans (quiet_emit _ _)

theorem onlyServiceId_sendLogonResponseAuthorized :
  OnlyServiceId e c (c.sendLogonResponseAuthorized h e)
  := by
  rw [sendLogonResponseAuthorized]
  split
  · exact OnlyServiceId.of_core rfl
  split
  · exact OnlyServiceId.of_core rfl
  · obtain ⟨sid, hfrom, hsid⟩ := onlyServiceId_startSession h e
      ((c.sendLogonResponse e).1.updateScopedLoginOptions h e) (c.sendLogonResponse e).2
    have hcore : ((c.sendLogonResponse e).1.updateScopedLoginOptions h e).core = c.core := by
      rw [core_updateScopedLoginOptions, (c.quiet_sendLogonResponse e).1]
    rw [hcore] at hsid
    rw [auth_eq_of_core hcore] at hfrom
    exact ⟨sid, hfrom, hsid⟩

/-- The connection as it stands when every check of
`send_logon_response_and_keep_alive` has passed. -/
def Admitted (h : Host) (e : Env) (c c₁ : Conn) : Prop :=
  let c₀ := c.withAuth fun a => { a with awaiting2fa := false }
  (c₀.prepareTerminalLoginForAuthorization h e).2 = true
    ∧ ((c₀.prepareTerminalLoginForAuthorization h e).1.connectPortForwardIfNeeded e).2 = true
    ∧ c₁ = ((c₀.prepareTerminalLoginForAuthorization h e).1.connectPortForwardIfNeeded e).1

/-- A login that `send_logon_response_and_keep_alive` refused. -/
structure Refused (c c' : Conn) : Prop where
  core : ∃ t a, c'.core = c.core.withAuth fun x =>
    { x with awaiting2fa := false, terminalUserToken := t, portForwardAddress := a }
  control : c'.control = c.control
  emits : Emits NoHandshake c c'

/-- `send_logon_response_and_keep_alive` on a connection that is not yet authorized asks for
the second factor, or refuses, or authorizes the connection. -/
theorem sendLogonResponseAndKeepAlive_cases (hun : c.auth.authorized = false) :
  (c.asks2fa h e = true ∧ c.sendLogonResponseAndKeepAlive h e
      = ((c.withAuth fun a => { a with awaiting2fa := true }).sendLoginError e require2faError,
        true))
    ∨ (c.asks2fa h e = false ∧ (c.sendLogonResponseAndKeepAlive h e).2 = false
      ∧ Refused c (c.sendLogonResponseAndKeepAlive h e).1)
    ∨ (c.asks2fa h e = false ∧ ∃ c₁, Admitted h e c c₁
      ∧ c.sendLogonResponseAndKeepAlive h e
        = (c₁.setAuthorized.sendLogonResponseAuthorized h e, true))
  := by
  rw [sendLogonResponseAndKeepAlive]
  rw [hun]
  cases hask : c.asks2fa h e with
  | true =>
      left
      exact ⟨rfl, rfl⟩
  | false =>
      right
      dsimp only
      simp only [Bool.false_eq_true, if_false]
      generalize hc₀ : (c.withAuth fun a => { a with awaiting2fa := false }) = c₀
      have hctl₀ : c₀.control = c.control := by
        rw [← hc₀]
        rfl
      have hem₀ : Emits NoHandshake c c₀ := by
        rw [← hc₀]
        exact (Emits.refl c).withAuth
      obtain ⟨hctl, t, hprep⟩ := c₀.onlyToken_prepareTerminalLoginForAuthorization h e
      have hcheck := c₀.check_prepareTerminalLoginForAuthorization h e
      rcases andThen_cases (c₀.prepareTerminalLoginForAuthorization h e) _ with
        ⟨hf, heq⟩ | ⟨hkeep, heq⟩
      · left
        rw [heq]
        refine ⟨trivial, hf, ⟨t, c.auth.portForwardAddress, ?_⟩, hctl.trans hctl₀,
          hem₀.trans hcheck.1⟩
        rw [hprep, ← hc₀]
        rfl
      · rw [heq]
        have hconnect := check_connectPortForwardIfNeeded e
          (c₀.prepareTerminalLoginForAuthorization h e).1
        rcases andThen_cases
            ((c₀.prepareTerminalLoginForAuthorization h e).1.connectPortForwardIfNeeded e) _ with
          ⟨hf, heq'⟩ | ⟨hkeep', heq'⟩
        · left
          rw [heq']
          obtain ⟨a, hconn⟩ := core_connectPortForwardIfNeeded_of_refused e _ hf
          refine ⟨trivial, hf, ⟨t, a, ?_⟩, ?_, hem₀.trans (hcheck.1.trans hconnect.1)⟩
          · rw [hconn, hprep, ← hc₀]
            rfl
          · rw [control_connectPortForwardIfNeeded, hctl, hctl₀]
        · right
          rw [heq']
          refine ⟨trivial, _, ⟨?_, ?_, rfl⟩, ?_⟩
          · rw [hc₀]
            exact hkeep
          · rw [hc₀]
            exact hkeep'
          · rw [hc₀]

section Admitted

variable {h e c}

/-- What the checks leave of the core they found. -/
theorem Admitted.core {c₁ : Conn} (hadm : Admitted h e c c₁) :
  ∃ t a s m, (c.auth.terminal = false → t = c.auth.terminalUserToken)
    ∧ TargetAddress c.auth a ∧ c₁.core =
    { c.core.withAuth fun x =>
        { x with awaiting2fa := false, terminalUserToken := t, portForwardAddress := a } with
      portForwardSocket := s, portForwardMux := m }
  := by
  obtain ⟨-, -, rfl⟩ := hadm
  generalize hc₀ : (c.withAuth fun a => { a with awaiting2fa := false }) = c₀
  have hterm : c₀.auth.terminal = c.auth.terminal
      ∧ c₀.auth.terminalUserToken = c.auth.terminalUserToken := by
    rw [← hc₀]
    exact ⟨rfl, rfl⟩
  obtain ⟨-, t, hprep⟩ := c₀.onlyToken_prepareTerminalLoginForAuthorization h e
  obtain ⟨a, s, m, haddress, hconn⟩ := core_connectPortForwardIfNeeded e
    (c₀.prepareTerminalLoginForAuthorization h e).1
  have hauth : (c₀.prepareTerminalLoginForAuthorization h e).1.auth = _ := congrArg Core.auth hprep
  refine ⟨t, a, s, m, ?_, ?_, ?_⟩
  · intro hno
    rw [c₀.prepareTerminalLoginForAuthorization_of_not_terminal h e (hterm.1.trans hno)] at hprep
    have ht : c₀.auth.terminalUserToken = t := congrArg (fun k => k.auth.terminalUserToken) hprep
    rw [← ht, hterm.2]
  · rw [hauth, ← hc₀] at haddress
    apply haddress
  · rw [hconn, hprep, ← hc₀]
    rfl

theorem Admitted.control {c₁ : Conn} (hadm : Admitted h e c c₁) :
  c₁.control = c.control
  := by
  obtain ⟨-, -, rfl⟩ := hadm
  rw [control_connectPortForwardIfNeeded,
    (onlyToken_prepareTerminalLoginForAuthorization h e _).1]
  rfl

/-- The checks of a login that passed wrote nothing to the peer. -/
theorem Admitted.unframed {c₁ : Conn} (hadm : Admitted h e c c₁) :
  Emits Unframed c c₁
  := by
  obtain ⟨hprep, hconn, rfl⟩ := hadm
  exact (((Emits.refl c).withAuth).trans
    ((check_prepareTerminalLoginForAuthorization h e _).2 hprep)).trans
    ((check_connectPortForwardIfNeeded e _).2 hconn)

end Admitted

/-! ### The checks before approval -/

theorem quiet_checkIdWhitelist :
  Quiet c (c.checkIdWhitelist h e).1
  := by
  rw [checkIdWhitelist]
  split
  · exact c.quiet_refl
  · split
    · exact ⟨rfl, rfl⟩
    · split_ifs <;> exact ⟨rfl, rfl⟩

theorem check_checkIdWhitelist :
  Check c (c.checkIdWhitelist h e)
  := by
  rw [checkIdWhitelist]
  split
  · exact .of_unframed (.refl c)
  split
  · exact c.check_sendLoginError e _
  · split_ifs
    · exact .of_unframed (.refl c)
    · exact .of_false (((Emits.refl c).emit (by rfl)).emit (by rfl))

/-- A peer that passes the check is allowed by the whitelist. -/
theorem idWhitelistAllows_of_checkIdWhitelist (hkeep : (c.checkIdWhitelist h e).2 = true) :
  idWhitelistAllows h e.idWhitelist c.auth.lr.myId.val = true
  := by
  rw [checkIdWhitelist] at hkeep
  split at hkeep
  · rename_i hempty
    simp [idWhitelistAllows, hempty]
  · split at hkeep
    · cases hkeep
    · split at hkeep
      · assumption
      · cases hkeep

/-- Only the scope of the session may change. -/
def OnlyScope (c c' : Conn) : Prop :=
  c'.control = c.control ∧ ∃ ft vc t a sid, c'.core = c.core.withAuth fun x =>
    { x with
      fileTransfer := ft, viewCamera := vc, terminal := t, portForwardAddress := a,
      terminalServiceId := sid }

variable {c} in
theorem OnlyScope.of_quiet {c' : Conn} (hq : Quiet c c') :
  OnlyScope c c'
  := ⟨hq.2, c.auth.fileTransfer, c.auth.viewCamera, c.auth.terminal, c.auth.portForwardAddress,
    c.auth.terminalServiceId, hq.1⟩

theorem onlyScope_permitScope
    {option : EnableOption} {err : String} {set : Conn → Conn × Bool}
    (hset : OnlyScope c (set c).1) :
  OnlyScope c (c.permitScope e option err set).1
  := by
  rw [permitScope]
  split_ifs
  · exact hset
  · exact OnlyScope.of_quiet ⟨rfl, rfl⟩

theorem onlyScope_setSessionScope (lr : LoginRequest) :
  OnlyScope c (c.setSessionScope h e lr).1
  := by
  rw [setSessionScope]
  split
  · apply onlyScope_permitScope
    exact ⟨rfl, _, c.auth.viewCamera, c.auth.terminal, c.auth.portForwardAddress,
      c.auth.terminalServiceId, rfl⟩
  · apply onlyScope_permitScope
    exact ⟨rfl, c.auth.fileTransfer, true, c.auth.terminal, c.auth.portForwardAddress,
      c.auth.terminalServiceId, rfl⟩
  · apply onlyScope_permitScope
    rw [setTerminalScope]
    split_ifs
    · exact OnlyScope.of_quiet ⟨rfl, rfl⟩
    · exact ⟨rfl, c.auth.fileTransfer, c.auth.viewCamera, true, c.auth.portForwardAddress, _, rfl⟩
  · apply onlyScope_permitScope
    exact ⟨rfl, c.auth.fileTransfer, c.auth.viewCamera, c.auth.terminal, _,
      c.auth.terminalServiceId, rfl⟩
  · rw [checkPrivacyModeOn]
    split_ifs <;> exact OnlyScope.of_quiet ⟨rfl, rfl⟩
  · rw [checkPrivacyModeOn]
    split_ifs <;> exact OnlyScope.of_quiet ⟨rfl, rfl⟩

theorem check_permitScope
    {option : EnableOption} {err : String} {set : Conn → Conn × Bool} (hset : Check c (set c)) :
  Check c (c.permitScope e option err set)
  := by
  rw [permitScope]
  split_ifs
  · exact hset
  · exact c.check_sendLoginError e err

theorem check_setSessionScope (lr : LoginRequest) :
  Check c (c.setSessionScope h e lr)
  := by
  have hprivacy : Check c (c.checkPrivacyModeOn e) := by
    rw [checkPrivacyModeOn]
    split_ifs
    · exact c.check_sendLoginError e _
    · exact .of_unframed (.refl c)
  rw [setSessionScope]
  split
  · apply check_permitScope
    exact .of_unframed (Emits.refl c).withAuth
  · apply check_permitScope
    exact .of_unframed (Emits.refl c).withAuth
  · apply check_permitScope
    rw [setTerminalScope]
    split_ifs
    · exact c.check_sendLoginError e _
    · exact .of_unframed (Emits.refl c).withAuth.withBook
  · apply check_permitScope
    exact .of_unframed (Emits.refl c).withAuth
  · exact hprivacy
  · exact hprivacy

theorem check_checkLoginTarget (lr : LoginRequest) :
  Check c (c.checkLoginTarget h e lr)
  := by
  rw [checkLoginTarget]
  split_ifs
  · exact c.check_sendLoginError e _
  · exact c.check_sendLoginError e _
  · exact .of_unframed c.unframed_tryStartCmIpc
  · exact .of_unframed (.refl c)

theorem unframed_validatePassword (b : Bool) :
  Emits Unframed c (c.validatePassword h e b).1
  := by
  rw [validatePassword]
  split_ifs
  · exact ((Emits.refl c).emit (by rfl)).emit (by rfl)
  · exact .refl c

theorem check_prepareTerminalBeforeApproval (lr : LoginRequest) :
  Check c (c.prepareTerminalBeforeApproval h e lr)
  := by
  rw [prepareTerminalBeforeApproval]
  split_ifs
  · exact c.check_prepareTerminalLoginForAuthorization h e
  · exact .of_unframed (.refl c)

theorem prepareTerminalBeforeApproval_of_not_terminal (lr : LoginRequest)
    (ht : c.auth.terminal = false) :
  c.prepareTerminalBeforeApproval h e lr = (c, true)
  := by
  rw [prepareTerminalBeforeApproval]
  split_ifs
  · exact c.prepareTerminalLoginForAuthorization_of_not_terminal h e ht
  · rfl

theorem quiet_checkLoginTarget (lr : LoginRequest) :
  Quiet c (c.checkLoginTarget h e lr).1
  := by
  rw [checkLoginTarget]
  split_ifs
  · exact ⟨rfl, rfl⟩
  · exact ⟨rfl, rfl⟩
  · exact c.quiet_tryStartCmIpc
  · exact c.quiet_refl

theorem quiet_validatePassword (b : Bool) :
  Quiet c (c.validatePassword h e b).1
  := by
  rw [validatePassword]
  split_ifs <;> exact ⟨rfl, rfl⟩

theorem onlyToken_prepareTerminalBeforeApproval (lr : LoginRequest) :
  OnlyToken c (c.prepareTerminalBeforeApproval h e lr).1
  := by
  rw [prepareTerminalBeforeApproval]
  split_ifs
  · exact c.onlyToken_prepareTerminalLoginForAuthorization h e
  · exact OnlyToken.of_quiet c.quiet_refl

/-! ### A login request up to its approval -/

/-- The scope a request asks for. -/
def scopedAuth (union : Option LoginUnion) (a : Auth) : Auth :=
  match union with
  | some (.fileTransfer ft) =>
      { a with
        fileTransfer := some (ft.dir.val, ft.showHidden), viewCamera := false, terminal := false,
        portForwardAddress := "" }
  | some .viewCamera =>
      { a with fileTransfer := none, viewCamera := true, terminal := false,
               portForwardAddress := "" }
  | some (.terminal t) =>
      { a with fileTransfer := none, viewCamera := false, terminal := true,
               portForwardAddress := "", terminalServiceId := t.serviceId.val }
  | some (.portForward pf) =>
      { a with fileTransfer := none, viewCamera := false, terminal := false,
               portForwardAddress := (normalizePortForwardTarget pf).1 }
  | none | some .unknown =>
      { a with fileTransfer := none, viewCamera := false, terminal := false,
               portForwardAddress := "" }

theorem scopedAuth_terminalUserToken (union : Option LoginUnion) (a : Auth) :
  (scopedAuth union a).terminalUserToken = a.terminalUserToken
  := by
  rcases union with _ | (_ | _ | _ | _ | _) <;> rfl

/-- The scope after `reset_session_scope_for_login`. -/
def resetAuth (a : Auth) : Auth :=
  { a with fileTransfer := none, viewCamera := false, terminal := false, portForwardAddress := "" }

theorem core_checkPrivacyModeOn {k : Core} (hk : c.core = k) :
  (c.checkPrivacyModeOn e).2 = true → (c.checkPrivacyModeOn e).1.core = k
  := by
  rw [checkPrivacyModeOn]
  split_ifs
  · intro hf
    cases hf
  · intro _
    exact hk

/-- A connection whose scope was reset gets the scope the request asks for. -/
theorem core_setSessionScope {lr : LoginRequest} {k : Core} (hk : c.core = k.withAuth resetAuth)
    (hkeep : (c.setSessionScope h e lr).2 = true) :
  (c.setSessionScope h e lr).1.core = k.withAuth (scopedAuth lr.union)
  := by
  revert hkeep
  unfold setSessionScope permitScope
  rcases lr.union with _ | (ft | _ | t | pf | _)
  · exact c.core_checkPrivacyModeOn e hk
  · dsimp only
    split_ifs
    · intro _
      rw [core_withAuth, hk]
      rfl
    · intro hf
      cases hf
  · dsimp only
    split_ifs
    · intro _
      rw [core_withAuth, hk]
      rfl
    · intro hf
      cases hf
  · dsimp only
    split_ifs
    · unfold setTerminalScope
      split_ifs
      · intro hf
        cases hf
      · intro _
        rw [core_withBook, core_withAuth, hk]
        rfl
    · intro hf
      cases hf
  · dsimp only
    split_ifs
    · intro _
      rw [core_withAuth, hk]
      rfl
    · intro hf
      cases hf
  · exact c.core_checkPrivacyModeOn e hk

/-- What a login request decides before its approval. -/
def requestedAuth (lr : LoginRequest) (a : Auth) : Auth :=
  scopedAuth lr.union
    { a with
      loginScope := some (loginScopeDigest h lr), awaiting2fa := false, lr := lr,
      require2fa := a.require2fa && !matchesTrustedDevice e lr }

/-- The request is the first one, or asks for the scope of the first one. -/
def LatchAllows (lr : LoginRequest) : Prop :=
  c.auth.loginScope = none ∨ c.auth.loginScope = some (loginScopeDigest h lr)

/-- The connection a login request leaves for its approval. -/
structure Prepared (lr : LoginRequest) (c₁ : Conn) : Prop where
  latch : LatchAllows h c lr
  allowed : idWhitelistAllows h e.idWhitelist lr.myId.val = true
  core : c₁.core = c.core.withAuth (requestedAuth h e lr)
  control : c₁.control = c.control
  unframed : Emits Unframed c c₁

/-- What a login request that is refused before its approval leaves alone. -/
structure Unapproved (c c' : Conn) : Prop where
  authorized : c'.auth.authorized = c.auth.authorized
  authedConnId : c'.auth.authedConnId = c.auth.authedConnId
  token : c'.auth.terminalUserToken = c.auth.terminalUserToken
  control : c'.control = c.control
  socket : c'.portForwardSocket = c.portForwardSocket
  emits : Emits NoHandshake c c'

section Unapproved

variable {c}

theorem Unapproved.trans {c' c'' : Conn} (h₁ : Unapproved c c') (h₂ : Unapproved c' c'') :
  Unapproved c c''
  where
    authorized := h₂.authorized.trans h₁.authorized
    authedConnId := h₂.authedConnId.trans h₁.authedConnId
    token := h₂.token.trans h₁.token
    control := h₂.control.trans h₁.control
    socket := h₂.socket.trans h₁.socket
    emits := h₁.emits.trans h₂.emits

theorem Unapproved.refl (c : Conn) : Unapproved c c := ⟨rfl, rfl, rfl, rfl, rfl, .refl c⟩

theorem Unapproved.withBook {c' : Conn} {g : Book → Book} (hc : Unapproved c c') :
  Unapproved c (c'.withBook g)
  := hc.trans ⟨rfl, rfl, rfl, rfl, rfl, .of_out_eq rfl rfl⟩

theorem Unapproved.withAuth {c' : Conn} {g : Auth → Auth} (hc : Unapproved c c')
    (hg : ∀ a, (g a).authorized = a.authorized ∧ (g a).authedConnId = a.authedConnId
      ∧ (g a).terminalUserToken = a.terminalUserToken) :
  Unapproved c (c'.withAuth g)
  := by
  obtain ⟨hauthorized, hauthed, htoken⟩ := hg c'.auth
  exact hc.trans ⟨hauthorized, hauthed, htoken, rfl, rfl, .of_out_eq rfl rfl⟩

theorem Unapproved.handleLoginRequestWithoutValidation {c' : Conn} {e : Env} {lr : LoginRequest}
    (hc : Unapproved c c') :
  Unapproved c (c'.handleLoginRequestWithoutValidation e lr)
  := by
  apply Unapproved.withBook
  apply hc.withAuth
  intro a
  exact ⟨rfl, rfl, rfl⟩

theorem Unapproved.resetSessionScopeForLogin {c' : Conn} (hc : Unapproved c c') :
  Unapproved c c'.resetSessionScopeForLogin
  := by
  apply Unapproved.withBook
  apply hc.withAuth
  intro a
  exact ⟨rfl, rfl, rfl⟩

theorem Unapproved.of_quiet {r : Conn × Bool} (hq : Quiet c r.1) (hcheck : Check c r) :
  Unapproved c r.1
  := by
  have hauth := auth_eq_of_core hq.1
  constructor
  · rw [hauth]
  · rw [hauth]
  · rw [hauth]
  · exact hq.2
  · exact congrArg Core.portForwardSocket hq.1
  · exact hcheck.1

theorem Unapproved.of_onlyScope {r : Conn × Bool} (hs : OnlyScope c r.1) (hcheck : Check c r) :
  Unapproved c r.1
  := by
  obtain ⟨hctl, ft, vc, t, a, sid, hcore⟩ := hs
  have hauth : r.1.auth = _ := congrArg Core.auth hcore
  constructor
  · rw [hauth]
    rfl
  · rw [hauth]
    rfl
  · rw [hauth]
    rfl
  · exact hctl
  · exact congrArg Core.portForwardSocket hcore
  · exact hcheck.1

end Unapproved

theorem checkLoginScope_cases (lr : LoginRequest) :
  ((c.checkLoginScope h e lr).2 = false ∧ ¬ LatchAllows h c lr
      ∧ Quiet c (c.checkLoginScope h e lr).1 ∧ Check c (c.checkLoginScope h e lr))
    ∨ (LatchAllows h c lr ∧ c.checkLoginScope h e lr
      = (c.withAuth fun a => { a with loginScope := some (loginScopeDigest h lr) }, true))
  := by
  rw [checkLoginScope, LatchAllows]
  cases hl : c.auth.loginScope with
  | none =>
      right
      exact ⟨Or.inl rfl, rfl⟩
  | some initial =>
      dsimp only
      split_ifs with hne
      · left
        refine ⟨rfl, ?_, ⟨rfl, rfl⟩, c.check_sendLoginError e _⟩
        rintro (hf | hs)
        · cases hf
        · exact hne (Option.some.inj hs)
      · right
        have heq : initial = loginScopeDigest h lr := not_not.mp hne
        refine ⟨Or.inr (by rw [heq]), ?_⟩
        rw [← heq, ← hl]
        rfl

/-- A request whose scope was reset is refused, or gets its scope and is left for its
approval. -/
theorem requestScope_cases {lr : LoginRequest} {k : Core} (hk : c.core = k.withAuth resetAuth) :
  let r := andThen (c.checkIdWhitelist h e) fun c =>
    andThen (c.setSessionScope h e lr) fun c =>
    andThen (c.checkLoginTarget h e lr) fun c =>
    c.approveLogin h e lr
  (r.2 = false ∧ Unapproved c r.1)
    ∨ ∃ c₁ : Conn, idWhitelistAllows h e.idWhitelist c.auth.lr.myId.val = true
      ∧ c₁.core = k.withAuth (scopedAuth lr.union) ∧ c₁.control = c.control
      ∧ Emits Unframed c c₁ ∧ r = c₁.approveLogin h e lr
  := by
  dsimp only
  have hq := c.quiet_checkIdWhitelist h e
  have hcheck := c.check_checkIdWhitelist h e
  rcases andThen_cases (c.checkIdWhitelist h e) _ with ⟨hf, heq⟩ | ⟨hwl, heq⟩
  · left
    rw [heq]
    exact ⟨hf, .of_quiet hq hcheck⟩
  rw [heq]
  have hallow := c.idWhitelistAllows_of_checkIdWhitelist h e hwl
  have hemit := hcheck.2 hwl
  have hun := Unapproved.of_quiet hq hcheck
  generalize (c.checkIdWhitelist h e).1 = c₂ at hq hemit hun
  have hscope := c₂.onlyScope_setSessionScope h e lr
  have hcheck₂ := c₂.check_setSessionScope h e lr
  rcases andThen_cases (c₂.setSessionScope h e lr) _ with ⟨hf, heq⟩ | ⟨hset, heq⟩
  · left
    rw [heq]
    exact ⟨hf, hun.trans (.of_onlyScope hscope hcheck₂)⟩
  rw [heq]
  have hcore := c₂.core_setSessionScope h e (hq.1.trans hk) hset
  have hctl := hscope.1.trans hq.2
  have hemit := hemit.trans (hcheck₂.2 hset)
  have hun := hun.trans (.of_onlyScope hscope hcheck₂)
  generalize (c₂.setSessionScope h e lr).1 = c₃ at hcore hctl hemit hun
  have hq₃ := c₃.quiet_checkLoginTarget h e lr
  have hcheck₃ := c₃.check_checkLoginTarget h e lr
  rcases andThen_cases (c₃.checkLoginTarget h e lr) _ with ⟨hf, heq⟩ | ⟨htgt, heq⟩
  · left
    rw [heq]
    exact ⟨hf, hun.trans (.of_quiet hq₃ hcheck₃)⟩
  · right
    exact ⟨_, hallow, hq₃.1.trans hcore, hq₃.2.trans hctl, hemit.trans (hcheck₃.2 htgt), heq⟩

/-- A login request is refused, or left for its approval. -/
theorem onLoginRequest_cases (lr : LoginRequest) (hun : c.auth.authorized = false) :
  ((c.onLoginRequest h e lr).2 = false ∧ Unapproved c (c.onLoginRequest h e lr).1)
    ∨ ∃ c₁, Prepared h e c lr c₁ ∧ c.onLoginRequest h e lr = c₁.approveLogin h e lr
  := by
  rw [onLoginRequest]
  rcases c.checkLoginScope_cases h e lr with ⟨hf, -, hq, hcheck⟩ | ⟨hlatch, heq⟩
  · left
    rcases andThen_cases (c.checkLoginScope h e lr) _ with ⟨-, heq⟩ | ⟨ht, -⟩
    · rw [heq]
      exact ⟨hf, .of_quiet hq hcheck⟩
    · rw [hf] at ht
      cases ht
  rw [heq, andThen_true]
  dsimp only
  rw [if_neg (by simpa [handleLoginRequestWithoutValidation, withAuth, withBook] using hun)]
  generalize hc₂ : resetSessionScopeForLogin _ = c₂
  have hcore₂ : c₂.core = (c.core.withAuth fun a =>
      { a with
        loginScope := some (loginScopeDigest h lr), awaiting2fa := false, lr := lr,
        require2fa := a.require2fa && !matchesTrustedDevice e lr }).withAuth resetAuth := by
    rw [← hc₂]
    rfl
  have hreset : Unapproved c c₂ := by
    rw [← hc₂]
    apply Unapproved.resetSessionScopeForLogin
    apply Unapproved.handleLoginRequestWithoutValidation
    apply Unapproved.withAuth
    · apply (Unapproved.refl c).withAuth
      intro a
      exact ⟨rfl, rfl, rfl⟩
    · intro a
      exact ⟨rfl, rfl, rfl⟩
  have hemit : Emits Unframed c c₂ := by
    rw [← hc₂]
    exact (Emits.refl c).withAuth.withAuth.withAuth.withBook.withAuth.withBook
  clear hc₂
  have hscope := @requestScope_cases h e c₂ lr _ hcore₂
  rcases hscope with
    ⟨hf, hunap⟩ | ⟨c₁, hallow, hcore, hctl, hemit', heq⟩
  · left
    exact ⟨hf, hreset.trans hunap⟩
  · right
    have hlr₂ : c₂.auth.lr = lr := congrArg (fun k => k.auth.lr) hcore₂
    rw [hlr₂] at hallow
    exact ⟨c₁, ⟨hlatch, hallow, hcore, hctl.trans hreset.control, hemit.trans hemit'⟩, heq⟩

/-! ### The approval -/

/-- The password of the current request is valid: a recent session, or the temporary or the
permanent password. -/
def passwordValid : Bool :=
  c.isRecentSession h e false
    || !c.auth.lr.password.isEmpty
      && (c.temporaryPasswordValid h e
        || c.permanentPasswordValid h e (allowLogonScreenPassword h e))

/-- The checks of the password read the hash parameters and the request only. -/
theorem passwordValid_congr {c c' : Conn} (hsalt : c'.salt = c.salt)
    (hchallenge : c'.challenge = c.challenge) (hlr : c'.auth.lr = c.auth.lr) :
  c'.passwordValid h e = c.passwordValid h e
  := by
  simp only [passwordValid, isRecentSession, temporaryPasswordValid, permanentPasswordValid,
    validatePasswordPlain, validatePasswordStorage, validatePresetPasswordStorage, verifyH1,
    hsalt, hchallenge, hlr]

/-- A login that waits, for a click or for another password, or that is refused. -/
structure Waits (c c' : Conn) : Prop where
  onlyToken : OnlyToken c c'
  token : c.auth.terminal = false → c'.auth.terminalUserToken = c.auth.terminalUserToken
  emits : Emits NoHandshake c c'

variable {c} in
theorem Waits.of_quiet {c' : Conn} (hq : Quiet c c') (hemit : Emits NoHandshake c c') :
  Waits c c'
  := ⟨.of_quiet hq, fun _ => by rw [auth_eq_of_core hq.1], hemit⟩

variable {c} in
theorem Waits.trans_quiet {c' c'' : Conn} (hw : Waits c c') (hq : Quiet c' c'')
    (hemit : Emits NoHandshake c' c'') :
  Waits c c''
  := by
  refine ⟨hw.onlyToken.trans_quiet hq, ?_, hw.emits.trans hemit⟩
  intro ht
  rw [auth_eq_of_core hq.1]
  exact hw.token ht

theorem waits_prepareTerminalBeforeApproval (lr : LoginRequest) :
  Waits c (c.prepareTerminalBeforeApproval h e lr).1
  := by
  refine ⟨c.onlyToken_prepareTerminalBeforeApproval h e lr, ?_,
    (c.check_prepareTerminalBeforeApproval h e lr).1⟩
  intro ht
  rw [c.prepareTerminalBeforeApproval_of_not_terminal h e lr ht]

/-- A login that is not approved at once prepares the terminal, and waits. -/
theorem waits_andThen_prepareTerminalBeforeApproval (lr : LoginRequest) {f : Conn → Conn}
    (hf : ∀ c, Quiet c (f c) ∧ Emits NoHandshake c (f c)) :
  Waits c (andThen (c.prepareTerminalBeforeApproval h e lr) fun c => (f c, true)).1
  := by
  have hprep := c.waits_prepareTerminalBeforeApproval h e lr
  rcases andThen_cases (c.prepareTerminalBeforeApproval h e lr) _ with ⟨-, heq⟩ | ⟨-, heq⟩
  · rw [heq]
    exact hprep
  · rw [heq]
    exact hprep.trans_quiet (hf _).1 (hf _).2

/-- Only a valid password, and no wait for a click, gets a request to
`send_logon_response_and_keep_alive`. -/
theorem approveLogin_cases {lr : LoginRequest} (hlr : c.auth.lr = lr) :
  Waits c (c.approveLogin h e lr).1
    ∨ (needsClick h e = false ∧ c.passwordValid h e = true
      ∧ ∃ c₁, Quiet c c₁ ∧ Emits Unframed c c₁
        ∧ c.approveLogin h e lr = c₁.logonAndStartCm h e lr)
  := by
  rw [approveLogin]
  split
  · left
    apply waits_andThen_prepareTerminalBeforeApproval
    intro c
    split_ifs
    · exact ⟨⟨by simp, by simp⟩, ((Emits.refl c).emit (by rfl)).emit (by rfl)⟩
    · exact ⟨⟨by simp, by simp⟩, (Emits.refl c).emit (by rfl)⟩
  rename_i hclick
  have hclick : needsClick h e = false := by simpa using hclick
  split
  · rename_i hrecent
    right
    exact ⟨hclick, by simp [passwordValid, hrecent], c, c.quiet_refl, .refl c, rfl⟩
  split
  · left
    apply waits_andThen_prepareTerminalBeforeApproval
    intro c
    exact ⟨⟨by simp, by simp⟩, (Emits.refl c).emit (by rfl)⟩
  rename_i hpw
  split
  · left
    exact Waits.of_quiet ⟨rfl, rfl⟩ ((Emits.refl c).emit (by rfl))
  have hval := c.quiet_validatePassword h e (allowLogonScreenPassword h e)
  have hemit := c.unframed_validatePassword h e (allowLogonScreenPassword h e)
  split
  · rename_i c' heq
    rw [heq] at hval hemit
    left
    apply Waits.of_quiet (hval.trans ⟨by simp, by simp⟩)
    exact ((((hemit.mono fun _ hx => hx.noHandshake).emit (by rfl)).emit (by rfl)).emit (by rfl)).emit (by rfl)
  · rename_i c' heq
    rw [heq] at hval hemit
    right
    refine ⟨hclick, ?_, _, hval.trans (quiet_emit _ _), hemit.emit (by rfl), rfl⟩
    have hvalid : c.temporaryPasswordValid h e = true
        ∨ c.permanentPasswordValid h e (allowLogonScreenPassword h e) = true := by
      rw [validatePassword] at heq
      split at heq
      · left
        assumption
      · right
        exact congrArg Prod.snd heq
    rw [passwordValid, hlr]
    simpa [hpw] using Or.inr hvalid

/-- The core after the connection is authorized. -/
theorem core_setAuthorized_sendLogonResponseAuthorized :
  ∃ sid, ServiceId e c.auth sid ∧ (c.setAuthorized.sendLogonResponseAuthorized h e).core = c.core.withAuth fun a =>
    { a with
      authorized := true, authedConnId := some c.authConnTypeOnLogin, terminalServiceId := sid }
  := by
  obtain ⟨sid, hfrom, hsid⟩ := c.setAuthorized.onlyServiceId_sendLogonResponseAuthorized h e
  exact ⟨sid, hfrom, hsid⟩

variable {h e c} in
/-- What the login decided, once a connection that passed every check is authorized. -/
theorem Admitted.auth {c₁ : Conn} (hadm : Admitted h e c c₁) :
  ∃ t a sid, (c₁.setAuthorized.sendLogonResponseAuthorized h e).auth =
    { c.auth with
      awaiting2fa := false, terminalUserToken := t, portForwardAddress := a, authorized := true,
      authedConnId := some c₁.authConnTypeOnLogin, terminalServiceId := sid }
  := by
  obtain ⟨t, a, s, m, -, -, hcore⟩ := hadm.core
  obtain ⟨sid, -, hsid⟩ := c₁.core_setAuthorized_sendLogonResponseAuthorized h e
  refine ⟨t, a, sid, ?_⟩
  have hauth : (c₁.setAuthorized.sendLogonResponseAuthorized h e).auth = _ := congrArg Core.auth hsid
  rw [hauth, hcore]
  rfl

/-- A login whose password is valid waits for the second factor, or is refused, or is
authorized. -/
theorem logonAndStartCm_cases (lr : LoginRequest) (hun : c.auth.authorized = false) :
  (c.asks2fa h e = true ∧ (c.logonAndStartCm h e lr).1.control = c.control
      ∧ (c.logonAndStartCm h e lr).1.core = (c.core.withAuth fun a => { a with awaiting2fa := true })
      ∧ Emits NoHandshake c (c.logonAndStartCm h e lr).1)
    ∨ (c.asks2fa h e = false ∧ (c.logonAndStartCm h e lr).2 = false
      ∧ Refused c (c.logonAndStartCm h e lr).1)
    ∨ (c.asks2fa h e = false ∧ ∃ c₁, Admitted h e c c₁ ∧ c.logonAndStartCm h e lr
        = ((c₁.setAuthorized.sendLogonResponseAuthorized h e).tryStartCm lr.myId lr.myName
            (c₁.setAuthorized.sendLogonResponseAuthorized h e).auth.authorized, true))
  := by
  rw [logonAndStartCm]
  rcases c.sendLogonResponseAndKeepAlive_cases h e hun with
    ⟨hask, heq⟩ | ⟨hask, hf, href⟩ | ⟨hask, c₁, hadm, heq⟩
  · left
    rw [heq, andThen_true]
    exact ⟨hask, by simp, by simp, ((Emits.refl c).withAuth.emit (by rfl)).emit (by rfl)⟩
  · right; left
    rcases andThen_cases (c.sendLogonResponseAndKeepAlive h e) _ with ⟨-, heq⟩ | ⟨ht, -⟩
    · rw [heq]
      exact ⟨hask, hf, href⟩
    · rw [hf] at ht
      cases ht
  · right; right
    rw [heq, andThen_true]
    exact ⟨hask, c₁, hadm, rfl⟩

/-! ### The other login messages -/

/-- A turn that goes on with a part that changes neither group. -/
theorem andThen_quiet (r : Conn × Bool) {f : Conn → Conn}
    (hf : ∀ c, Quiet c (f c) ∧ Emits Unframed c (f c)) :
  (andThen r fun c => (f c, true)).2 = r.2 ∧ Quiet r.1 (andThen r fun c => (f c, true)).1
    ∧ Emits Unframed r.1 (andThen r fun c => (f c, true)).1
  := by
  rcases andThen_cases r (fun c => (f c, true)) with ⟨-, heq⟩ | ⟨ht, heq⟩
  · rw [heq]
    exact ⟨rfl, r.1.quiet_refl, .refl _⟩
  · rw [heq, ht]
    exact ⟨rfl, hf r.1⟩

/-- An `Auth2fa` changes nothing unless its code is accepted; then the second factor is no
longer required, and the login goes on. -/
theorem onAuth2fa_cases (tfa : Auth2fa) :
  (Quiet c (c.onAuth2fa h e tfa).1 ∧ Emits Plain c (c.onAuth2fa h e tfa).1)
    ∨ (c.auth.awaiting2fa = true ∧ e.totpCheck tfa.code = some true
      ∧ ∃ c₁ : Conn, c₁.core = (c.core.withAuth fun a => { a with require2fa := false })
        ∧ c₁.control = c.control ∧ Emits Unframed c c₁
        ∧ (c.onAuth2fa h e tfa).2 = (c₁.logonAndStartCm h e c₁.auth.lr).2
        ∧ Quiet (c₁.logonAndStartCm h e c₁.auth.lr).1 (c.onAuth2fa h e tfa).1
        ∧ Emits Unframed (c₁.logonAndStartCm h e c₁.auth.lr).1 (c.onAuth2fa h e tfa).1)
  := by
  rw [onAuth2fa]
  split
  · left
    exact ⟨c.quiet_refl, .refl c⟩
  rename_i hawait
  split
  · left
    exact ⟨⟨rfl, rfl⟩, (Emits.refl c).emit (by rfl)⟩
  split
  · split
    · rename_i htotp
      right
      refine ⟨by simpa using hawait, htotp,
        ((c.emit (.updateFailure 1 true)).withAuth fun a => { a with require2fa := false }).emit
          .setSession2fa, rfl, rfl, ((Emits.refl c).emit (by rfl)).withAuth.emit (by rfl), ?_⟩
      apply andThen_quiet
      intro c'
      split_ifs
      · exact ⟨quiet_emit _ _, (Emits.refl c').emit (by rfl)⟩
      · exact ⟨c'.quiet_refl, .refl c'⟩
    · left
      exact ⟨⟨by simp, by simp⟩, ((Emits.refl c).emit (by rfl)).emit (by rfl)⟩
    · left
      exact ⟨c.quiet_refl, .refl c⟩
  · left
    exact ⟨c.quiet_refl, .refl c⟩

/-- What an accepted `SwitchSidesResponse` decides before it logs in. -/
def switchedAuth (lr : LoginRequest) (a : Auth) : Auth :=
  { resetAuth a with
    lr := lr, require2fa := a.require2fa && !matchesTrustedDevice e lr, fromSwitch := true }

/-- A `SwitchSidesResponse` with the stored uuid asks for a remote session. -/
structure SwitchAccepted (s : SwitchSidesResponse) (lr : LoginRequest) : Prop where
  flutter : h.flutter = true
  desktop : h.desktop = true
  lr_eq : s.lr = some lr
  uuid : matchesSwitchSides e s lr = true
  union : lr.union = none
  allowed : idWhitelistAllows h e.idWhitelist lr.myId.val = true

/-- A `SwitchSidesResponse` that is not accepted changes nothing the login decided, or ends the
connection; one that is accepted logs in. -/
theorem onSwitchSidesResponse_cases (s : SwitchSidesResponse) :
  (Quiet c (c.onSwitchSidesResponse h e s).1 ∧ Emits Plain c (c.onSwitchSidesResponse h e s).1)
    ∨ ((c.onSwitchSidesResponse h e s).2 = false
      ∧ Unapproved c (c.onSwitchSidesResponse h e s).1)
    ∨ ∃ (lr : LoginRequest) (c₁ : Conn), SwitchAccepted h e s lr
      ∧ c₁.core = c.core.withAuth (switchedAuth e lr) ∧ c₁.control = c.control
      ∧ Emits Unframed c c₁
      ∧ (c.onSwitchSidesResponse h e s).2 = (c₁.logonAndStartCm h e lr).2
      ∧ Quiet (c₁.logonAndStartCm h e lr).1 (c.onSwitchSidesResponse h e s).1
      ∧ Emits Unframed (c₁.logonAndStartCm h e lr).1 (c.onSwitchSidesResponse h e s).1
  := by
  rw [onSwitchSidesResponse]
  split
  · left
    exact ⟨c.quiet_refl, .refl c⟩
  rename_i lr hlr
  split
  · rename_i hbuild
    dsimp only
    split
    · rename_i huuid
      split
      · left
        exact ⟨⟨by simp, by simp⟩, ((Emits.refl c).emit (by rfl)).emit (by rfl)⟩
      · rename_i hunion
        generalize hc₂ : handleLoginRequestWithoutValidation e lr _ = c₂
        have hcore₂ : c₂.core = c.core.withAuth fun a =>
            { resetAuth a with
              lr := lr, require2fa := a.require2fa && !matchesTrustedDevice e lr } := by
          rw [← hc₂]
          rfl
        have hreset : Unapproved c c₂ := by
          rw [← hc₂]
          apply Unapproved.handleLoginRequestWithoutValidation
          apply Unapproved.resetSessionScopeForLogin
          exact ⟨rfl, rfl, rfl, rfl, rfl, (Emits.refl c).emit (by rfl)⟩
        have hemit₂ : Emits Unframed c c₂ := by
          rw [← hc₂]
          exact ((Emits.refl c).emit (x := .removeSwitchSidesUuid lr.myId.val) (by rfl)).trans (.of_out_eq rfl rfl)
        clear hc₂
        have hlr₂ : c₂.auth.lr = lr := congrArg (fun k => k.auth.lr) hcore₂
        have hq₂ := c₂.quiet_checkIdWhitelist h e
        have hcheck := c₂.check_checkIdWhitelist h e
        rcases andThen_cases (c₂.checkIdWhitelist h e) _ with ⟨hf, heq⟩ | ⟨hwl, heq⟩
        · right; left
          rw [heq]
          exact ⟨hf, hreset.trans (.of_quiet hq₂ hcheck)⟩
        · right; right
          rw [heq]
          have hallow := c₂.idWhitelistAllows_of_checkIdWhitelist h e hwl
          rw [hlr₂] at hallow
          have hbuild : h.flutter = true ∧ h.desktop = true := by simpa using hbuild
          have hunion : lr.union = none := by simpa using hunion
          refine ⟨lr, _, ⟨hbuild.1, hbuild.2, hlr, huuid, hunion, hallow⟩, ?_, ?_,
            (hemit₂.trans (hcheck.2 hwl)).withAuth,
            andThen_quiet _ fun c' => ⟨c'.quiet_tryStartCmIpc, c'.unframed_tryStartCmIpc⟩⟩
          · rw [core_withAuth, hq₂.1, hcore₂]
            rfl
          · exact (control_withAuth _ _).trans (hq₂.2.trans hreset.control)
    · left
      exact ⟨quiet_emit _ _, (Emits.refl c).emit (by rfl)⟩
  · left
    exact ⟨c.quiet_refl, .refl c⟩

/-- A connection that is already authorized stays as it is. -/
theorem quiet_logonAndStartCm_of_authorized (lr : LoginRequest)
    (hauth : c.auth.authorized = true) :
  Quiet c (c.logonAndStartCm h e lr).1
  := by
  rw [logonAndStartCm, sendLogonResponseAndKeepAlive]
  rw [if_pos hauth, andThen_true]
  exact quiet_emit _ _

end Conn

end VynxDesk
