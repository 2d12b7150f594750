import VynxDesk.Connection.Credentials
import VynxDesk.Connection.Service
import VynxDesk.Lib.LittleEndian

/-!
# Logging in

The messages a peer that is not yet authorized can use, and the one routine that authorizes a
connection, `send_logon_response_and_keep_alive`.  A handler returns the connection and whether
to keep it; `andThen` goes on only while it is kept.
-/

namespace VynxDesk

/-- Go on with the next part of a handler while the connection is kept. -/
def andThen (r : Conn × Bool) (next : Conn → Conn × Bool) : Conn × Bool :=
  if r.2 then next r.1 else r

@[simp]
theorem andThen_true (c : Conn) (next : Conn → Conn × Bool) :
  andThen (c, true) next = next c
  := rfl

@[simp]
theorem andThen_false (c : Conn) (next : Conn → Conn × Bool) :
  andThen (c, false) next = (c, false)
  := rfl

/-- A turn either stops with its first part or goes on with the next. -/
theorem andThen_cases (r : Conn × Bool) (next : Conn → Conn × Bool) :
  (r.2 = false ∧ andThen r next = r) ∨ (r.2 = true ∧ andThen r next = next r.1)
  := by
  rw [andThen]
  cases hr : r.2 with
  | false => left; simp
  | true => right; simp

/-! ### The scope of a login -/

/-- `should_use_terminal_os_login_scope`. -/
def shouldUseTerminalOsLoginScope (h : Host) (isTerminal : Bool) (osLoginUsername : String) :
    Bool :=
  h.os = .windows && isTerminal && !(trim osLoginUsername).isEmpty

/-- `Connection::normalize_port_forward_target`: the address, and whether it is the RDP one. -/
def normalizePortForwardTarget (pf : PortForward) : String × Bool :=
  if pf.host.val = "RDP" ∧ pf.port = 0 then ("localhost:3389", true)
  else
    let host := if pf.host.val.isEmpty then "localhost" else pf.host.val
    (host ++ ":" ++ toString pf.port.toInt, false)

/-- What `login_scope_digest` hashes for one field: its length in eight bytes, and the field. -/
def pushBytes (field : Bytes) : Bytes := leBytes 8 field.length ++ field

/-- A boolean as one byte. -/
def boolByte (b : Bool) : Bytes := [if b then 1 else 0]

/-- The fields `login_scope_digest` hashes for a union.  A variant this build does not know
latches as remote, as it executes. -/
def loginScopeFields : Option LoginUnion → List Bytes
  | some (.fileTransfer ft) => [utf8 "file_transfer", ft.dir.bytes, boolByte ft.showHidden]
  | some .viewCamera => [utf8 "view_camera"]
  | some (.terminal t) => [utf8 "terminal", t.serviceId.bytes]
  | some (.portForward pf) =>
      [utf8 "port_forward", pf.host.bytes, leBytes 4 pf.port.toNat, boolByte pf.multiplex]
  | none | some .unknown => [utf8 "remote"]

/-- The byte string `login_scope_digest` hashes. -/
def loginScopeBytes (lr : LoginRequest) : Bytes :=
  (lr.myId.bytes :: loginScopeFields lr.union).flatMap pushBytes

/-- `Connection::login_scope_digest`. -/
def loginScopeDigest (h : Host) (lr : LoginRequest) : Bytes := h.sha256 (loginScopeBytes lr)

namespace Conn

/-- `Connection::reset_session_scope_for_login`. -/
def resetSessionScopeForLogin (c : Conn) : Conn :=
  (c.withAuth fun a =>
    { a with
      fileTransfer := none, viewCamera := false, terminal := false, portForwardAddress := "" }
    ).withBook fun b => { b with terminalPersistent := false }

/-- `Connection::check_login_scope`. -/
def checkLoginScope (h : Host) (e : Env) (lr : LoginRequest) (c : Conn) : Conn × Bool :=
  match c.auth.loginScope with
  | some initial =>
      if initial ≠ loginScopeDigest h lr then (c.sendLoginError e "Connection not allowed", false)
      else (c, true)
  | none => (c.withAuth fun a => { a with loginScope := some (loginScopeDigest h lr) }, true)

/-- The trusted-device check of `handle_login_request_without_validation`: the first device
with the request's hardware ID decides. -/
def matchesTrustedDevice (e : Env) (lr : LoginRequest) : Bool :=
  !lr.hwid.isEmpty && e.enableTrustedDevices &&
    match e.trustedDevices.find? (fun d => d.hwid == lr.hwid) with
    | some d => !d.outdate && d.id == lr.myId.val && d.name == lr.myName
        && d.platform == lr.myPlatform
    | none => false

/-- `Connection::handle_login_request_without_validation`. -/
def handleLoginRequestWithoutValidation (e : Env) (lr : LoginRequest) (c : Conn) : Conn :=
  (c.withAuth fun a =>
    { a with lr := lr, require2fa := a.require2fa && !matchesTrustedDevice e lr }
    ).withBook fun b =>
    { b with
      optionsInLogin := if lr.option.isSome then lr.option else b.optionsInLogin
      videoAckRequired := lr.videoAckRequired }

/-- `Connection::try_start_cm`. -/
def tryStartCm (peerId : Str) (name : String) (authorized : Bool) (c : Conn) : Conn :=
  c.sendToCm (.login
    { isFileTransfer := c.auth.fileTransfer.isSome
      isViewCamera := c.auth.viewCamera
      isTerminal := c.auth.terminal
      portForward := c.auth.portForwardAddress
      peerId := peerId
      name := name
      authorized := authorized
      fromSwitch := c.auth.fromSwitch })

/-- `Connection::try_start_cm_ipc`. -/
def tryStartCmIpc (c : Conn) : Conn :=
  if c.book.startCmIpcPara then (c.withBook fun b => { b with startCmIpcPara := false }).emit .startCmIpc else c

/-! ### The user of a terminal -/

/-- `TERMINAL_OS_LOGIN_FAILED_MSG`. -/
def terminalOsLoginFailedMsg : String := "Incorrect username or password."

/-- `TerminalUserToken::to_terminal_service_token`. -/
def toTerminalServiceToken : TerminalUserToken → Option Nat
  | .selfUser => none
  | .currentLogonUser token => some token

def setTerminalUserToken (t : Option TerminalUserToken) (c : Conn) : Conn :=
  c.withAuth fun a => { a with terminalUserToken := t }

/-- `Connection::handle_administrator_check`. -/
def handleAdministratorCheck (e : Env) (username password : String) (c : Conn) :
    Conn × Option String :=
  match e.logonCheck username password with
  | .admin => (c.setTerminalUserToken (some .selfUser), none)
  | .notAdmin | .failed => (c, some terminalOsLoginFailedMsg)

/-- `Connection::handle_installed_user`. -/
def handleInstalledUser (e : Env) (c : Conn) : Conn × Option String :=
  match e.consoleToken with
  | .noSession => (c, some "Failed to get current session id.")
  | .token t => (c.setTerminalUserToken (some (.currentLogonUser t)), none)
  | .noToken => (c, some "Failed to get user token.")

/-- `Connection::fill_terminal_user_token`: the error, if any. -/
def fillTerminalUserToken (h : Host) (e : Env) (username password : String) (c : Conn) :
    Conn × Option String :=
  if h.os = .windows then
    if !username.isEmpty then c.handleAdministratorCheck e username password
    else if e.isPrelogin then
      (c.setTerminalUserToken none,
        some "No active console user logged on, please connect and logon first.")
    else if e.isInstalled then c.handleInstalledUser e
    else (c.setTerminalUserToken (some .selfUser), none)
  else (c.setTerminalUserToken (some .selfUser), none)

/-- The end of `prepare_terminal_login_for_authorization`: a service that runs as another kind
of user is refused. -/
def checkServiceSpecifiedUser (e : Env) (c : Conn) : Conn × Bool :=
  match e.isServiceSpecifiedUser c.auth.terminalServiceId, c.auth.terminalUserToken with
  | some isUser, some token =>
      if isUser ≠ (toTerminalServiceToken token).isSome then
        (c.sendLoginError e "Terminal service user mismatch detected.", false)
      else (c, true)
  | _, _ => (c, true)

/-- The part of `prepare_terminal_login_for_authorization` that fills the token. -/
def fillTerminalUserTokenOrRefuse (h : Host) (e : Env) (isTerminalOsLogin : Bool) (c : Conn) :
    Conn × Bool :=
  match c.fillTerminalUserToken h e (trim c.auth.lr.osLogin.username) c.auth.lr.osLogin.password
  with
  | (c, some msg) =>
      ((if isTerminalOsLogin then c.emit (.updateOsFailure false) else c).sendLoginError e msg,
        false)
  | (c, none) => (if isTerminalOsLogin then c.emit (.updateOsFailure true) else c, true)

/-- `Connection::prepare_terminal_login_for_authorization`.  The source returns `Some(false)`
where this returns `false` and `None` where it returns `true`; it never returns
`Some(true)`. -/
def prepareTerminalLoginForAuthorization (h : Host) (e : Env) (c : Conn) : Conn × Bool :=
  if !h.desktop || !c.auth.terminal || c.auth.terminalUserToken.isSome then (c, true)
  else
    let isTerminalOsLogin :=
      shouldUseTerminalOsLoginScope h c.auth.terminal (trim c.auth.lr.osLogin.username)
    if isTerminalOsLogin && e.checkOsFailure.isSome then
      (c.sendLoginError e (e.checkOsFailure.getD ""), false)
    else if isTerminalOsLogin && !e.osLoginGate then
      (c.sendLoginError e "Please try 1 minute later", false)
    else
      andThen (c.fillTerminalUserTokenOrRefuse h e isTerminalOsLogin) fun c =>
      andThen (c.checkServiceSpecifiedUser e) fun c =>
      (if isTerminalOsLogin then c.tryStartCmIpc else c, true)

/-! ### Authorization -/

/-- `Connection::connect_port_forward_if_needed`. -/
def connectPortForwardIfNeeded (e : Env) (c : Conn) : Conn × Bool :=
  if c.isPortForward then (c, true)
  else
    match c.auth.lr.union with
    | some (.portForward pf) =>
        if pf.multiplex then
          ({ c with portForwardMux := some c.auth.portForwardAddress }, true)
        else
          let addr := (normalizePortForwardTarget pf).1
          let isRdp := (normalizePortForwardTarget pf).2
          let c := c.withAuth fun a => { a with portForwardAddress := addr }
          if e.connect addr then ({ c with portForwardSocket := true }, true)
          else
            (c.sendLoginError e ("Failed to access remote " ++ (if isRdp then "RDP" else addr)
              ++ ". Please make sure it is reachable/open."), false)
    | _ => (c, true)

/-- The type of session a connection is authorized for. -/
def authConnTypeOnLogin (c : Conn) : AuthConnType :=
  if c.auth.fileTransfer.isSome then .fileTransfer
  else if c.isPortForward then .portForward
  else if c.auth.viewCamera then .viewCamera
  else if c.auth.terminal then .terminal
  else .remote

/-- The fields `send_logon_response_and_keep_alive` sets once every check has passed. -/
def setAuthorized (c : Conn) : Conn :=
  (c.withAuth fun a =>
    { a with authorized := true, authedConnId := some c.authConnTypeOnLogin }).emit
    .clearIdWhitelistFailures

/-- `Connection::update_codec_on_login`. -/
def updateCodecOnLogin (c : Conn) : Conn :=
  c.emit (.encoderUpdate (c.auth.lr.option.bind (fun o => o.supportedDecoding)))

/-- `Connection::update_scoped_login_options`. -/
def updateScopedLoginOptions (h : Host) (e : Env) (c : Conn) : Conn :=
  match c.book.optionsInLogin with
  | none => c
  | some option =>
      let c := c.withBook fun b => { b with optionsInLogin := none }
      match c.authedConnType with
      | none => c
      | some connType =>
          match (option.scopedLogin connType).1 with
          | some o => c.updateOptions h e o
          | none => c

/-- `Connection::read_dir`. -/
def readDir (dir : String) (includeHidden : Bool) (c : Conn) : Conn :=
  c.sendFs (.readDir dir includeHidden)

/-- `Connection::init_terminal_service`. -/
def initTerminalService (e : Env) (c : Conn) : Conn :=
  match c.auth.terminalUserToken with
  | none => c
  | some token =>
      let c :=
        if c.auth.terminalServiceId.isEmpty then
          c.withAuth fun a => { a with terminalServiceId := e.generateServiceId }
        else c
      (c.withBook fun b => { b with terminalGenericService := true }).emit
        (.newTerminalService c.auth.terminalServiceId c.book.terminalPersistent token)

/-- Windows: whether the peer has to choose a session before the session starts. -/
def waitSessionIdConfirm (h : Host) (e : Env) (c : Conn) : Bool :=
  h.os = .windows && !c.auth.terminal && e.waitSessionIdConfirm

/-- The login response of a remote session, sent after the displays are known, and whether
the monitor services are to be subscribed to. -/
def remoteLogonResponse (e : Env) (c : Conn) : Conn × Bool :=
  let c := if e.isInitedMsg then c.send .isInited else c
  match e.syncDisplays with
  | .error err => (c.updateCodecOnLogin.send (.loginError err false), false)
  | .ok primary =>
      ((c.withBook fun b => { b with displayIdx := primary }).updateCodecOnLogin.send
        (.peerInfo false), true)

/-- The login response of a session other than a port forward, and whether the monitor services
are to be subscribed to. -/
def sendLogonResponse (e : Env) (c : Conn) : Conn × Bool :=
  if c.auth.fileTransfer.isSome || c.auth.terminal then (c.send (.peerInfo false), false)
  else if c.auth.viewCamera then (c.updateCodecOnLogin.send (.peerInfo false), false)
  else c.remoteLogonResponse e

/-- The end of `send_logon_response_and_keep_alive`: start the session. -/
def startSession (h : Host) (e : Env) (subService : Bool) (c : Conn) : Conn :=
  match c.auth.fileTransfer with
  | some (dir, showHidden) =>
      let c := c.withPerm fun p => { p with keyboard := false }
      let allowed := !dir.isEmpty && e.isDir dir && e.isPeerPathAllowed dir false
      let dir := if allowed then dir else ""
      if c.waitSessionIdConfirm h e then
        c.withBook fun b => { b with delayedReadDir := some (dir, showHidden) }
      else c.readDir dir showHidden
  | none =>
      if c.auth.terminal then
        let c := c.withPerm fun p => { p with keyboard := false }
        if h.desktop then c.initTerminalService e else c
      else if c.auth.viewCamera then
        let c := if c.waitSessionIdConfirm h e then c else c.trySubCameraDisplays e
        (c.withPerm fun p => { p with keyboard := false }).sendPermission .keyboard false
      else if subService && !c.waitSessionIdConfirm h e then c.trySubMonitorServices h e
      else c

/-- What `send_logon_response_and_keep_alive` does once the connection is authorized. -/
def sendLogonResponseAuthorized (h : Host) (e : Env) (c : Conn) : Conn :=
  if c.isPortForward then c.send (.peerInfo c.portForwardMux.isSome)
  else if h.os = .linux && c.isRemote && !e.displayServerError.isEmpty then
    c.send (.loginError e.displayServerError false)
  else
    let (c, subService) := c.sendLogonResponse e
    (c.updateScopedLoginOptions h e).startSession h e subService

/-- The second factor is asked for: it is required, no recent session has completed it, and the
peer has not switched sides. -/
def asks2fa (h : Host) (e : Env) (c : Conn) : Bool :=
  c.auth.require2fa && !c.isRecentSession h e true && !c.auth.fromSwitch

/-- `Connection::send_logon_response_and_keep_alive`. -/
def sendLogonResponseAndKeepAlive (h : Host) (e : Env) (c : Conn) : Conn × Bool :=
  if c.auth.authorized then (c, true)
  else if c.asks2fa h e then
    ((c.withAuth fun a => { a with awaiting2fa := true }).sendLoginError e require2faError, true)
  else
    let c := c.withAuth fun a => { a with awaiting2fa := false }
    andThen (c.prepareTerminalLoginForAuthorization h e) fun c =>
    andThen (c.connectPortForwardIfNeeded e) fun c =>
    (c.setAuthorized.sendLogonResponseAuthorized h e, true)

/-! ### The login messages -/

/-- `Connection::check_privacy_mode_on`. -/
def checkPrivacyModeOn (e : Env) (c : Conn) : Conn × Bool :=
  if e.isInPrivacyMode then (c.sendLoginError e "Someone turns on privacy mode, exit", false)
  else (c, true)

/-- The part of the login request handler that sets the scope, when the option allows it. -/
def permitScope (e : Env) (option : EnableOption) (err : String) (set : Conn → Conn × Bool)
    (c : Conn) : Conn × Bool :=
  if e.permission option then set c else (c.sendLoginError e err, false)

/-- The scope of a terminal request. -/
def setTerminalScope (h : Host) (e : Env) (lr : LoginRequest) (t : Terminal) (c : Conn) :
    Conn × Bool :=
  if h.os = .windows && !lr.osLogin.username.isEmpty && !e.isInstalled then
    (c.sendLoginError e "Supported only in the installed version.", false)
  else
    ((c.withAuth fun a =>
        { a with terminal := true, terminalServiceId := t.serviceId.val }).withBook fun b =>
        { b with
          terminalPersistent :=
            match b.optionsInLogin with
            | some o => o.terminalPersistent.enumValue = some .yes
            | none => b.terminalPersistent }, true)

/-- The session scope a login request asks for, with the permission each needs. -/
def setSessionScope (h : Host) (e : Env) (lr : LoginRequest) (c : Conn) : Conn × Bool :=
  match lr.union with
  | some (.fileTransfer ft) =>
      c.permitScope e .fileTransfer "No permission of file transfer" fun c =>
        (c.withAuth fun a => { a with fileTransfer := some (ft.dir.val, ft.showHidden) }, true)
  | some .viewCamera =>
      c.permitScope e .camera "No permission of viewing camera" fun c =>
        (c.withAuth fun a => { a with viewCamera := true }, true)
  | some (.terminal t) =>
      c.permitScope e .terminal "No permission of terminal" fun c => c.setTerminalScope h e lr t
  | some (.portForward pf) =>
      c.permitScope e .tunnel "No permission of IP tunneling" fun c =>
        (c.withAuth fun a =>
          { a with portForwardAddress := (normalizePortForwardTarget pf).1 }, true)
  | none | some .unknown => c.checkPrivacyModeOn e

/-- `is_logon`. -/
def isLogon (h : Host) (e : Env) : Bool :=
  e.isPrelogin || h.desktop && e.isLocked || h.os = .windows && e.isLogonUi

/-- `allow_logon_screen_password`. -/
def allowLogonScreenPassword (h : Host) (e : Env) : Bool :=
  e.allowLogonScreenPassword && isLogon h e

/-- The login has to be approved by a click. -/
def needsClick (h : Host) (e : Env) : Bool :=
  e.approveMode = .click && !allowLogonScreenPassword h e
    || e.approveMode = .both && !e.hasValidPassword

/-- The terminal part of a login that waits for a click or for a password. -/
def prepareTerminalBeforeApproval (h : Host) (e : Env) (lr : LoginRequest) (c : Conn) :
    Conn × Bool :=
  if h.desktop && shouldUseTerminalOsLoginScope h c.auth.terminal lr.osLogin.username then
    c.prepareTerminalLoginForAuthorization h e
  else (c, true)

/-- The end of a login whose password was validated. -/
def logonAndStartCm (h : Host) (e : Env) (lr : LoginRequest) (c : Conn) : Conn × Bool :=
  andThen (c.sendLogonResponseAndKeepAlive h e) fun c =>
  (c.tryStartCm lr.myId lr.myName c.auth.authorized, true)

/-- The approval of a login request: a click, a recent session, or a password. -/
def approveLogin (h : Host) (e : Env) (lr : LoginRequest) (c : Conn) : Conn × Bool :=
  if needsClick h e then
    andThen (c.prepareTerminalBeforeApproval h e lr) fun c =>
    let c := c.tryStartCm lr.myId lr.myName false
    (if h.getVersionNumber lr.version ≥ h.getVersionNumber "1.2.0" then
      c.sendLoginError e "No Password Access" else c, true)
  else if c.isRecentSession h e false then c.logonAndStartCm h e lr
  else if lr.password.isEmpty then
    andThen (c.prepareTerminalBeforeApproval h e lr) fun c =>
    (c.tryStartCm lr.myId lr.myName false, true)
  else
    match e.checkFailure 0 with
    | some err => (c.sendLoginError e err, true)
    | none =>
        match c.validatePassword h e (allowLogonScreenPassword h e) with
        | (c, false) =>
            ((((c.emit (.updateFailure 0 false)).emit (.checkUpdateTemporaryPassword false)
              ).sendLoginError e "Wrong Password").tryStartCm lr.myId lr.myName false, true)
        | (c, true) => (c.emit (.updateFailure 0 true)).logonAndStartCm h e lr

/-- The checks between the scope of a login request and its approval. -/
def checkLoginTarget (h : Host) (e : Env) (lr : LoginRequest) (c : Conn) : Conn × Bool :=
  if !e.isDirectIpAccess lr.username && lr.username ≠ e.configId then
    (c.sendLoginError e "Offline", false)
  else if h.os = .windows && c.auth.terminal && (trim lr.osLogin.username).isEmpty
      && e.isPrelogin then
    (c.sendLoginError e "No active console user logged on, please connect and logon first.", false)
  else if h.desktop && !shouldUseTerminalOsLoginScope h c.auth.terminal lr.osLogin.username then
    (c.tryStartCmIpc, true)
  else (c, true)

/-- `on_message` for a `LoginRequest`. -/
def onLoginRequest (h : Host) (e : Env) (lr : LoginRequest) (c : Conn) : Conn × Bool :=
  andThen (c.checkLoginScope h e lr) fun c =>
  let c := c.withAuth fun a => { a with awaiting2fa := false }
  let c := c.handleLoginRequestWithoutValidation e lr
  if c.auth.authorized then (c, true)
  else
    andThen (c.resetSessionScopeForLogin.checkIdWhitelist h e) fun c =>
    andThen (c.setSessionScope h e lr) fun c =>
    andThen (c.checkLoginTarget h e lr) fun c =>
    c.approveLogin h e lr

/-- `on_message` for an `Auth2fa`. -/
def onAuth2fa (h : Host) (e : Env) (tfa : Auth2fa) (c : Conn) : Conn × Bool :=
  if !c.auth.awaiting2fa then (c, true)
  else
    match e.checkFailure 1 with
    | some err => (c.sendLoginError e err, true)
    | none =>
        if c.auth.require2fa then
          match e.totpCheck tfa.code with
          | some true =>
              let c := c.emit (.updateFailure 1 true)
              let c := (c.withAuth fun a => { a with require2fa := false }).emit .setSession2fa
              andThen (c.logonAndStartCm h e c.auth.lr) fun c =>
              (if !tfa.hwid.isEmpty && e.enableTrustedDevices then
                c.emit (.addTrustedDevice tfa.hwid) else c, true)
          | some false =>
              ((c.emit (.updateFailure 1 false)).sendLoginError e "Wrong 2FA Code", true)
          | none => (c, true)
        else (c, true)

/-- `SWITCH_SIDES_UUID_TTL`, in milliseconds. -/
def switchSidesUuidTtl : Nat := 10000

/-- The uuid stored for a peer, unless it has expired. -/
def storedSwitchSidesUuid (e : Env) (peerId : String) : Option Bytes :=
  (e.switchSidesUuid.find? (fun v => v.2.1 < switchSidesUuidTtl && v.1 == peerId)).map
    (fun v => v.2.2)

/-- The uuid of a `SwitchSidesResponse` is the one stored for the peer. -/
def matchesSwitchSides (e : Env) (s : SwitchSidesResponse) (lr : LoginRequest) : Bool :=
  s.uuid.length = 16 && storedSwitchSidesUuid e lr.myId.val = some s.uuid

/-- `on_message` for a `SwitchSidesResponse`, on the builds that have it. -/
def onSwitchSidesResponse (h : Host) (e : Env) (s : SwitchSidesResponse) (c : Conn) :
    Conn × Bool :=
  match s.lr with
  | none => (c, true)
  | some lr =>
      if h.flutter && h.desktop then
        let c := c.emit (.removeSwitchSidesUuid lr.myId.val)
        if matchesSwitchSides e s lr then
          if lr.union.isSome then (c.sendLoginError e "Connection not allowed", false)
          else
            let c := c.resetSessionScopeForLogin.handleLoginRequestWithoutValidation e lr
            andThen (c.checkIdWhitelist h e) fun c =>
            let c := c.withAuth fun a => { a with fromSwitch := true }
            andThen (c.logonAndStartCm h e lr) fun c => (c.tryStartCmIpc, true)
        else (c, true)
      else (c, true)

/-- `on_message` for a `TestDelay`. -/
def onTestDelay (fromClient : Bool) (c : Conn) : Conn × Bool :=
  if fromClient then (c.emit (.innerSend .testDelay), true)
  else ({ c with lastTestDelay := false }, true)

end Conn

end VynxDesk
