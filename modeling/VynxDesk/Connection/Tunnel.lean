import VynxDesk.Connection.LoginScope

/-!
# Legacy tunnels

A login that asks for a port forward without multiplexing gets a socket to its target, and the
connection leaves its loop to pass raw bytes.  The login response is the only message its approval
writes, and `Event.writes` tells which events of an authorized tunnel write more.
-/

namespace VynxDesk

/-- The request asks for a tunnel without multiplexing. -/
def LoginRequest.legacy (lr : LoginRequest) : Bool :=
  match lr.union with
  | some (.portForward pf) => !pf.multiplex
  | _ => false

/-- The target of the request, if it has one, can be reached. -/
def LoginRequest.reached (e : Env) (lr : LoginRequest) : Bool :=
  match lr.union with
  | some (.portForward pf) => e.connect (normalizePortForwardTarget pf).1
  | _ => true

/-- The permissions that `SwitchPermission` knows. -/
def knownPermissions : List String :=
  ["keyboard", "clipboard", "audio", "file", "restart", "recording", "block_input", "privacy_mode"]

/-- The message is a login response with the peer's information. -/
def OutMsg.isPeerInfo : OutMsg → Bool
  | .peerInfo _ => true
  | _ => false

/-- The event of the connection manager makes an authorized tunnel write to its peer. -/
def CmEvent.writes (h : Host) (c : Conn) : CmEvent → Bool
  | .close | .chatMessage _ | .rawMessage _ | .privacyModeState .. | .closeVoiceCall => true
  | .switchPermission name _ => name ∈ knownPermissions
  | .switchSidesBack => h.flutter && h.desktop
  | .voiceCallResponse _ => c.book.voiceCallRequest
  | .readJobInitResult connId id _ | .fileBlock connId id .. | .fileReadDone connId id _
  | .fileReadError connId id .. | .fileDigest connId id _ =>
      connId = c.id && id ∈ c.book.cmReadJobIds
  | .allFilesResult connId .. => connId = c.id
  | .authorize | .cmWindowClosed | .cmErr _ | .clipboardFile _ | .requestStart | .other => false

/-- The event makes an authorized tunnel write to its peer. -/
def Event.writes (h : Host) (e : Env) (c : Conn) : Event → Bool
  | .cm d => d.writes h c
  | .message msg =>
      !Conn.isCloseReason msg && e.allowScopeViolationClose
        && (authorizedMessageScopeViolation h .portForward msg).isSome
  | .unparsed | .streamClosed | .testDelayTimer _ | .service .lateAudioFrame => false
  | .video | .service _ => true
  | .fileTimer _ => !c.book.readJobs.isEmpty
  | .webConsole contained => contained
  | .printerData .. => h.os = .windows && h.flutter
  | .secondTimer idle => c.book.autoDisconnect && idle
  | .clipFile .. => h.unixFileCopyPaste && e.isSupportFileCopyPaste

namespace Conn

/-- The connection is open and authorized for a legacy tunnel, and has its socket. -/
structure Tunnel (c : Conn) : Prop where
  authorized : c.auth.authorized = true
  socket : c.portForwardSocket = true
  type : c.authedConnType = some .portForward
  opened : c.closed = false

variable {h : Host} {e : Env} {c c' : Conn}

theorem Tunnel.of_core (ht : Tunnel c) (hcore : c'.core = c.core) :
  Tunnel c'
  := by
  have hauth := auth_eq_of_core hcore
  constructor
  · rw [hauth, ht.authorized]
  · apply (congrArg Core.portForwardSocket hcore).trans ht.socket
  · rw [authedConnType, hauth]
    apply ht.type
  · apply (congrArg Core.closed hcore).trans ht.opened

/-! ### Events of an authorized tunnel -/

/-- The turn writes nothing to the peer, and the tunnel stays or is closed. -/
structure Silent (c : Conn) (r : Conn × Bool) : Prop where
  emits : Emits Unframed c r.1
  stays : r.2 = true → Tunnel r.1
  closes : r.2 = false → r.1.portForwardSocket = false

theorem Tunnel.silent (ht : Tunnel c) (hemit : Emits Unframed c c')
    (hcore : c'.core = c.core) :
  Silent c (c', true)
  := by
  constructor
  · apply hemit
  · intro _
    apply ht.of_core hcore
  · intro hf
    cases hf

theorem Tunnel.silent_onClose (ht : Tunnel c) (lock : Bool)
    (hemit : Emits Unframed c c') (hcore : c'.core = c.core) :
  Silent c (c'.onClose h lock, false)
  := by
  constructor
  · apply hemit.trans (emits_onClose lock rfl rfl rfl rfl)
  · intro ht
    cases ht
  · intro _
    rw [onClose]
    rw [if_neg]
    rw [(ht.of_core hcore).opened]
    exact Bool.false_ne_true

theorem Tunnel.silent_ite {p : Bool} (ht : Tunnel c) (hp : p = false) :
  Silent c (if p = true then c' else c, true)
  := by
  rw [hp]
  apply ht.silent (.refl c) rfl

/-- A tunnel handles a message that is no answer to a delay probe in silence. -/
theorem Tunnel.silent_onMessage {msg : Message} (ht : Tunnel c)
    (hwrites : (Event.message msg).writes h e c = false) (hreply : msg ≠ some (.testDelay false)) :
  Silent c (c.onMessage h e msg)
  := by
  unfold onMessage
  split
  · apply ht.silent_onClose _ (.refl c) rfl
  rename_i hclose
  rw [ht.authorized, Bool.true_and]
  split
  · apply ht.silent (.refl c) rfl
  rename_i hlogin
  rw [if_pos rfl]
  have hscope : c.authorizedScopeViolation h msg
      = authorizedMessageScopeViolation h .portForward msg := by
    rw [authorizedScopeViolation, ht.type]
  split
  · rename_i message hviolation
    rw [hscope] at hviolation
    have hallow : e.allowScopeViolationClose = false := by
      simpa [Event.writes, hviolation, hclose] using hwrites
    unfold handleAuthorizedScopeViolation
    rw [hallow]
    apply ht.silent (Emits.refl c).withBook rfl
  · rename_i hnone
    rw [hscope] at hnone
    unfold dispatch
    split
    · exact absurd rfl hlogin
    · cases hnone
    · rename_i b
      cases b with
      | false => exact absurd rfl hreply
      | true => apply ht.silent ((Emits.refl c).emit (by rfl)) rfl
    · cases hnone
    · rw [ht.socket]
      simp only [Bool.not_true, Bool.and_false, Bool.false_eq_true, if_false]
      apply ht.silent (.refl c) rfl

/-- A message about a read job of another connection, or about none of its own, is silent. -/
theorem Tunnel.silent_readJob (ht : Tunnel c) {connId id : Int} {f : Conn → Conn}
    (hwrites : (decide (connId = c.id) && decide (id ∈ c.book.cmReadJobIds)) = false)
    (hf : id ∉ c.book.cmReadJobIds → f c = c) :
  Silent c (if connId = c.id then f c else c, true)
  := by
  split_ifs with hconn
  · rw [hf]
    · apply ht.silent (.refl c) rfl
    · simpa [hconn] using hwrites
  · apply ht.silent (.refl c) rfl

/-- A tunnel handles the events of the connection manager in silence, but for an `Authorize` and
those that `CmEvent.writes` names. -/
theorem Tunnel.silent_onCmEvent {d : CmEvent} (ht : Tunnel c) (hwrites : d.writes h c = false)
    (hd : d ≠ .authorize) :
  Silent c (c.onCmEvent h e d)
  := by
  cases d with
  | authorize => exact absurd rfl hd
  | cmWindowClosed =>
      simp only [onCmEvent]
      split_ifs
      · apply ht.silent_onClose true (Emits.refl c).withBook rfl
      · apply ht.silent (.refl c) rfl
  | cmErr err =>
      simp only [onCmEvent]
      split_ifs
      · apply ht.silent_onClose _ (.refl c) rfl
      · apply ht.silent (.refl c) rfl
  | switchPermission name enabled =>
      simp only [CmEvent.writes, knownPermissions, List.mem_cons, List.not_mem_nil, or_false,
        decide_eq_false_iff_not, not_or] at hwrites
      obtain ⟨h₁, h₂, h₃, h₄, h₅, h₆, h₇, h₈⟩ := hwrites
      simp only [onCmEvent, switchPermission, h₁, h₂, h₃, h₄, h₅, h₆, h₇, h₈, if_false]
      apply ht.silent (.refl c) rfl
  | clipboardFile payload =>
      have hremote : c.isRemote = false := by
        simp [isRemote, isPortForward, ht.socket]
      simp only [onCmEvent, cmClipboardFile, hremote, Bool.and_false, Bool.false_eq_true, if_false]
      apply ht.silent (.refl c) rfl
  | requestStart =>
      simp only [onCmEvent]
      split_ifs
      · apply ht.silent ((Emits.refl c).emit (by rfl)) rfl
      · apply ht.silent (.refl c) rfl
  | switchSidesBack => apply ht.silent_ite hwrites
  | voiceCallResponse accepted => apply ht.silent_ite hwrites
  | readJobInitResult connId id result =>
      apply ht.silent_readJob (f := (·.handleReadJobInitResult id result)) hwrites
      intro hid
      simp [handleReadJobInitResult, hid]
  | fileBlock connId id fileNum data compressed =>
      apply ht.silent_readJob (f := (·.handleFileBlockFromCm id fileNum data compressed)) hwrites
      intro hid
      simp [handleFileBlockFromCm, hid]
  | fileReadDone connId id fileNum =>
      apply ht.silent_readJob (f := (·.handleFileReadDone id fileNum)) hwrites
      intro hid
      simp [handleFileReadDone, hid]
  | fileReadError connId id fileNum err =>
      apply ht.silent_readJob (f := (·.handleFileReadError id fileNum err)) hwrites
      intro hid
      simp [handleFileReadError, hid]
  | fileDigest connId id fileNum =>
      apply ht.silent_readJob (f := (·.handleFileDigestFromCm id fileNum)) hwrites
      intro hid
      simp [handleFileDigestFromCm, hid]
  | allFilesResult connId id path result =>
      have hconn : ¬ connId = c.id := by simpa [CmEvent.writes] using hwrites
      simp only [onCmEvent, if_neg hconn]
      apply ht.silent (.refl c) rfl
  | other => apply ht.silent (.refl c) rfl
  | close => cases hwrites
  | chatMessage text => cases hwrites
  | rawMessage bytes => cases hwrites
  | privacyModeState state implKey => cases hwrites
  | closeVoiceCall => cases hwrites

/-- A tunnel whose delay probe is outstanding handles every event in silence, but for an
`Authorize`, the answer to the probe, and those that `Event.writes` names. -/
theorem Tunnel.silent_onEvent {ev : Event} (ht : Tunnel c) (hprobe : c.lastTestDelay = true)
    (hwrites : ev.writes h e c = false) (hauthorize : ev ≠ .cm .authorize)
    (hreply : ev ≠ .message (some (.testDelay false))) :
  Silent c (c.onEvent h e ev)
  := by
  cases ev with
  | cm d =>
      apply ht.silent_onCmEvent hwrites
      rintro rfl
      exact hauthorize rfl
  | message msg =>
      have hmsg : Silent c (c.onMessage h e msg) := by
        apply ht.silent_onMessage hwrites
        rintro rfl
        exact hreply rfl
      simp only [onEvent, onStreamMessage]
      rcases andThen_cases (c.onMessage h e msg) _ with ⟨-, heq⟩ | ⟨hkeep, heq⟩
      · rw [heq]
        apply hmsg
      · have hdelay : (c.onMessage h e msg).1.lastTestDelay = true := hmsg.emits.2.trans hprobe
        rw [heq, hdelay]
        constructor
        · apply hmsg.emits
        · intro _
          apply hmsg.stays hkeep
        · intro hf
          simp at hf
  | unparsed => apply ht.silent (.refl c) rfl
  | streamClosed => apply ht.silent_onClose _ (.refl c) rfl
  | fileTimer r =>
      have hjobs : c.book.readJobs.isEmpty = true := by simpa [Event.writes] using hwrites
      simp only [onEvent, onFileTimer, hjobs, if_true]
      apply ht.silent (.refl c) rfl
  | webConsole contained =>
      cases contained with
      | false => apply ht.silent (.refl c) rfl
      | true => cases hwrites
  | video => cases hwrites
  | service m =>
      cases m with
      | lateAudioFrame => apply ht.silent (.refl c) rfl
      | stopService => cases hwrites
      | peerInfo => cases hwrites
      | cursorPosition display => cases hwrites
      | other payload => cases hwrites
  | printerData path fresh => apply ht.silent_ite hwrites
  | secondTimer idle =>
      have hidle : ¬ (c.book.autoDisconnect && idle) = true := by
        rw [Bool.not_eq_true]
        exact hwrites
      simp only [onEvent, if_neg hidle]
      apply ht.silent (.refl c) rfl
  | testDelayTimer timeout =>
      simp only [onEvent, onTestDelayTimer, hprobe, Bool.not_true, Bool.false_and,
        Bool.false_eq_true, if_false]
      split_ifs
      · apply ht.silent_onClose _ (.refl c) rfl
      · apply ht.silent (.refl c) rfl
  | clipFile payload stoppable beginning =>
      have hclip : (h.unixFileCopyPaste && e.isSupportFileCopyPaste) = false := hwrites
      apply ht.silent_ite
      rw [hclip, Bool.false_and, Bool.false_and]

/-- A tunnel that reads the answer to its delay probe leaves the loop. -/
theorem Tunnel.onEvent_reply (ht : Tunnel c) :
  c.onEvent h e (.message (some (.testDelay false))) = ({ c with lastTestDelay := false }, false)
  := by
  have hscope : c.authorizedScopeViolation h (some (.testDelay false)) = none := by
    rw [authorizedScopeViolation, ht.type]
    rfl
  have hmsg : c.onMessage h e (some (.testDelay false)) = ({ c with lastTestDelay := false }, true)
      := by
    rw [onMessage]
    rw [ht.authorized, hscope]
    rfl
  rw [onEvent, onStreamMessage, hmsg, andThen_true]
  simp [ht.socket, ht.authorized]

/-! ### Turns before the approval -/

/-- A turn that leaves the connection unauthorized: it sends no login response, opens no tunnel,
and sends a delay probe exactly when it makes one outstanding. -/
structure Unopened (c : Conn) (ev : Event) (r : Conn × Bool) : Prop where
  response : ∀ m ∈ r.1.out.filterMap Effect.framed, m.isPeerInfo = false
  closes : r.1.portForwardSocket = false
  opened : r.2 = true → r.1.closed = c.closed
  reply : ev = .message (some (.testDelay false)) →
    r.1.lastTestDelay = false ∧ (r.1.out.filterMap Effect.framed).count .testDelay = 0
  probe : ev ≠ .message (some (.testDelay false)) → r.1.lastTestDelay.toNat
    = c.lastTestDelay.toNat + (r.1.out.filterMap Effect.framed).count .testDelay

/-- What is written by effects of which none is part of the handshake. -/
theorem Emits.no_handshake (hemit : Emits NoHandshake c c') (hout : c.out = []) :
  (∀ m ∈ c'.out.filterMap Effect.framed, m.isPeerInfo = false)
    ∧ (c'.out.filterMap Effect.framed).count .testDelay = 0
  := by
  have hno (x : Effect) (hx : x ∈ c'.out) (m : OutMsg) (hm : x.framed = some m) :
      m.isPeerInfo = false ∧ m ≠ .testDelay := by
    have hhandshake := hemit.forall_mem hout x hx
    cases x with
    | send m' =>
        cases hm
        constructor
        · unfold OutMsg.isPeerInfo
          split
          · cases hhandshake
          · rfl
        · rintro rfl
          cases hhandshake
    | sendRaw bytes =>
        cases hm
        exact ⟨rfl, OutMsg.noConfusion⟩
    | _ => cases hm
  constructor
  · intro m hm
    obtain ⟨x, hx, hm⟩ := List.mem_filterMap.mp hm
    apply (hno x hx m hm).1
  · rw [List.count_eq_zero]
    intro hm
    obtain ⟨x, hx, hm⟩ := List.mem_filterMap.mp hm
    apply (hno x hx _ hm).2 rfl

/-- A turn that emits no part of the handshake sends no login response and no probe. -/
theorem Unopened.of_emits {ev : Event} {r : Conn × Bool} (hemit : Emits NoHandshake c r.1)
    (hout : c.out = []) (hsocket : r.1.portForwardSocket = false)
    (hopened : r.2 = true → r.1.closed = c.closed)
    (hev : ev ≠ .message (some (.testDelay false))) :
  Unopened c ev r
  := by
  obtain ⟨hresponse, hcount⟩ := hemit.no_handshake hout
  constructor
  · apply hresponse
  · apply hsocket
  · apply hopened
  · intro heq
    exact absurd heq hev
  · intro _
    rw [hcount, hemit.2]
    rfl

/-- A login event that leaves the connection unauthorized. -/
theorem unopened_loginEvent {ev : Event} (hun : c.auth.authorized = false)
    (hsocket : c.portForwardSocket = false) (hout : c.out = []) (hev : ev.isLogin = true)
    (hstill : (c.onEvent h e ev).1.auth.authorized = false) :
  Unopened c ev (c.onEvent h e ev)
  := by
  have hreply : ev ≠ .message (some (.testDelay false)) := by
    rintro rfl
    cases hev
  rcases loginOutcome_onEvent (h := h) (e := e) hun hev with
    ⟨hq, hplain, -⟩ | ⟨hend, -, -, -, hkept, hemit⟩ | ⟨lr, -, hwait⟩ | ⟨c₀, c₁, happ⟩
  · apply Unopened.of_emits (hplain.mono fun _ hx => hx.noHandshake) hout _ _ hreply
    · apply (congrArg Core.portForwardSocket hq.1).trans hsocket
    · intro _
      apply congrArg Core.closed hq.1
  · apply Unopened.of_emits hemit hout (hkept.trans hsocket) _ hreply
    intro hkeep
    exact absurd (hend.symm.trans hkeep) Bool.noConfusion
  · obtain ⟨b, t, -, hcore⟩ := hwait.core
    apply Unopened.of_emits hwait.emits hout _ _ hreply
    · apply (congrArg Core.portForwardSocket hcore).trans hsocket
    · intro _
      apply congrArg Core.closed hcore
  · exact absurd (hstill.symm.trans happ.typed.1) Bool.noConfusion

/-- A tick of the delay timer. -/
theorem unopened_onTestDelayTimer (timeout : Bool) (hout : c.out = [])
    (hsocket : (c.onTestDelayTimer h timeout).1.portForwardSocket = false)
    (hopened : (c.onTestDelayTimer h timeout).2 = true →
      (c.onTestDelayTimer h timeout).1.closed = c.closed) :
  Unopened c (.testDelayTimer timeout) (c.onTestDelayTimer h timeout)
  := by
  have hreply : Event.testDelayTimer timeout ≠ .message (some (.testDelay false)) :=
    Event.noConfusion
  rcases c.onTestDelayTimer_cases h timeout with heq | ⟨hdelay, -, heq⟩ | heq
  · apply Unopened.of_emits _ hout hsocket hopened hreply
    rw [heq]
    exact emits_onClose true rfl rfl rfl rfl
  · rw [heq] at hsocket hopened ⊢
    have hframed : (({ c with lastTestDelay := true }.send .testDelay).out).filterMap
        Effect.framed = [.testDelay] := by
      change (c.out ++ [Effect.send .testDelay]).filterMap Effect.framed = _
      rw [hout]
      rfl
    constructor
    · rw [hframed]
      simp [OutMsg.isPeerInfo]
    · apply hsocket
    · apply hopened
    · intro hf
      exact absurd hf hreply
    · intro _
      rw [hframed, hdelay]
      rfl
  · apply Unopened.of_emits _ hout hsocket hopened hreply
    rw [heq]
    apply Emits.refl

/-- A delay probe of the peer, or its answer to one. -/
theorem unopened_testDelay (fromClient : Bool) (hun : c.auth.authorized = false)
    (hsocket : c.portForwardSocket = false) (hout : c.out = []) :
  Unopened c (.message (some (.testDelay fromClient)))
    (c.onEvent h e (.message (some (.testDelay fromClient))))
  := by
  have heq : c.onEvent h e (.message (some (.testDelay fromClient)))
      = (if fromClient then c.emit (.innerSend .testDelay)
        else { c with lastTestDelay := false }, true) := by
    have hmsg : c.onMessage h e (some (.testDelay fromClient)) = c.onTestDelay fromClient := by
      simp [onMessage, hun, isCloseReason, dispatch]
    rw [onEvent, onStreamMessage, hmsg, onTestDelay]
    have hun' : (c.emit (.innerSend .testDelay)).auth.authorized = false := hun
    cases fromClient <;> simp [andThen, hun, hun']
  rw [heq]
  cases fromClient with
  | true =>
      apply Unopened.of_emits ((Emits.refl c).emit (by rfl)) hout hsocket
      · intro _
        rfl
      · intro hf
        cases hf
  | false =>
      have hframed : ({ c with lastTestDelay := false } : Conn).out.filterMap Effect.framed = [] := by
        change c.out.filterMap Effect.framed = []
        rw [hout]
        rfl
      constructor
      · rw [if_neg Bool.false_ne_true, hframed]
        simp
      · apply hsocket
      · intro _
        rfl
      · intro _
        rw [if_neg Bool.false_ne_true, hframed]
        exact ⟨rfl, rfl⟩
      · intro hf
        exact absurd rfl hf

/-- Every turn that leaves the connection unauthorized. -/
theorem unopened_onEvent {ev : Event} (hun : c.auth.authorized = false)
    (hsocket : c.portForwardSocket = false) (hout : c.out = [])
    (hstill : (c.onEvent h e ev).1.auth.authorized = false) :
  Unopened c ev (c.onEvent h e ev)
  := by
  cases hev : ev.isLogin with
  | true => apply unopened_loginEvent hun hsocket hout hev hstill
  | false =>
      obtain ⟨-, hcore, hkept⟩ := c.keeps_onEvent h e hev
      have hkept := hkept hsocket
      have hopened (hkeep : (c.onEvent h e ev).2 = true) :
          (c.onEvent h e ev).1.closed = c.closed := congrArg Core.closed (hcore hkeep)
      cases hprobe : ev.isProbe with
      | false =>
          have hplain := c.plain_onEvent h e hun hev hprobe
          apply Unopened.of_emits (hplain.mono fun _ hx => hx.noHandshake) hout hkept hopened
          rintro rfl
          cases hprobe
      | true =>
          unfold Event.isProbe at hprobe
          split at hprobe
          · apply unopened_onTestDelayTimer _ hout hkept hopened
          · apply unopened_testDelay _ hun hsocket hout
          · cases hprobe

/-! ### The approval of a tunnel -/

theorem kept_of_logonAndStartCm {lr : LoginRequest} (hun : c.auth.authorized = false)
    (hauth : (c.logonAndStartCm h e lr).1.auth.authorized = true) :
  (c.logonAndStartCm h e lr).2 = true
  := by
  rcases c.logonAndStartCm_cases h e lr hun with
    ⟨-, -, hcore, -⟩ | ⟨-, -, href⟩ | ⟨-, c₁, -, heq⟩
  · have hkept : (c.logonAndStartCm h e lr).1.auth.authorized = c.auth.authorized :=
      congrArg (fun k => k.auth.authorized) hcore
    rw [hkept, hun] at hauth
    cases hauth
  · obtain ⟨t, a, hcore⟩ := href.core
    have hkept : (c.logonAndStartCm h e lr).1.auth.authorized = c.auth.authorized :=
      congrArg (fun k => k.auth.authorized) hcore
    rw [hkept, hun] at hauth
    cases hauth
  · rw [heq]

/-- A message that authorizes a connection keeps it. -/
theorem kept_of_dispatch {msg : Message} (hmsg : isLoginMessage msg = true)
    (hun : c.auth.authorized = false) (hauth : (c.dispatch h e msg).1.auth.authorized = true) :
  (c.dispatch h e msg).2 = true
  := by
  unfold isLoginMessage at hmsg
  split at hmsg
  · rename_i lr
    change (c.onLoginRequest h e lr).1.auth.authorized = true at hauth
    change (c.onLoginRequest h e lr).2 = true
    rcases c.onLoginRequest_cases h e lr hun with ⟨-, hunap⟩ | ⟨c₁, hp, heq⟩
    · rw [hunap.authorized, hun] at hauth
      cases hauth
    · obtain ⟨hlr, -, -, -, hauth₁⟩ := hp.gate
      rw [heq] at hauth ⊢
      rcases c₁.approveLogin_cases h e hlr with ⟨⟨-, t, hcore⟩, -, -⟩ | ⟨-, -, c₂, hq, -, heq₂⟩
      · have hkept : (c₁.approveLogin h e lr).1.auth.authorized = c₁.auth.authorized :=
          congrArg (fun k => k.auth.authorized) hcore
        rw [hkept, hauth₁, hun] at hauth
        cases hauth
      · rw [heq₂] at hauth ⊢
        apply kept_of_logonAndStartCm _ hauth
        rw [auth_eq_of_core hq.1, hauth₁, hun]
  · rename_i tfa
    change (c.onAuth2fa h e tfa).1.auth.authorized = true at hauth
    change (c.onAuth2fa h e tfa).2 = true
    rcases c.onAuth2fa_cases h e tfa with ⟨hq, -⟩ | ⟨-, -, c₁, hcore, -, -, hkeep, hq, -⟩
    · rw [auth_eq_of_core hq.1, hun] at hauth
      cases hauth
    · rw [hkeep]
      rw [auth_eq_of_core hq.1] at hauth
      apply kept_of_logonAndStartCm _ hauth
      apply (congrArg (fun k => k.auth.authorized) hcore).trans hun
  · rename_i sr
    change (c.onSwitchSidesResponse h e sr).1.auth.authorized = true at hauth
    change (c.onSwitchSidesResponse h e sr).2 = true
    rcases c.onSwitchSidesResponse_cases h e sr with
      ⟨hq, -⟩ | ⟨-, hunap⟩ | ⟨lr, c₁, -, hcore, -, -, hkeep, hq, -⟩
    · rw [auth_eq_of_core hq.1, hun] at hauth
      cases hauth
    · rw [hunap.authorized, hun] at hauth
      cases hauth
    · rw [hkeep]
      rw [auth_eq_of_core hq.1] at hauth
      apply kept_of_logonAndStartCm _ hauth
      apply (congrArg (fun k => k.auth.authorized) hcore).trans hun
  · cases hmsg

/-- The checks of a login for a legacy tunnel reach its target and open its socket. -/
theorem Admitted.legacy {c₁ : Conn} (hadm : Admitted h e c c₁) (hlegacy : c.auth.lr.legacy = true)
    (hpf : c.isPortForward = false) :
  c₁.portForwardSocket = true ∧ c₁.portForwardMux = none ∧ c.auth.lr.reached e = true
  := by
  obtain ⟨-, hkeep, rfl⟩ := hadm
  revert hkeep
  generalize hc₀ : (c.withAuth fun a => { a with awaiting2fa := false }) = c₀
  obtain ⟨-, t, hprep⟩ := c₀.onlyToken_prepareTerminalLoginForAuthorization h e
  generalize (c₀.prepareTerminalLoginForAuthorization h e).1 = c₂ at hprep
  have hlr : c₂.auth.lr = c.auth.lr := by
    rw [← hc₀] at hprep
    apply congrArg (fun k => k.auth.lr) hprep
  have hpf₂ : c₂.isPortForward = false := by
    rw [← hc₀] at hprep
    apply (congrArg Core.isPortForward hprep).trans hpf
  rw [LoginRequest.legacy] at hlegacy
  split at hlegacy
  · rename_i pf hunion
    rw [Bool.not_eq_true'] at hlegacy
    intro hkeep
    simp only [connectPortForwardIfNeeded, hpf₂, hlr, hunion, hlegacy, Bool.false_eq_true,
      if_false] at hkeep ⊢
    split_ifs at hkeep ⊢ with hconnect
    · rw [isPortForward, Bool.or_eq_false_iff] at hpf₂
      have hmux : c₂.portForwardMux = none := by simpa using hpf₂.2
      refine ⟨rfl, hmux, ?_⟩
      rw [LoginRequest.reached]
      rw [hunion]
      apply hconnect
  · cases hlegacy

/-- Effects that write nothing leave what was written. -/
theorem Emits.framed (hemit : Emits Unframed c c') :
  c'.out.filterMap Effect.framed = c.out.filterMap Effect.framed
  := by
  obtain ⟨⟨l, hl, hunframed⟩, -⟩ := hemit
  have hnil : l.filterMap Effect.framed = [] := by
    rw [List.filterMap_eq_nil_iff]
    apply hunframed
  rw [hl, List.filterMap_append, hnil, List.append_nil]

/-- The approval of a login for a legacy tunnel opens the tunnel, writes the login response and
nothing else, and leaves the delay probe. -/
theorem Approved.tunnel {ev : Event} {c₀ c₁ : Conn} (happ : Approved h e c ev c₀ c₁ c')
    (hlegacy : (enteredAuth h e ev c.auth).lr.legacy = true)
    (hfile : (enteredAuth h e ev c.auth).fileTransfer = none)
    (hpf : c.isPortForward = false) (hopened : c.closed = false) (hout : c.out = []) :
  Tunnel c' ∧ c'.out.filterMap Effect.framed = [.peerInfo false]
    ∧ c'.lastTestDelay = c.lastTestDelay ∧ (enteredAuth h e ev c.auth).lr.reached e = true
  := by
  have hauth₀ : c₀.auth = enteredAuth h e ev c.auth := congrArg Core.auth happ.core
  have hpf₀ : c₀.isPortForward = false := (congrArg Core.isPortForward happ.core).trans hpf
  rw [← hauth₀] at hlegacy hfile ⊢
  obtain ⟨hsocket₁, hmux₁, hreached⟩ := happ.admitted.legacy hlegacy hpf₀
  obtain ⟨t, a, s, m, -, -, hcore₁⟩ := happ.admitted.core
  have hfile₁ : c₁.auth.fileTransfer = none :=
    (congrArg (fun k => k.auth.fileTransfer) hcore₁).trans hfile
  have hpf₁ : c₁.setAuthorized.isPortForward = true := by
    change (c₁.portForwardSocket || _) = true
    rw [hsocket₁, Bool.true_or]
  obtain ⟨sid, -, hsid⟩ := c₁.core_setAuthorized_sendLogonResponseAuthorized h e
  have hcore := happ.quiet.1.trans hsid
  have hresponse : c₁.setAuthorized.sendLogonResponseAuthorized h e
      = c₁.setAuthorized.send (.peerInfo false) := by
    have hmux : c₁.setAuthorized.portForwardMux = none := hmux₁
    rw [sendLogonResponseAuthorized, if_pos hpf₁, hmux]
    rfl
  refine ⟨⟨?_, ?_, ?_, ?_⟩, ?_, ?_, hreached⟩
  · apply happ.typed.1
  · apply (congrArg Core.portForwardSocket hcore).trans hsocket₁
  · have hpf₁ : c₁.isPortForward = true := hpf₁
    apply (congrArg (fun k => k.auth.authedConnId) hcore).trans
    simp [Core.withAuth, authConnTypeOnLogin, hfile₁, hpf₁]
  · apply (congrArg Core.closed hcore).trans
    apply (congrArg Core.closed hcore₁).trans
    apply (congrArg Core.closed happ.core).trans hopened
  · have hsent : c₁.out.filterMap Effect.framed = [] := by
      rw [happ.admitted.unframed.framed, happ.unframed.framed, hout]
      rfl
    rw [happ.unframed'.framed, hresponse]
    change ((c₁.out ++ [Effect.clearIdWhitelistFailures])
      ++ [Effect.send (.peerInfo false)]).filterMap Effect.framed = _
    rw [List.filterMap_append, List.filterMap_append, hsent]
    rfl
  · have hdelay : c₁.lastTestDelay = c.lastTestDelay :=
      happ.admitted.unframed.2.trans happ.unframed.2
    rw [happ.unframed'.2, hresponse]
    apply hdelay

/-- A message that opens a tunnel leaves the loop, unless a delay probe is outstanding. -/
theorem Tunnel.running_of_message {msg : Message} (hun : c.auth.authorized = false)
    (hmsg : isLoginMessage msg = true) (ht : Tunnel (c.onEvent h e (.message msg)).1) :
  (c.onEvent h e (.message msg)).2 = (c.onEvent h e (.message msg)).1.lastTestDelay
  := by
  have hfst := (c.onEvent_message h e msg).1
  rw [hfst] at ht ⊢
  have hkeep : (c.onMessage h e msg).2 = true := by
    have hauth := ht.authorized
    rw [c.onMessage_loginMessage h e hun hmsg] at hauth ⊢
    apply kept_of_dispatch hmsg hun hauth
  simp [onEvent, onStreamMessage, andThen, hkeep, ht.socket, ht.authorized]

/-- An `Authorize` that finds or opens a tunnel leaves the loop. -/
theorem Tunnel.running_of_authorize (ht : Tunnel (c.onEvent h e (.cm .authorize)).1) :
  (c.onEvent h e (.cm .authorize)).2 = false
  := by
  have hsocket : (c.onAuthorize h e).1.portForwardSocket = true := ht.socket
  change (c.onAuthorize h e).2 = false
  rw [onAuthorize] at hsocket ⊢
  rcases andThen_cases _ _ with ⟨hf, heq⟩ | ⟨-, heq⟩
  · rw [heq]
    apply hf
  · rw [heq] at hsocket ⊢
    simpa using hsocket

end Conn

end VynxDesk
