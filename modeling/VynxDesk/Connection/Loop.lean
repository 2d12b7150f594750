import VynxDesk.Connection.Handlers
import VynxDesk.Lib.Run

/-!
# The connection loop

`Connection::start`: the connection as it is opened, and the loop that handles one event at a
time, each to completion, until it breaks.  `Loop` is the state of the loop; `cmStarted`
records that `try_start_cm` has told the connection manager about the peer, without which the
connection manager has nothing to authorize.
-/

namespace VynxDesk

/-! ### Events -/

/-- What the connection manager sends to the connection. -/
inductive CmEvent where
  | authorize
  | close
  | cmWindowClosed
  | cmErr (err : String)
  | chatMessage (text : String)
  | switchPermission (name : String) (enabled : Bool)
  | rawMessage (bytes : Bytes)
  | clipboardFile (payload : Option Bytes)
  | privacyModeState (state : PrivacyModeState) (implKey : String)
  | requestStart
  | switchSidesBack
  | voiceCallResponse (accepted : Bool)
  | closeVoiceCall
  | readJobInitResult (connId id : Int) (result : Except String (Option String))
  | fileBlock (connId id fileNum : Int) (data : Bytes) (compressed : Bool)
  | fileReadDone (connId id fileNum : Int)
  | fileReadError (connId id fileNum : Int) (err : String)
  | fileDigest (connId id fileNum : Int)
  | allFilesResult (connId id : Int) (path : String) (result : Except String Bool)
  | other

/-- The messages of the read jobs. -/
inductive JobMsg where
  | block (id fileNum : Int) (data : Bytes) (compressed : Bool)
  | done (id fileNum : Int)
  | digest (id fileNum : Int)
  | error (id : Int) (err : String) (fileNum : Int)

/-- The message as it is sent. -/
def JobMsg.out : JobMsg → OutMsg
  | .block id fileNum data compressed => .fileBlock id fileNum data compressed
  | .done id fileNum => .fileDone id fileNum
  | .digest id fileNum => .fileDigest id fileNum
  | .error id err fileNum => .fileError id err fileNum

/-- The messages of the services and of `ConnInner::send`, as the loop tells them apart. -/
inductive ServiceMsg where
  | stopService
  | peerInfo
  | cursorPosition (display : Option Nat)
  | lateAudioFrame
  | other (payload : Bytes)

/-- The events of the loop. -/
inductive Event where
  | cm (d : CmEvent)
  | message (msg : Message)
  /-- Bytes of the peer that are no message. -/
  | unparsed
  /-- The stream ends or fails. -/
  | streamClosed
  /-- A tick of the file timer: what `handle_read_jobs` sends and the jobs it leaves, or its
  failure. -/
  | fileTimer (r : Option (List JobMsg × List Int))
  /-- The web console closes connections, this one among them or not. -/
  | webConsole (contained : Bool)
  | video
  | service (m : ServiceMsg)
  /-- Data of the printer driver; `fresh` tells which of the earlier jobs are kept. -/
  | printerData (path : String) (fresh : String → Bool)
  /-- A tick of the second timer; `idle` when the peer has been inactive too long. -/
  | secondTimer (idle : Bool)
  /-- A tick of the delay timer; `timeout` when nothing was received for 30 seconds. -/
  | testDelayTimer (timeout : Bool)
  /-- A message of the file clipboard; `stoppable` and `beginning` as it says of itself. -/
  | clipFile (payload : Bytes) (stoppable beginning : Bool)

namespace Conn

/-! ### Opening -/

/-- The connection `Connection::start` builds. -/
def new (e : Env) (id : Int) (salt challenge : String) : Conn where
  id := id
  salt := salt
  challenge := challenge
  auth := { require2fa := e.get2fa }
  perm :=
    { keyboard := e.permission .keyboard
      clipboard := e.permission .clipboard
      audio := e.permission .audio
      file := e.permission .fileTransfer
      restart := e.permission .remoteRestart
      recording := e.permission .recordSession
      blockInput := e.permission .blockInput
      privacyMode := e.permission .privacyMode }

/-- Tell the peer about a permission it does not have. -/
def sendDenied (p : Permission) (enabled : Bool) (c : Conn) : Conn :=
  if enabled then c else c.sendPermission p false

/-- `Connection::on_open`, and the permissions sent after it.  `none` when it refuses. -/
def onOpen (h : Host) (e : Env) (c : Conn) : Option Conn :=
  if e.refuseOpen.isSome then none
  else
    let c := c.send .hash
    let c :=
      if h.os = .android then c.sendPermission .keyboard c.perm.keyboard
      else c.sendDenied .keyboard c.perm.keyboard
    let c := c.sendDenied .clipboard c.perm.clipboard
    let c := c.sendDenied .audio c.perm.audio
    let c := c.sendDenied .file c.perm.file
    let c := c.sendDenied .restart c.perm.restart
    let c := c.sendDenied .recording c.perm.recording
    let c := c.sendDenied .blockInput c.perm.blockInput
    some (c.sendDenied .privacyMode c.perm.privacyMode)

/-! ### Permissions -/

/-- `SwitchPermission` of the keyboard. -/
def switchKeyboard (h : Host) (e : Env) (enabled : Bool) (c : Conn) : Conn :=
  let c := (c.withPerm fun p => { p with keyboard := enabled }).sendPermission .keyboard enabled
  let c := c.subscribe h e .clipboard (c.canSubClipboardService e)
  let c :=
    if h.unixFileCopyPaste then c.subscribe h e .fileClipboard (c.canSubFileClipboardService e)
    else c
  c.subscribe h e .cursor (enabled || c.opts.showRemoteCursor)

/-- `SwitchPermission` of the clipboard. -/
def switchClipboard (h : Host) (e : Env) (enabled : Bool) (c : Conn) : Conn :=
  let c := (c.withPerm fun p => { p with clipboard := enabled }).sendPermission .clipboard enabled
  c.subscribe h e .clipboard (c.canSubClipboardService e)

/-- `SwitchPermission` of audio. -/
def switchAudio (h : Host) (e : Env) (enabled : Bool) (c : Conn) : Conn :=
  let c := (c.withPerm fun p => { p with audio := enabled }).sendPermission .audio enabled
  if c.auth.authorized then c.resubscribeAudio h e else c

/-- `SwitchPermission` of files. -/
def switchFile (h : Host) (e : Env) (enabled : Bool) (c : Conn) : Conn :=
  let c := (c.withPerm fun p => { p with file := enabled }).sendPermission .file enabled
  if h.unixFileCopyPaste then
    (if enabled then c else c.emit .emptyClipboardFiles).subscribe h e .fileClipboard
      (c.canSubFileClipboardService e)
  else c

/-- `SwitchPermission` of the privacy mode.  Taking it away leaves the privacy mode first; when
that fails the permission stays. -/
def switchPrivacyMode (e : Env) (enabled : Bool) (c : Conn) : Conn :=
  let set := fun c : Conn =>
    (c.withPerm fun p => { p with privacyMode := enabled }).sendPermission .privacyMode enabled
  if !enabled && e.isInPrivacyMode && e.privacyModeConnId = some c.id then
    let c := c.emit (.turnOffPrivacy "")
    if e.turnOffPrivacy = some true then set (c.send (.privacyMode .prvOffByPeer e.curImplKey))
    else
      (c.send (turnOffPrivacyResultToMsg e e.curImplKey)).sendToCm
        (.switchPermission "privacy_mode" c.perm.privacyMode)
  else set c

/-- The handler of `SwitchPermission`. -/
def switchPermission (h : Host) (e : Env) (name : String) (enabled : Bool) (c : Conn) : Conn :=
  if name = "keyboard" then c.switchKeyboard h e enabled
  else if name = "clipboard" then c.switchClipboard h e enabled
  else if name = "audio" then c.switchAudio h e enabled
  else if name = "file" then c.switchFile h e enabled
  else if name = "restart" then
    (c.withPerm fun p => { p with restart := enabled }).sendPermission .restart enabled
  else if name = "recording" then
    (c.withPerm fun p => { p with recording := enabled }).sendPermission .recording enabled
  else if name = "block_input" then
    (c.withPerm fun p => { p with blockInput := enabled }).sendPermission .blockInput enabled
  else if name = "privacy_mode" then c.switchPrivacyMode e enabled
  else c

/-! ### The other events of the connection manager -/

/-- `ClipboardFile` from the connection manager, on Windows.  `none` is a list of files, which
is only audited. -/
def cmClipboardFile (h : Host) (payload : Option Bytes) (c : Conn) : Conn :=
  if h.os = .windows && c.isRemote then
    match payload with
    | some payload => c.send (.cliprdr payload)
    | none => c
  else c

/-- `Connection::handle_read_job_init_result`.  `.ok none` is a directory that does not
parse. -/
def handleReadJobInitResult (id : Int) (result : Except String (Option String)) (c : Conn) :
    Conn :=
  if id ∉ c.book.cmReadJobIds then c
  else
    match result with
    | .error err =>
        (c.withBook fun b => { b with cmReadJobIds := b.cmReadJobIds.erase id }).send
          (.fileError id err 0)
    | .ok none =>
        (c.withBook fun b => { b with cmReadJobIds := b.cmReadJobIds.erase id }).send
          (.fileError id "internal error" 0)
    | .ok (some path) =>
        (c.send (.fileDir id path)).withBook fun b => { b with fileTransferred := true }

/-- `Connection::handle_file_block_from_cm`. -/
def handleFileBlockFromCm (id fileNum : Int) (data : Bytes) (compressed : Bool) (c : Conn) :
    Conn :=
  if id ∈ c.book.cmReadJobIds then c.send (.fileBlock id fileNum data compressed) else c

/-- `Connection::handle_file_read_done`. -/
def handleFileReadDone (id fileNum : Int) (c : Conn) : Conn :=
  if id ∈ c.book.cmReadJobIds then
    (c.withBook fun b => { b with cmReadJobIds := b.cmReadJobIds.erase id }).send
      (.fileDone id fileNum)
  else c

/-- `Connection::handle_file_read_error`. -/
def handleFileReadError (id fileNum : Int) (err : String) (c : Conn) : Conn :=
  if id ∈ c.book.cmReadJobIds then
    (c.withBook fun b => { b with cmReadJobIds := b.cmReadJobIds.erase id }).send
      (.fileError id err fileNum)
  else c

/-- `Connection::handle_file_digest_from_cm`. -/
def handleFileDigestFromCm (id fileNum : Int) (c : Conn) : Conn :=
  if id ∈ c.book.cmReadJobIds then c.send (.fileDigest id fileNum) else c

/-- `Connection::handle_all_files_result`.  `.ok false` is a directory that does not parse. -/
def handleAllFilesResult (id : Int) (path : String) (result : Except String Bool) (c : Conn) :
    Conn :=
  match result with
  | .error err => c.send (.fileError id err (-1))
  | .ok true => c.send (.fileDir id path)
  | .ok false => c.send (.fileError id ("deserialize failed for " ++ path) (-1))

/-- The handler of `Authorize`. -/
def onAuthorize (h : Host) (e : Env) (c : Conn) : Conn × Bool :=
  andThen
    ((c.withAuth fun a => { a with require2fa := false }).sendLogonResponseAndKeepAlive h e)
    fun c => (c, !c.portForwardSocket)

/-- The events of the connection manager. -/
def onCmEvent (h : Host) (e : Env) (d : CmEvent) (c : Conn) : Conn × Bool :=
  let seen := c.withBook fun b => { b with chatUnanswered := false, fileTransferred := false }
  match d with
  | .authorize => c.onAuthorize h e
  | .close => ((seen.sendCloseReasonNoRetry "").onClose h true, false)
  | .cmWindowClosed => if h.os = .linux then (seen.onClose h true, false) else (c, true)
  | .cmErr err => if err ≠ "expected" then (c.onClose h false, false) else (c, true)
  | .chatMessage text =>
      ((c.send (.chatMessage text)).withBook fun b => { b with chatUnanswered := false }, true)
  | .switchPermission name enabled => (c.switchPermission h e name enabled, true)
  | .rawMessage bytes => (c.emit (.sendRaw bytes), true)
  | .clipboardFile payload => (c.cmClipboardFile h payload, true)
  | .privacyModeState state implKey => (c.send (.privacyMode state implKey), true)
  | .requestStart =>
      (if h.os = .windows then c.emit (.startPortableService .direct) else c, true)
  | .switchSidesBack => (if h.flutter && h.desktop then c.send .switchBack else c, true)
  | .voiceCallResponse accepted => (c.handleVoiceCall h e accepted, true)
  | .closeVoiceCall => ((c.closeVoiceCall h e).send (.voiceCallRequest false), true)
  | .readJobInitResult connId id result =>
      (if connId = c.id then c.handleReadJobInitResult id result else c, true)
  | .fileBlock connId id fileNum data compressed =>
      (if connId = c.id then c.handleFileBlockFromCm id fileNum data compressed else c, true)
  | .fileReadDone connId id fileNum =>
      (if connId = c.id then c.handleFileReadDone id fileNum else c, true)
  | .fileReadError connId id fileNum err =>
      (if connId = c.id then c.handleFileReadError id fileNum err else c, true)
  | .fileDigest connId id fileNum =>
      (if connId = c.id then c.handleFileDigestFromCm id fileNum else c, true)
  | .allFilesResult connId id path result =>
      (if connId = c.id then c.handleAllFilesResult id path result else c, true)
  | .other => (c, true)

/-! ### Timers, services and the stream -/

/-- Write a message of a service to the peer; a failed write ends the loop. -/
def forward (h : Host) (e : Env) (m : OutMsg) (c : Conn) : Conn × Bool :=
  if e.streamSend then (c.send m, true) else (c.onClose h false, false)

/-- `Connection::handle_cursor_switch_display`. -/
def handleCursorSwitchDisplay (display : Option Nat) (c : Conn) : Conn :=
  match display with
  | some d =>
      if !c.book.multiUiSession && c.book.displayIdx ≠ d then c.send (.followCurrentDisplay d) else c
  | none => c

/-- A message of the services. -/
def onServiceMsg (h : Host) (e : Env) (m : ServiceMsg) (c : Conn) : Conn × Bool :=
  match m with
  | .stopService => ((c.sendCloseReasonNoRetry "").onClose h false, false)
  | .lateAudioFrame => (c, true)
  | .peerInfo => (c.refreshVideoDisplay none).forward h e (.service [])
  | .cursorPosition display =>
      (if h.desktop && c.opts.followRemoteCursor then c.handleCursorSwitchDisplay display else c
        ).forward h e (.service [])
  | .other payload => c.forward h e (.service payload)

/-- The delay timer.  A peer that has left for the raw mode will not answer a probe. -/
def onTestDelayTimer (h : Host) (timeout : Bool) (c : Conn) : Conn × Bool :=
  if timeout then (c.onClose h true, false)
  else if !c.lastTestDelay && !(c.portForwardSocket && c.auth.authorized) then
    ({ c with lastTestDelay := true }.send .testDelay, true)
  else (c, true)

/-- A tick of the file timer. -/
def onFileTimer (h : Host) (r : Option (List JobMsg × List Int)) (c : Conn) : Conn × Bool :=
  if c.book.readJobs.isEmpty then (c, true)
  else
    let c := c.sendToCm (.fileTransferLog "transfer")
    match r with
    | some (sent, jobs) =>
        (((sent.map JobMsg.out).foldl send c).withBook fun b => { b with readJobs := jobs }, true)
    | none => (c.onClose h false, false)

/-- Data of the printer driver, on the builds that have it. -/
def onPrinterData (h : Host) (e : Env) (path : String) (fresh : String → Bool) (c : Conn) : Conn :=
  if h.os = .windows && h.flutter then
    if e.permission .remotePrinter then
      (c.send .printerRequest).withBook fun b =>
        { b with printerData := b.printerData.filter fresh ++ [path] }
    else c.send (.messageBox "remote-printing-disallowed-tile-tip")
  else c

/-- `Connection::handle_file_clip`, on the builds that have it. -/
def onClipFile (h : Host) (e : Env) (payload : Bytes) (stoppable beginning : Bool) (c : Conn) :
    Conn :=
  if h.unixFileCopyPaste && e.isSupportFileCopyPaste
      && !(stoppable && !c.fileTransferEnabled) && !(beginning && e.oneWayFileTransfer) then
    c.send (.cliprdr payload)
  else c

/-- A message of the peer.  A legacy tunnel leaves the loop once no delay probe is
outstanding. -/
def onStreamMessage (h : Host) (e : Env) (msg : Message) (c : Conn) : Conn × Bool :=
  andThen (c.onMessage h e msg) fun c =>
  (c, !(c.portForwardSocket && c.auth.authorized && !c.lastTestDelay))

/-- One turn of the loop: the connection, and whether the loop goes on. -/
def onEvent (h : Host) (e : Env) (ev : Event) (c : Conn) : Conn × Bool :=
  match ev with
  | .cm d => c.onCmEvent h e d
  | .message msg => c.onStreamMessage h e msg
  | .unparsed => (c, true)
  | .streamClosed => (c.onClose h true, false)
  | .fileTimer r => c.onFileTimer h r
  | .webConsole contained =>
      if contained then
        ((c.sendCloseReasonNoRetry "Closed manually by web console").onClose h true, false)
      else (c, true)
  | .video => c.forward h e (.service [])
  | .service m => c.onServiceMsg h e m
  | .printerData path fresh => (c.onPrinterData h e path fresh, true)
  | .secondTimer idle =>
      if c.book.autoDisconnect && idle then
        ((c.sendCloseReasonNoRetry "Connection failed due to inactivity").onClose h true, false)
      else (c, true)
  | .testDelayTimer timeout => c.onTestDelayTimer h timeout
  | .clipFile payload stoppable beginning => (c.onClipFile h e payload stoppable beginning, true)

end Conn

/-! ### Runs of the loop -/

/-- The state of the loop. -/
structure Loop where
  conn : Conn
  cmStarted : Bool := false
  running : Bool := true

/-- The effect tells the connection manager about a login. -/
def Effect.startsCm : Effect → Bool
  | .toCm (.login _) => true
  | _ => false

/-- Forget the effects of the turns before. -/
def Conn.clear (c : Conn) : Conn := { c with out := [] }

namespace Loop

/-- One turn of the loop.  The effects of the turn are those of `conn.out` afterwards. -/
def next (h : Host) (e : Env) (ev : Event) (s : Loop) : Loop :=
  let r := s.conn.clear.onEvent h e ev
  { conn := r.1, cmStarted := s.cmStarted || r.1.out.any Effect.startsCm, running := r.2 }

/-- The turns of the loop.  An `Authorize` comes only after `try_start_cm`. -/
def Step (h : Host) (s : Loop) (i : Env × Event) (s' : Loop) : Prop :=
  s.running = true ∧ (∀ d, i.2 = .cm d → d = .authorize → s.cmStarted = true)
    ∧ s' = s.next h i.1 i.2

/-- The states in which the loop starts. -/
def IsStart (h : Host) (s : Loop) : Prop :=
  ∃ (e : Env) (id : Int) (salt challenge : String) (c : Conn),
    (Conn.new e id salt challenge).onOpen h e = some c ∧ s = { conn := c }

/-- A loop that has just started, with fixed hash parameters. -/
def sample (h : Host) (e : Env) : Loop where
  conn := ((Conn.new e 1 "salt" "challenge").onOpen h e).getD (Conn.new e 1 "salt" "challenge")

theorem isStart_sample {h : Host} {e : Env} (hopen : e.refuseOpen = none) :
  (sample h e).IsStart h
  := by
  refine ⟨e, 1, "salt", "challenge", (sample h e).conn, ?_, rfl⟩
  simp [sample, Conn.onOpen, hopen]

end Loop

/-- A build without optional features, with the given hash function. -/
def Host.sample (os : TargetOs) (flutter : Bool) (sha256 : Bytes → Bytes) : Host where
  os := os
  flutter := flutter
  unixFileCopyPaste := false
  unix_os := by simp
  sha256 := sha256
  getVersionNumber := fun v => if v = "1.2.0" then 1002000 else 0
  toLowercase := List.map Char.toLower
  jobTypeFromProto := fun t => if t = .known .printer then .printer else .generic

end VynxDesk
