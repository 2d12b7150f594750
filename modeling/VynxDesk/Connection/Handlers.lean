import VynxDesk.Connection.Login

/-!
# The messages of an authorized peer

The handlers of `on_message` for an authorized connection, one per kind of message, and
`on_message` itself: the close reason first, then the scope of the session, then the login
messages, then the handlers.
-/

namespace VynxDesk

namespace Conn

/-- `Connection::on_close`. -/
def onClose (h : Host) (lock : Bool) (c : Conn) : Conn :=
  if c.closed then c
  else
    let c := { c with closed := true }.emit .setVoiceCallInputDevice
    let c :=
      if lock && c.opts.lockAfterSessionEnd && c.perm.keyboard && h.desktop then c.emit .lockScreen
      else c
    let data : CmData :=
      if h.desktop && (c.book.chatUnanswered || c.book.fileTransferred && h.flutter) then .disconnected
      else .close
    { c.sendToCm data with portForwardSocket := false, portForwardMux := none }

/-- `Connection::send_close_reason_no_retry`. -/
def sendCloseReasonNoRetry (reason : String) (c : Conn) : Conn :=
  c.send (.closeReason (if reason.isEmpty then "Closed manually by the peer" else reason))

/-- `Connection::handle_authorized_scope_violation`. -/
def handleAuthorizedScopeViolation (h : Host) (e : Env) (message : String) (c : Conn) :
    Conn × Bool :=
  let c := c.withBook fun b =>
    { b with scopeViolationMessages := b.scopeViolationMessages.insert message }
  if e.allowScopeViolationClose then
    ((c.sendCloseReasonNoRetry "Connection not allowed").onClose h true, false)
  else (c, true)

/-! ### Input -/

/-- The handler of a `MouseEvent`. -/
def onMouseEvent (h : Host) (me : MouseEvent) (c : Conn) : Conn :=
  if c.isAuthedViewCameraConn then c
  else if !h.desktop then c.emit (.mainServiceMouse me)
  else if c.peerKeyboardEnabled then c.emit (.input (.mouse me true c.opts.showMyCursor))
  else if c.opts.showMyCursor then c.emit (.input (.mouse me false true))
  else c

/-- The handler of a `PointerDeviceEvent`. -/
def onPointerDeviceEvent (h : Host) (pde : PointerDeviceEvent) (c : Conn) : Conn :=
  if c.isAuthedViewCameraConn then c
  else if !h.desktop then
    match pde with
    | .panStart .. | .panUpdate .. | .panEnd .. => c.emit (.mainServicePointer pde)
    | .other _ => c
  else if c.peerKeyboardEnabled then c.emit (.input (.pointer pde))
  else c

/-- Record a modifier key that a key event presses or releases. -/
def updatePressedModifiers (key : Option Nat) (isPress : Bool) (c : Conn) : Conn :=
  match key with
  | some key =>
      c.withBook fun b =>
        { b with
          pressedModifiers :=
            if isPress then b.pressedModifiers.insert key else b.pressedModifiers.erase key }
  | none => c

/-- Whether the input thread gets a key event as a press. -/
def keyPress (ke : KeyEvent) (isPress : Bool) : Bool :=
  isPress &&
    match ke.union with
    | some (.unicode _) | some (.seq _) => false
    | _ => true

/-- The handler of a `KeyEvent`. -/
def onKeyEvent (h : Host) (e : Env) (ke : KeyEvent) (c : Conn) : Conn :=
  let key := e.modifierKey ke
  let downAsPress := (ke.press || ke.down) && !(e.isModifier ke || key.isSome)
  if h.os = .ios || c.isAuthedViewCameraConn then c
  else if h.os = .android then
    (c.updatePressedModifiers key downAsPress).emit (.mainServiceKey ke)
  else if c.peerKeyboardEnabled then
    let isPress := if h.os = .linux then downAsPress else ke.press
    (c.updatePressedModifiers key isPress).emit (.input (.key ke (keyPress ke isPress)))
  else c

/-! ### Clipboard -/

/-- The handler of a `Clipboard` and of a `MultiClipboards`. -/
def onClipboards (cbs : List Clipboard) (c : Conn) : Conn :=
  if c.shouldHandleTextClipboardMessage && c.clipboardEnabled then c.emit (.updateClipboard cbs)
  else c

/-- The handler of a `Cliprdr`, on the builds that have it. -/
def onCliprdr (h : Host) (e : Env) (clip : Cliprdr) (c : Conn) : Conn :=
  match clip with
  | .files _ | .other => c
  | .clip payload =>
      let c := if h.os = .windows then c.sendToCm (.clipboardFile payload) else c
      if h.unixFileCopyPaste && e.isSupportFileCopyPaste then c.emit (.serveCliprdr payload) else c

/-! ### Files -/

/-- A request to send the data of a printer job. -/
def isPrinterSend (h : Host) : Option FileAction → Bool
  | some (.send _ _ _ _ fileType) => h.jobTypeFromProto fileType = .printer
  | _ => false

/-- The job a one-way file transfer refuses. -/
def oneWayRefusedJob : FileAction → Option Int
  | .send id .. | .removeFile id .. | .rename id .. | .create id .. | .removeDir id .. => some id
  | _ => none

/-- Android: the path of an action that has to lie in the workspace, the job, and whether the
empty path will do. -/
def checkedPath (h : Host) : FileAction → Option (String × Int × Bool)
  | .readEmptyDirs path _ => some (path, -1, false)
  | .readDir path _ => some (path, 0, true)
  | .allFiles id path _ => some (path, id, false)
  | .send id path _ _ fileType =>
      if h.jobTypeFromProto fileType = .generic then some (path, id, false) else none
  | .receive id path .. => some (path, id, false)
  | .removeDir id path _ => some (path, id, false)
  | .removeFile id path _ => some (path, id, false)
  | .create id path => some (path, id, false)
  | .rename id path _ => some (path, id, false)
  | .cancel _ | .sendConfirm _ | .other => none

/-- Android: refuse an action outside the workspace. -/
def refuseOutsideWorkspace (h : Host) (e : Env) (fa : FileAction) (c : Conn) : Conn × Bool :=
  if h.os ≠ .android then (c, true)
  else
    match checkedPath h fa with
    | some (path, jobId, allowEmpty) =>
        if !e.isPeerPathAllowed path allowEmpty then
          (if jobId ≥ 0 then c.send (.fileError jobId "Permission denied" (-1)) else c, false)
        else
          match fa with
          | .rename id path newName =>
              if e.isRenameAllowed path newName then (c, true)
              else (c.send (.fileError id "Permission denied" (-1)), false)
          | _ => (c, true)
    | none => (c, true)

/-- `Connection::create_and_start_read_job`. -/
def createAndStartReadJob (e : Env) (id : Int) (path : String) (c : Conn) : Conn :=
  match e.newReadJob with
  | some err => c.send (.fileError id err 0)
  | none =>
      ((c.send (.fileDir id path)).withBook fun b => { b with readJobs := b.readJobs ++ [id] }
        ).emit (.readJob id path)

/-- The action that sends a file to the peer. -/
def onFileSend (h : Host) (e : Env) (id : Int) (path : String) (fileNum : Int)
    (includeHidden : Bool) (fileType : EnumOrUnknown FileType) (c : Conn) : Conn :=
  match h.jobTypeFromProto fileType with
  | .generic =>
      let c :=
        if e.needFsCmSendFiles then
          (c.withBook fun b => { b with cmReadJobIds := b.cmReadJobIds.insert id }).sendFs
            (.readFile path id fileNum includeHidden)
        else c.createAndStartReadJob e id path
      c.withBook fun b => { b with fileTransferred := true }
  | .printer =>
      if path ∈ c.book.printerData then
        let c := (c.withBook fun b => { b with printerData := b.printerData.erase path }
          ).createAndStartReadJob e id path
        c.withBook fun b => { b with fileTransferred := true }
      else c

/-- The action that lists all files below a path. -/
def onAllFiles (e : Env) (id : Int) (path : String) (includeHidden : Bool) (c : Conn) : Conn :=
  if e.needFsCmSendFiles then c.sendFs (.readAllFiles path id includeHidden)
  else
    match e.recursiveFiles with
    | some err => c.send (.fileError id err (-1))
    | none => c.send (.fileDir id path)

/-- `fs::remove_job` on the jobs of the connection, and the log of the job it removes. -/
def removeJob (id : Int) (c : Conn) : Conn :=
  if id ∈ c.book.readJobs then
    ((c.withBook fun b => { b with readJobs := b.readJobs.erase id }).emit
      (.removeJob id)).sendToCm (.fileTransferLog "transfer")
  else c

/-- The action that cancels a job. -/
def onFileCancel (id : Int) (c : Conn) : Conn :=
  (((c.sendFs (.cancelWrite id)).withBook fun b =>
    { b with cmReadJobIds := b.cmReadJobIds.erase id }).sendFs (.cancelRead id)).removeJob id

/-- The action that confirms the sending of a file. -/
def onSendConfirm (r : FileTransferSendConfirmRequest) (c : Conn) : Conn :=
  if r.id ∈ c.book.readJobs then c.emit (.confirmJob r)
  else if r.id ∈ c.book.cmReadJobIds then
    c.sendFs (.sendConfirmForRead r.id r.fileNum r.skip r.offsetBlk)
  else c.sendFs (.sendConfirm r)

/-- The file actions, once they are allowed. -/
def doFileAction (h : Host) (e : Env) (fa : FileAction) (c : Conn) : Conn :=
  match fa with
  | .readEmptyDirs path includeHidden => c.sendFs (.readEmptyDirs path includeHidden)
  | .readDir path includeHidden => c.readDir path includeHidden
  | .allFiles id path includeHidden => c.onAllFiles e id path includeHidden
  | .send id path fileNum includeHidden fileType =>
      c.onFileSend h e id path fileNum includeHidden fileType
  | .receive id path fileNum files totalSize =>
      (c.sendFs (.newWrite path id fileNum files totalSize)).withBook fun b =>
        { b with fileTransferred := true }
  | .removeDir id path recursive => c.sendFs (.removeDir path id recursive)
  | .removeFile id path fileNum => c.sendFs (.removeFile path id fileNum)
  | .create id path => (c.sendFs (.createDir path id)).sendToCm (.fileTransferLog "create_dir")
  | .cancel id => c.onFileCancel id
  | .sendConfirm r => c.onSendConfirm r
  | .rename id path newName =>
      (c.sendFs (.rename id path newName)).sendToCm (.fileTransferLog "rename")
  | .other => c

/-- The read of a directory that waits for the session to be chosen. -/
def delayReadDir (fa : Option FileAction) (c : Conn) : Conn :=
  match fa with
  | some (.readDir path includeHidden) =>
      c.withBook fun b => { b with delayedReadDir := some (path, includeHidden) }
  | _ => c

/-- The handler of a `FileAction`. -/
def onFileAction (h : Host) (e : Env) (fa : Option FileAction) (c : Conn) : Conn :=
  if !c.auth.fileTransfer.isSome && !isPrinterSend h fa then c
  else if c.book.delayedReadDir.isSome then c.delayReadDir fa
  else
    match fa with
    | none => c
    | some fa =>
        match (if e.oneWayFileTransfer then oneWayRefusedJob fa else none) with
        | some id => c.send (.fileError id "one-way-file-transfer-tip" 0)
        | none =>
            let r := c.refuseOutsideWorkspace h e fa
            if r.2 then r.1.doFileAction h e fa else r.1

/-- The handler of a `FileResponse`. -/
def onFileResponse (fr : Option FileResponse) (c : Conn) : Conn :=
  match fr with
  | some (.block id fileNum data compressed) => c.sendFs (.writeBlock id fileNum data compressed)
  | some (.done id fileNum) => c.sendFs (.writeDone id fileNum)
  | some (.digest id fileNum fileSize lastModified isResume) =>
      c.sendFs (.checkDigest id fileNum fileSize lastModified isResume)
  | some (.error id fileNum err) => c.sendFs (.writeError id fileNum err)
  | some .other | none => c

/-! ### Misc messages -/

/-- The handler of an `OptionMessage`. -/
def onOption (h : Host) (e : Env) (o : OptionMessage) (c : Conn) : Conn :=
  if c.authedConnType = some .remote then c.updateOptions h e o
  else
    match c.scopedUpdateOptionMessage o with
    | some o => c.updateOptions h e o
    | none => c

/-- `Connection::refresh_video_display`. -/
def refreshVideoDisplay (display : Option Nat) (c : Conn) : Conn := c.emit (.refreshVideo display)

/-- `Connection::handle_elevation_request`. -/
def handleElevationRequest (e : Env) (r : ElevationRequest) (c : Conn) : Conn :=
  if !c.perm.keyboard then c.send (.elevationResponse "No permission")
  else if !e.isInstalled && !e.portableRunning then
    (c.emit (.startPortableService r)).send
      (.elevationResponse (if e.startPortableService then "" else "Failed to start"))
  else c.send (.elevationResponse "No need to elevate")

/-- The handler of an `ElevationRequest`. -/
def onElevationRequest (e : Env) (r : ElevationRequest) (c : Conn) : Conn :=
  match r with
  | .direct | .logon .. => c.handleElevationRequest e r
  | .other => c

/-- The handler of a `SwitchSidesRequest`, on the builds that have it. -/
def onSwitchSidesRequest (h : Host) (e : Env) (uuid : Bytes) (c : Conn) : Conn × Bool :=
  if h.flutter && h.desktop && uuid.length = 16 then
    ((if e.insertPendingSwitchSides then c.emit (.switchSides uuid) else c).onClose h false, false)
  else (c, true)

/-- The handler of a `SelectedSid`, on Windows. -/
def onSelectedSid (h : Host) (e : Env) (sid : Nat) (c : Conn) : Conn × Bool :=
  if e.currentProcessSid.isNone then (c, true)
  else if e.switchToSession sid then (c.emit (.connectToUserSession sid), false)
  else if c.auth.fileTransfer.isSome then
    match c.book.delayedReadDir with
    | some (dir, showHidden) =>
        ((c.withBook fun b => { b with delayedReadDir := none }).readDir dir showHidden, true)
    | none => (c, true)
  else if c.auth.viewCamera then (c.trySubCameraDisplays e, true)
  else if !c.auth.terminal then (c.trySubMonitorServices h e, true)
  else (c, true)

/-- The handler of a `Misc`. -/
def onMisc (h : Host) (e : Env) (m : Misc) (c : Conn) : Conn × Bool :=
  match m with
  | .switchDisplay display width height => (c.handleSwitchDisplay h e display width height, true)
  | .captureDisplays add sub set => (c.captureDisplays h e add sub set, true)
  | .toggleVirtualDisplay display on =>
      (if h.os = .windows && !c.auth.viewCamera then c.toggleVirtualDisplay e display on else c,
        true)
  | .togglePrivacyMode implKey on =>
      (if !c.auth.viewCamera then c.togglePrivacyMode e implKey on else c, true)
  | .chatMessage text =>
      ((c.sendToCm (.chatMessage text)).withBook fun b => { b with chatUnanswered := true }, true)
  | .option o => (c.onOption h e o, true)
  | .refreshVideo r =>
      (if c.shouldHandleRenderBroadcastMessage && r then c.refreshVideoDisplay none else c, true)
  | .refreshVideoDisplay display =>
      (if c.shouldHandleRenderBroadcastMessage then c.refreshVideoDisplay (some display) else c,
        true)
  | .videoReceived => (c.emit .videoFrameFetched, true)
  | .restartRemoteDevice => (if h.desktop && c.perm.restart then c.emit .reboot else c, true)
  | .elevationRequest r => (if h.os = .windows then c.onElevationRequest e r else c, true)
  | .audioFormat =>
      (if !c.opts.disableAudio then
        (c.withBook fun b => { b with audioSender := true }).emit .audioFormat
      else c, true)
  | .switchSidesRequest uuid => c.onSwitchSidesRequest h e uuid
  | .changeResolution width height =>
      (if h.desktop && !c.auth.viewCamera then c.changeResolution e none width height else c, true)
  | .changeDisplayResolution display width height =>
      (if h.desktop && !c.auth.viewCamera then c.changeResolution e (some display) width height
        else c, true)
  | .autoAdjustFps fps => (c.emit (.userAutoAdjustFps fps), true)
  | .clientRecordStatus status => (c.emit (.userRecord status), true)
  | .selectedSid sid => if h.os = .windows then c.onSelectedSid h e sid else (c, true)
  | .messageQuery display => (c.sendDisplayChanged e display, true)
  | .closeReason _ | .followCurrentDisplay _ | .other => (c, true)

/-! ### The rest, and `on_message` -/

/-- `Connection::handle_terminal_action`. -/
def handleTerminalAction (e : Env) (action : Bytes) (c : Conn) : Conn :=
  match c.auth.terminalUserToken with
  | none => c
  | some token =>
      let c := c.emit
        (.handleTerminalAction c.auth.terminalServiceId c.book.terminalPersistent token action)
      if e.terminalResponds then c.send .terminalResponse else c

/-- `Connection::handle_port_forward_channel`. -/
def handlePortForwardChannel (e : Env) (ch : PortForwardChannel) (c : Conn) : Conn :=
  if c.portForwardMux.isSome then c.emit (.handlePortForward ch (e.permission .tunnel)) else c

/-- The handler of a `VoiceCallRequest`. -/
def onVoiceCallRequest (h : Host) (e : Env) (isConnect : Bool) (c : Conn) : Conn :=
  if isConnect then (c.withBook fun b => { b with voiceCallRequest := true }).sendToCm .voiceCallIncoming
  else c.closeVoiceCall h e

/-- `on_message` on an authorized connection, past the login messages. -/
def onAuthorizedMessage (h : Host) (e : Env) (msg : Message) (c : Conn) : Conn × Bool :=
  match msg with
  | some (.mouseEvent me) => (c.onMouseEvent h me, true)
  | some (.pointerDeviceEvent pde) => (c.onPointerDeviceEvent h pde, true)
  | some (.keyEvent ke) => (c.onKeyEvent h e ke, true)
  | some (.clipboard cb) => (c.onClipboards [cb], true)
  | some (.multiClipboards cbs) => (if h.os = .ios then c else c.onClipboards cbs, true)
  | some (.cliprdr clip) =>
      (if h.os = .windows || h.unixFileCopyPaste then c.onCliprdr h e clip else c, true)
  | some (.fileAction fa) => (c.onFileAction h e fa, true)
  | some (.fileResponse fr) => (c.onFileResponse fr, true)
  | some (.misc (some m)) => c.onMisc h e m
  | some .audioFrame =>
      (if !c.opts.disableAudio && c.book.audioSender then c.emit .audioFrame else c, true)
  | some (.voiceCallRequest isConnect) => (c.onVoiceCallRequest h e isConnect, true)
  | some (.screenshotRequest display _) =>
      ((c.emit (.takeScreenshot c.videoSource display)).refreshVideoDisplay (some display), true)
  | some (.portForwardChannel ch) => (c.handlePortForwardChannel e ch, true)
  | some (.terminalAction action) =>
      (if h.desktop then c.handleTerminalAction e action else c, true)
  | _ => (c, true)

/-- `on_message` past the close reason and the scope check. -/
def dispatch (h : Host) (e : Env) (msg : Message) (c : Conn) : Conn × Bool :=
  match msg with
  | some (.loginRequest lr) => c.onLoginRequest h e lr
  | some (.auth2fa tfa) => c.onAuth2fa h e tfa
  | some (.testDelay fromClient) => c.onTestDelay fromClient
  | some (.switchSidesResponse s) => c.onSwitchSidesResponse h e s
  | msg =>
      if c.auth.authorized && !c.portForwardSocket then c.onAuthorizedMessage h e msg
      else (c, true)

/-- The message is a login request. -/
def isLoginRequest : Message → Bool
  | some (.loginRequest _) => true
  | _ => false

/-- The message is a close reason. -/
def isCloseReason : Message → Bool
  | some (.misc (some (.closeReason _))) => true
  | _ => false

/-- `Connection::on_message`. -/
def onMessage (h : Host) (e : Env) (msg : Message) (c : Conn) : Conn × Bool :=
  if isCloseReason msg then (c.onClose h true, false)
  else if c.auth.authorized && isLoginRequest msg then (c, true)
  else if c.auth.authorized then
    match c.authorizedScopeViolation h msg with
    | some message => c.handleAuthorizedScopeViolation h e message
    | none => c.dispatch h e msg
  else c.dispatch h e msg

end Conn

end VynxDesk
