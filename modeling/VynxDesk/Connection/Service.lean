import VynxDesk.Connection.Scope

/-!
# Subscriptions, options and privacy mode

The server's subscription operations as seen by one connection, the handlers that use them,
and `update_options`, which applies an `OptionMessage` field by field.
-/

namespace VynxDesk

/-- The services the server of a build can have. -/
def Host.hasService (h : Host) : Service → Bool
  | .audio => true
  | .display | .clipboard => h.os ≠ .ios
  | .fileClipboard => h.unixFileCopyPaste
  | .cursor | .cursorPos | .windowFocus => h.desktop
  | .printer => h.os = .windows && h.flutter

/-- The server is alive and has the service. -/
def Env.present (h : Host) (e : Env) (s : Service) : Bool :=
  e.serverAlive && h.hasService s && e.services s

namespace Conn

/-- `Server::subscribe` for this connection. -/
def subscribe (h : Host) (e : Env) (s : Service) (sub : Bool) (c : Conn) : Conn :=
  if e.present h s then { c with subs := Function.update c.subs s sub } else c

/-- The services `try_sub_monitor_services` does not subscribe to. -/
def noperms (h : Host) (e : Env) (c : Conn) : Service → Bool
  | .cursor => !c.peerKeyboardEnabled && !c.opts.showRemoteCursor
  | .cursorPos => !c.opts.showRemoteCursor
  | .windowFocus => !c.opts.followRemoteWindow
  | .clipboard => !c.canSubClipboardService e
  | .fileClipboard => h.unixFileCopyPaste && !c.canSubFileClipboardService e
  | .audio => !c.audioEnabled
  | .display | .printer => false

/-- `Server::add_monitor_connection`: subscribe to every service but the given ones, and of the
video services only to the one of the given display. -/
def addMonitorConnection (h : Host) (e : Env) (noperms : Service → Bool) (c : Conn) : Conn :=
  ({ c with subs := fun s => if e.present h s && !noperms s then true else c.subs s }).withBook
    fun b => { b with videoSubs := [(.monitor, b.displayIdx)] ∪ b.videoSubs }

/-- `Connection::try_sub_monitor_services`. -/
def trySubMonitorServices (h : Host) (e : Env) (c : Conn) : Conn :=
  if c.isRemote && !c.servicesSubed then
    let c := { c with servicesSubed := true }
    if e.serverAlive then
      (c.withBook fun b => { b with autoDisconnect := e.allowAutoDisconnect }).addMonitorConnection h e
        (c.noperms h e)
    else c
  else c

/-- `Connection::try_sub_camera_displays`. -/
def trySubCameraDisplays (e : Env) (c : Conn) : Conn :=
  if e.serverAlive && e.primaryCameraExists then
    c.withBook fun b => { b with videoSubs := [(.camera, 0)] ∪ b.videoSubs }
  else c

/-- `Server::capture_displays`: subscribe to the video services of the given displays if
`inc`, and leave all others if `exc`. -/
def serverCaptureDisplays (source : VideoSource) (displays : List Nat) (inc exc : Bool)
    (c : Conn) : Conn :=
  let names := displays.map (fun d => (source, d))
  let kept := if exc then c.book.videoSubs.filter (fun v => v ∈ names) else c.book.videoSubs
  c.withBook fun b => { b with videoSubs := if inc then names ∪ kept else kept }

/-- The end of `capture_displays`: a peer that sees several displays does not follow the focused
window. -/
def followFocusedWindow (h : Host) (e : Env) (c : Conn) : Conn :=
  let c := c.withBook fun b => { b with multiUiSession := b.videoSubs.length > 1 }
  if c.opts.followRemoteWindow then c.subscribe h e .windowFocus (!c.book.multiUiSession) else c

/-- `Connection::capture_displays`.  Indices past the last source are dropped; a request that
names only such indices is ignored. -/
def captureDisplays (h : Host) (e : Env) (add sub set : List Nat) (c : Conn) : Conn :=
  let source := c.videoSource
  let valid := fun l : List Nat => l.filter (fun d => d < e.videoSourceCount source)
  if !add.isEmpty && (valid add).isEmpty
      || add.isEmpty && !sub.isEmpty && (valid sub).isEmpty
      || add.isEmpty && sub.isEmpty && !set.isEmpty && (valid set).isEmpty then c
  else if e.serverAlive then
    (if !add.isEmpty then c.serverCaptureDisplays source (valid add) true false
      else if !sub.isEmpty then c.serverCaptureDisplays source (valid sub) false true
      else c.serverCaptureDisplays source (valid set) true true).followFocusedWindow h e
  else c

/-- `Connection::change_resolution`. -/
def changeResolution (e : Env) (d : Option Nat) (width height : Int) (c : Conn) : Conn :=
  if c.perm.keyboard && (d.getD c.book.displayIdx) < e.displays then
    c.emit (.changeResolution (d.getD c.book.displayIdx) width height)
  else c

/-- `Connection::switch_display_to`. -/
def switchDisplayTo (e : Env) (d : Nat) (c : Conn) : Conn × Bool :=
  if e.videoSourceCount c.videoSource ≤ d then (c, false)
  else
    let old := (c.videoSource, c.book.displayIdx)
    let kept :=
      if e.isSupportMultiUiSession then c.book.videoSubs else c.book.videoSubs.filter (fun v => v ≠ old)
    ((c.withBook fun b => { b with videoSubs := [(c.videoSource, d)] ∪ kept, displayIdx := d }), true)

/-- The message `handle_switch_display` answers with. -/
def sendDisplayChanged (e : Env) (display : Nat) (c : Conn) : Conn :=
  if e.displayChangedMsg then c.send (.displayChanged display) else c

/-- `Connection::handle_switch_display`. -/
def handleSwitchDisplay (h : Host) (e : Env) (d : Nat) (width height : Int) (c : Conn) : Conn :=
  if c.book.displayIdx = d then c
  else if e.serverAlive then
    let (c, switched) := c.switchDisplayTo e d
    if !switched then c
    else
      let c :=
        if h.desktop && !c.auth.viewCamera && width ≠ 0 && height ≠ 0 then
          c.changeResolution e none width height
        else c
      c.sendDisplayChanged e c.book.displayIdx
  else c.sendDisplayChanged e c.book.displayIdx

/-! ### Voice calls -/

/-- A camera session hears audio only during a voice call. -/
def subscribeCallAudio (h : Host) (e : Env) (sub : Bool) (c : Conn) : Conn :=
  if c.isAuthedViewCameraConn then c.subscribe h e .audio sub else c

/-- `Connection::handle_voice_call`. -/
def handleVoiceCall (h : Host) (e : Env) (accepted : Bool) (c : Conn) : Conn :=
  if c.book.voiceCallRequest then
    let c := c.withBook fun b => { b with voiceCallRequest := false }
    let c :=
      if accepted then (c.emit .setVoiceCallInputDevice).sendToCm .startVoiceCall
      else c.sendToCm .closeVoiceCall
    let c := (c.send (.voiceCallResponse accepted)).withBook fun b =>
      { b with voiceCalling := accepted }
    c.subscribeCallAudio h e (c.audioEnabled && accepted)
  else c

/-- `Connection::close_voice_call`. -/
def closeVoiceCall (h : Host) (e : Env) (c : Conn) : Conn :=
  (((c.emit .setVoiceCallInputDevice).sendToCm .closeVoiceCall).withBook fun b =>
    { b with voiceCalling := false }).subscribeCallAudio h e false

/-! ### Privacy mode -/

/-- `Connection::turn_off_privacy_result_to_msg`. -/
def turnOffPrivacyResultToMsg (e : Env) (implKey : String) : OutMsg :=
  match e.turnOffPrivacy with
  | some true => .privacyMode .prvOffSucceeded implKey
  | some false => .privacyMode .prvOffFailed implKey
  | none => .privacyMode .prvOffFailed implKey

/-- The message `turn_on_privacy` ends with, after turning privacy mode on. -/
def turnOnPrivacyResult (e : Env) (implKey : String) (c : Conn) : Conn :=
  match e.turnOnPrivacy with
  | some (some true) =>
      if e.privacyModeErr.isEmpty then c.send (.privacyMode .prvOnSucceeded implKey)
      else (c.emit (.turnOffPrivacy "")).send (.privacyMode .prvOnFailed implKey)
  | some (some false) => c.send (.privacyMode .prvOnFailed implKey)
  | some none =>
      (if e.isInPrivacyMode then c.emit (.turnOffPrivacy "") else c).send
        (.privacyMode .prvOnFailed implKey)
  | none => c.send (.privacyMode .prvOffFailed implKey)

/-- `Connection::turn_on_privacy`. -/
def turnOnPrivacy (e : Env) (implKey : String) (c : Conn) : Conn :=
  if !c.isAuthedRemoteConn || !c.perm.privacyMode then
    c.send (.privacyMode .prvOnFailedDenied implKey)
  else if !e.privacyModeSupported then c.send (.privacyMode .prvNotSupported implKey)
  else
    let c :=
      if e.isInPrivacyMode && e.replacesPrivacyImpl then
        c.send (.privacyMode .prvOffSucceeded implKey)
      else c
    (c.emit (.turnOnPrivacy implKey)).turnOnPrivacyResult e implKey

/-- `Connection::turn_off_privacy`. -/
def turnOffPrivacy (e : Env) (implKey : String) (c : Conn) : Conn :=
  if !e.privacyModeSupported then c.send (.privacyMode .prvNotSupported implKey)
  else (c.emit (.turnOffPrivacy implKey)).send (turnOffPrivacyResultToMsg e implKey)

/-- `Connection::toggle_privacy_mode`. -/
def togglePrivacyMode (e : Env) (implKey : String) (on : Bool) (c : Conn) : Conn :=
  if on then c.turnOnPrivacy e implKey else c.turnOffPrivacy e implKey

/-- `Connection::toggle_virtual_display`, on Windows. -/
def toggleVirtualDisplay (e : Env) (display : Int) (on : Bool) (c : Conn) : Conn :=
  if on then
    if !e.isVirtualDisplaySupported then c.send (.messageBox "Virtual display")
    else
      let c := c.emit (.plugInMonitor display)
      if e.plugResult then c else c.send (.messageBox "Virtual display")
  else
    let c := c.emit (.plugOutMonitor display)
    if e.plugResult then c else c.send (.messageBox "Virtual display")

end Conn

/-! ### Options -/

/-- The value a boolean option sets: none when it is not set or unknown. -/
def EnumOrUnknown.setting (o : EnumOrUnknown BoolOption) : Option Bool :=
  match o.enumValue with
  | some .yes => some true
  | some .no => some false
  | some .notSet | none => none

@[simp]
theorem EnumOrUnknown.setting_notSet :
  (EnumOrUnknown.known BoolOption.notSet).setting = none
  := rfl

namespace Conn

variable (h : Host) (e : Env) (o : OptionMessage)

/-- The image quality an option asks for, `-1` for none. -/
def imageQualityOf (q : ImageQuality) : Int :=
  if q = .notSet then if o.customImageQuality > 0 then o.customImageQuality else -1
  else q.value

def updateImageQuality (c : Conn) : Conn :=
  match o.imageQuality.enumValue with
  | some q => if imageQualityOf o q > 0 then c.emit (.userImageQuality (imageQualityOf o q)) else c
  | none => c

def updateCustomFps (c : Conn) : Conn :=
  if o.customFps > 0 then c.emit (.userCustomFps o.customFps) else c

def updateSupportedDecoding (c : Conn) : Conn :=
  match o.supportedDecoding with
  | some d => c.emit (.encoderUpdate (some d))
  | none => c

def updateLockAfterSessionEnd (c : Conn) : Conn :=
  match o.lockAfterSessionEnd.setting with
  | some v => c.withOpts fun o => { o with lockAfterSessionEnd := v }
  | none => c

def updateShowRemoteCursor (c : Conn) : Conn :=
  if h.desktop then
    match o.showRemoteCursor.setting with
    | some v =>
        let c := c.withOpts fun o => { o with showRemoteCursor := v }
        (c.subscribe h e .cursor (c.peerKeyboardEnabled || c.opts.showRemoteCursor)).subscribe
          h e .cursorPos c.opts.showRemoteCursor
    | none => c
  else c

def updateFollowRemoteCursor (c : Conn) : Conn :=
  if h.desktop then
    match o.followRemoteCursor.setting with
    | some v => c.withOpts fun o => { o with followRemoteCursor := v }
    | none => c
  else c

def updateFollowRemoteWindow (c : Conn) : Conn :=
  match o.followRemoteWindow.setting with
  | some v =>
      (c.withOpts fun o => { o with followRemoteWindow := v }).subscribe h e .windowFocus v
  | none => c

/-- Subscribe to audio, or leave it, after a change of `audio_enabled`.  A camera session hears
audio only during a voice call. -/
def resubscribeAudio (c : Conn) : Conn :=
  if c.isAuthedViewCameraConn then
    if c.book.voiceCalling || !c.audioEnabled then c.subscribe h e .audio c.audioEnabled else c
  else c.subscribe h e .audio c.audioEnabled

def updateDisableAudio (c : Conn) : Conn :=
  match o.disableAudio.setting with
  | some v => (c.withOpts fun o => { o with disableAudio := v }).resubscribeAudio h e
  | none => c

def updateEnableFileTransfer (c : Conn) : Conn :=
  if h.os = .windows || h.unixFileCopyPaste then
    match o.enableFileTransfer.setting with
    | some v =>
        let c := c.withOpts fun o => { o with enableFileTransfer := v }
        let c :=
          if h.os = .windows then c.sendToCm (.clipboardFileEnabled c.fileTransferEnabled) else c
        if h.unixFileCopyPaste then
          (if v then c else c.emit .emptyClipboardFiles).subscribe h e .fileClipboard
            (c.canSubFileClipboardService e)
        else c
    | none => c
  else c

def updateDisableClipboard (c : Conn) : Conn :=
  match o.disableClipboard.setting with
  | some v =>
      let c := c.withOpts fun o => { o with disableClipboard := v }
      c.subscribe h e .clipboard (c.canSubClipboardService e)
  | none => c

def updateDisableKeyboard (c : Conn) : Conn :=
  match o.disableKeyboard.setting with
  | some v =>
      let c := c.withOpts fun o => { o with disableKeyboard := v }
      let c := c.subscribe h e .clipboard (c.canSubClipboardService e)
      let c :=
        if h.unixFileCopyPaste then
          c.subscribe h e .fileClipboard (c.canSubFileClipboardService e)
        else c
      c.subscribe h e .cursor (c.peerKeyboardEnabled || c.opts.showRemoteCursor)
  | none => c

/-- Peers before version 1.2.4 toggle privacy mode by an option. -/
def updatePrivacyMode (c : Conn) : Conn :=
  if h.getVersionNumber c.auth.lr.version < h.getVersionNumber "1.2.4" then
    match o.privacyMode.setting with
    | some v =>
        if c.perm.keyboard then
          if v then c.turnOnPrivacy e "" else c.turnOffPrivacy e ""
        else c
    | none => c
  else c

def updateBlockInput (c : Conn) : Conn :=
  match o.blockInput.setting with
  | some v =>
      if c.perm.keyboard && c.perm.blockInput then
        c.emit (.input (if v then .blockOn else .blockOff))
      else c.emit (.innerSend (.blockInputError v))
  | none => c

def updateTerminalPersistence (c : Conn) : Conn :=
  if h.desktop then
    match o.terminalPersistent.setting with
    | some v =>
        (c.withBook fun b => { b with terminalPersistent := v }).emit
          (.setTerminalPersistent c.auth.terminalServiceId v)
    | none => c
  else c

def updateShowMyCursor (c : Conn) : Conn :=
  if h.desktop then
    match o.showMyCursor.setting with
    | some v =>
        let c := c.withOpts fun o => { o with showMyCursor := v }
        if e.isMsgSupported then c.emit (.whiteboard v)
        else if v then c.send (.messageBox "Show my cursor")
        else c
    | none => c
  else c

/-- `Connection::update_options`. -/
def updateOptions (c : Conn) : Conn :=
  let c := c.emit (.updateOptions o)
  let c := c.updateImageQuality o
  let c := c.updateCustomFps o
  let c := c.updateSupportedDecoding o
  let c := c.updateLockAfterSessionEnd o
  let c := c.updateShowRemoteCursor h e o
  let c := c.updateFollowRemoteCursor h o
  let c := c.updateFollowRemoteWindow h e o
  let c := c.updateDisableAudio h e o
  let c := c.updateEnableFileTransfer h e o
  let c := c.updateDisableClipboard h e o
  let c := c.updateDisableKeyboard h e o
  let c := c.updatePrivacyMode h e o
  let c := c.updateBlockInput o
  let c := c.updateTerminalPersistence h o
  c.updateShowMyCursor h e o

end Conn

end VynxDesk
