import VynxDesk.Connection.Message
import VynxDesk.Lib.Trim

/-!
# The state of a controlled connection

`Conn` is the state of one `Connection`: what the login decided (`Auth`), the permissions the
connection manager switches (`Perm`), the options the peer sets (`PeerOpts`), the services it
is subscribed to, and the bookkeeping of the handlers.  `Host` is the build and what it takes
from libraries; `Env` is what one step finds outside the connection: the configuration, the
session table, the file system and the operating system, all of which other threads may change
between two steps.  `Effect` is what a step does to the outside; `Conn.out` collects the
effects of the current step, the oldest first.
-/

namespace VynxDesk

/-! ### The build and the environment -/

inductive TargetOs where
  | windows | linux | macos | android | ios
  deriving DecidableEq

/-- A build, and the functions it takes from libraries.  The file clipboard feature exists on
Linux and macOS only. -/
structure Host where
  os : TargetOs
  flutter : Bool
  unixFileCopyPaste : Bool
  unix_os : unixFileCopyPaste = true → os = .linux ∨ os = .macos
  sha256 : Bytes → Bytes
  getVersionNumber : String → Int
  /-- `to_lowercase`, after the Unicode tables. -/
  toLowercase : List Char → List Char
  /-- `JobType::from_proto`. -/
  jobTypeFromProto : EnumOrUnknown FileType → FileType

/-- A desktop build, that is, neither Android nor iOS. -/
def Host.desktop (h : Host) : Bool := h.os ≠ .android ∧ h.os ≠ .ios

inductive EnableOption where
  | keyboard | clipboard | fileTransfer | audio | camera | terminal | tunnel
  | remoteRestart | recordSession | blockInput | privacyMode | remotePrinter
  deriving DecidableEq

inductive ApproveMode where
  | both | password | click
  deriving DecidableEq

inductive VideoSource where
  | monitor | camera
  deriving DecidableEq

/-- The services of the server other than the video services, by name. -/
inductive Service where
  | audio | display | clipboard | fileClipboard | cursor | cursorPos | windowFocus | printer
  deriving DecidableEq

/-- An entry of the session table. -/
structure Session where
  randomPassword : String
  tfa : Bool
  deriving DecidableEq

structure TrustedDevice where
  hwid : Bytes
  id : String
  name : String
  platform : String
  outdate : Bool
  deriving DecidableEq

/-- What `get_logon_user_token` and `is_user_token_admin` say about OS credentials. -/
inductive LogonCheck where
  | admin | notAdmin | failed
  deriving DecidableEq

/-- The token of the console user, as `handle_installed_user` finds it. -/
inductive ConsoleToken where
  | noSession | noToken | token (t : Nat)
  deriving DecidableEq

/-- What one step of the connection finds outside it. -/
structure Env where
  /-- The entries of the ID whitelist, trimmed, the empty ones dropped. -/
  idWhitelist : List String := []
  /-- `check_failure(i)`: the error to send when the address is blocked. -/
  checkFailure : Nat → Option String := fun _ => none
  /-- `check_failure_with_scope(0, TerminalOsLogin)`. -/
  checkOsFailure : Option String := none
  /-- `Connection::permission` of an option. -/
  permission : EnableOption → Bool := fun _ => true
  /-- The session of the current key that `is_recent_session(tfa)` finds. -/
  session : Bool → Option Session := fun _ => none
  temporaryEnabled : Bool := true
  temporaryPassword : String := ""
  permanentEnabled : Bool := true
  localStorage : String := ""
  localUsable : Bool := true
  /-- `decode_permanent_password_h1_from_storage`. -/
  decodePermanentH1 : String → Option Bytes := fun _ => none
  presetStorage : String := ""
  presetSalt : String := ""
  presetUsable : Bool := true
  /-- `decode_preset_password_h1_from_storage`. -/
  decodePresetH1 : String → Option Bytes := fun _ => none
  approveMode : ApproveMode := .both
  hasValidPassword : Bool := true
  /-- The option that allows the permanent password on the logon screen. -/
  allowLogonScreenPassword : Bool := false
  isPrelogin : Bool := false
  isLocked : Bool := false
  isLogonUi : Bool := false
  isInstalled : Bool := true
  configId : String := ""
  isDirectIpAccess : String → Bool := fun _ => true
  get2fa : Bool := false
  /-- `totp.check_current(code)`: `none` when the check itself fails. -/
  totpCheck : String → Option Bool := fun _ => some false
  enableTrustedDevices : Bool := false
  trustedDevices : List TrustedDevice := []
  /-- `SWITCH_SIDES_UUID`: peer id, milliseconds since the insertion, uuid. -/
  switchSidesUuid : List (String × Nat × Bytes) := []
  /-- Whether `TcpStream::connect` to the target succeeds in time. -/
  connect : String → Bool := fun _ => true
  logonCheck : String → String → LogonCheck := fun _ _ => .failed
  consoleToken : ConsoleToken := .noSession
  osLoginGate : Bool := true
  isServiceSpecifiedUser : String → Option Bool := fun _ => none
  generateServiceId : String := ""
  /-- Linux: why the login screen or the display server cannot be captured, empty if it can. -/
  displayServerError : String := ""
  /-- `update_get_sync_displays_on_login`: the primary display, or an error. -/
  syncDisplays : Except String Nat := .ok 0
  /-- Windows: the peer has to choose a session first. -/
  waitSessionIdConfirm : Bool := false
  /-- `is_inited_msg` has a message to send. -/
  isInitedMsg : Bool := false
  primaryCameraExists : Bool := true
  isPeerPathAllowed : String → Bool → Bool := fun _ _ => true
  /-- Android: the new name of a path is inside the workspace. -/
  isRenameAllowed : String → String → Bool := fun _ _ => true
  isDir : String → Bool := fun _ => false
  serverAlive : Bool := true
  services : Service → Bool := fun _ => true
  videoSourceCount : VideoSource → Nat := fun _ => 1
  /-- The builtin option `one-way-clipboard-redirection`. -/
  oneWayClipboard : Bool := false
  /-- The builtin option `one-way-file-transfer`. -/
  oneWayFileTransfer : Bool := false
  isSupportMultiUiSession : Bool := true
  /-- `is_support_file_copy_paste` of the peer's version. -/
  isSupportFileCopyPaste : Bool := true
  allowScopeViolationClose : Bool := false
  isInPrivacyMode : Bool := false
  privacyModeConnId : Option Int := none
  privacyModeSupported : Bool := true
  /-- Turning privacy mode on replaces another implementation. -/
  replacesPrivacyImpl : Bool := false
  /-- `privacy_mode::turn_off_privacy`: absent, succeeded, or failed. -/
  turnOffPrivacy : Option Bool := some true
  /-- `privacy_mode::turn_on_privacy`: absent, `Ok(b)`, or an error. -/
  turnOnPrivacy : Option (Option Bool) := some (some true)
  /-- `get_cur_impl_key`, empty when there is none. -/
  curImplKey : String := ""
  /-- `check_privacy_mode_err`: empty when the capture works in privacy mode. -/
  privacyModeErr : String := ""
  /-- The displays `change_resolution` may change. -/
  displays : Nat := 1
  isVirtualDisplaySupported : Bool := true
  plugResult : Bool := true
  portableRunning : Bool := false
  /-- The modifier key a key event stands for in map and translate mode, when it is one. -/
  modifierKey : KeyEvent → Option Nat := fun _ => none
  isModifier : KeyEvent → Bool := fun _ => false
  needFsCmSendFiles : Bool := false
  /-- `TransferJob::new_read` and the file count limit: the error, if any. -/
  newReadJob : Option String := none
  /-- `get_recursive_files` and the file count limit: the error, if any. -/
  recursiveFiles : Option String := none
  /-- Windows: the conditions under which `SelectedSid` moves to another session. -/
  currentProcessSid : Option Nat := none
  switchToSession : Nat → Bool := fun _ => false
  isMsgSupported : Bool := true
  /-- Whether the terminal service answers the action with a message. -/
  terminalResponds : Bool := true
  insertPendingSwitchSides : Bool := true
  /-- Whether `start_portable_service` succeeds. -/
  startPortableService : Bool := true
  /-- `make_display_changed_msg` finds the display. -/
  displayChangedMsg : Bool := true
  allowAutoDisconnect : Bool := false
  /-- Why `on_open` refuses the address: the IP whitelist, or the closed main window. -/
  refuseOpen : Option String := none
  /-- Whether a write to the stream succeeds. -/
  streamSend : Bool := true

/-! ### What the connection does -/

/-- The input queued to the input thread. -/
inductive MessageInput where
  | mouse (me : MouseEvent) (simulate showCursor : Bool)
  | key (ke : KeyEvent) (press : Bool)
  | pointer (pde : PointerDeviceEvent)
  | blockOn
  | blockOff
  deriving DecidableEq

inductive Permission where
  | keyboard | clipboard | audio | file | restart | recording | blockInput | privacyMode
  deriving DecidableEq

inductive PrivacyModeState where
  | prvOnSucceeded | prvOnFailedDenied | prvOnFailed | prvNotSupported
  | prvOffSucceeded | prvOffFailed | prvOffByPeer | prvOffUnknown
  deriving DecidableEq

/-- The messages the connection writes to the peer. -/
inductive OutMsg where
  | hash
  | testDelay
  | loginError (error : String) (enableTrustedDevices : Bool)
  | peerInfo (portForwardMux : Bool)
  | permissionInfo (permission : Permission) (enabled : Bool)
  | chatMessage (text : String)
  | closeReason (reason : String)
  | privacyMode (state : PrivacyModeState) (implKey : String)
  | blockInputError (on : Bool)
  | displayChanged (display : Nat)
  | followCurrentDisplay (display : Nat)
  | isInited
  | cliprdr (payload : Bytes)
  | switchBack
  | voiceCallRequest (isConnect : Bool)
  | voiceCallResponse (accepted : Bool)
  | fileError (id : Int) (err : String) (fileNum : Int)
  | fileDir (id : Int) (path : String)
  | fileBlock (id fileNum : Int) (data : Bytes) (compressed : Bool)
  | fileDone (id fileNum : Int)
  | fileDigest (id fileNum : Int)
  | terminalResponse
  | messageBox (title : String)
  | elevationResponse (err : String)
  | printerRequest
  | service (payload : Bytes)
  deriving DecidableEq

/-- File-system requests to the connection manager. -/
inductive FS where
  | readEmptyDirs (dir : String) (includeHidden : Bool)
  | readDir (dir : String) (includeHidden : Bool)
  | readAllFiles (path : String) (id : Int) (includeHidden : Bool)
  | readFile (path : String) (id fileNum : Int) (includeHidden : Bool)
  | newWrite (path : String) (id fileNum : Int) (files : List (String × Nat)) (totalSize : Nat)
  | removeDir (path : String) (id : Int) (recursive : Bool)
  | removeFile (path : String) (id fileNum : Int)
  | createDir (path : String) (id : Int)
  | cancelWrite (id : Int)
  | cancelRead (id : Int)
  | sendConfirmForRead (id fileNum : Int) (skip : Bool) (offsetBlk : Nat)
  | sendConfirm (r : FileTransferSendConfirmRequest)
  | rename (id : Int) (path newName : String)
  | writeBlock (id fileNum : Int) (data : Bytes) (compressed : Bool)
  | writeDone (id fileNum : Int)
  | checkDigest (id fileNum : Int) (fileSize lastModified : Nat) (isResume : Bool)
  | writeError (id fileNum : Int) (err : String)
  deriving DecidableEq

/-- What `try_start_cm` tells the connection manager about a login. -/
structure CmLogin where
  isFileTransfer : Bool
  isViewCamera : Bool
  isTerminal : Bool
  portForward : String
  peerId : Str
  name : String
  authorized : Bool
  fromSwitch : Bool
  deriving DecidableEq

/-- What the connection sends to the connection manager. -/
inductive CmData where
  | login (l : CmLogin)
  | chatMessage (text : String)
  | clipboardFile (payload : Bytes)
  | clipboardFileEnabled (enabled : Bool)
  | fs (data : FS)
  | fileTransferLog (kind : String)
  | switchPermission (name : String) (enabled : Bool)
  | voiceCallIncoming
  | startVoiceCall
  | closeVoiceCall
  | close
  | disconnected
  deriving DecidableEq

/-- The user a terminal runs as: the one of this process, or the one of a logon token. -/
inductive TerminalUserToken where
  | selfUser
  | currentLogonUser (token : Nat)
  deriving DecidableEq

/-- The effects of a step outside the connection. -/
inductive Effect where
  | send (m : OutMsg)
  | sendRaw (bytes : Bytes)
  | innerSend (m : OutMsg)
  | input (i : MessageInput)
  | mainServicePointer (me : PointerDeviceEvent)
  | mainServiceMouse (me : MouseEvent)
  | mainServiceKey (ke : KeyEvent)
  | updateClipboard (cbs : List Clipboard)
  | serveCliprdr (payload : Bytes)
  | emptyClipboardFiles
  | turnOnPrivacy (implKey : String)
  | turnOffPrivacy (implKey : String)
  | changeResolution (display : Nat) (width height : Int)
  | plugInMonitor (display : Int)
  | plugOutMonitor (display : Int)
  | reboot
  | startPortableService (r : ElevationRequest)
  | switchSides (uuid : Bytes)
  | connectToUserSession (sid : Nat)
  | toCm (d : CmData)
  | readJob (id : Int) (path : String)
  | confirmJob (r : FileTransferSendConfirmRequest)
  | removeJob (id : Int)
  | handleTerminalAction (serviceId : String) (persistent : Bool) (token : TerminalUserToken)
      (action : Bytes)
  | newTerminalService (serviceId : String) (persistent : Bool) (token : TerminalUserToken)
  | setTerminalPersistent (serviceId : String) (persistent : Bool)
  | handlePortForward (ch : PortForwardChannel) (permitted : Bool)
  | updateOptions (o : OptionMessage)
  | userImageQuality (q : Int)
  | userCustomFps (fps : Int)
  | userAutoAdjustFps (fps : Nat)
  | userRecord (status : Bool)
  | encoderUpdate (d : Option SupportedDecoding)
  | refreshVideo (display : Option Nat)
  | takeScreenshot (source : VideoSource) (display : Nat)
  | videoFrameFetched
  | audioFormat
  | audioFrame
  | setVoiceCallInputDevice
  | whiteboard (register : Bool)
  | startCmIpc
  | updateSession (password : Option String) (tfa : Option Bool)
  | setSession2fa
  | updateFailure (i : Nat) (remove : Bool)
  | updateOsFailure (remove : Bool)
  | checkUpdateTemporaryPassword (success : Bool)
  | clearIdWhitelistFailures
  | addTrustedDevice (hwid : Bytes)
  | removeSwitchSidesUuid (peerId : String)
  | lockScreen
  deriving DecidableEq

/-! ### The connection -/

inductive AuthConnType where
  | remote | fileTransfer | portForward | viewCamera | terminal
  deriving DecidableEq

/-- The fields a login decides. -/
structure Auth where
  authorized : Bool := false
  require2fa : Bool := false
  awaiting2fa : Bool := false
  fromSwitch : Bool := false
  lr : LoginRequest := {}
  loginScope : Option Bytes := none
  fileTransfer : Option (String × Bool) := none
  viewCamera : Bool := false
  terminal : Bool := false
  portForwardAddress : String := ""
  terminalServiceId : String := ""
  terminalUserToken : Option TerminalUserToken := none
  authedConnId : Option AuthConnType := none

/-- The permissions, as the connection manager switches them. -/
structure Perm where
  keyboard : Bool
  clipboard : Bool
  audio : Bool
  file : Bool
  restart : Bool
  recording : Bool
  blockInput : Bool
  privacyMode : Bool

/-- The options the peer sets. -/
structure PeerOpts where
  lockAfterSessionEnd : Bool := false
  showRemoteCursor : Bool := false
  followRemoteCursor : Bool := false
  followRemoteWindow : Bool := false
  disableKeyboard : Bool := false
  disableClipboard : Bool := false
  disableAudio : Bool := false
  enableFileTransfer : Bool := false
  showMyCursor : Bool := false

/-- The bookkeeping of the handlers. -/
structure Book where
  videoSubs : List (VideoSource × Nat) := []
  optionsInLogin : Option OptionMessage := none
  terminalPersistent : Bool := false
  terminalGenericService : Bool := false
  displayIdx : Nat := 0
  multiUiSession : Bool := false
  videoAckRequired : Bool := false
  voiceCallRequest : Bool := false
  voiceCalling : Bool := false
  audioSender : Bool := false
  chatUnanswered : Bool := false
  fileTransferred : Bool := false
  delayedReadDir : Option (String × Bool) := none
  readJobs : List Int := []
  cmReadJobIds : List Int := []
  printerData : List String := []
  scopeViolationMessages : List String := []
  pressedModifiers : List Nat := []
  autoDisconnect : Bool := false
  startCmIpcPara : Bool := true

/-- The state of a `Connection`.  Its fields are those of the source, in groups. -/
structure Conn where
  id : Int
  salt : String
  challenge : String
  auth : Auth
  perm : Perm
  opts : PeerOpts := {}
  subs : Service → Bool := fun _ => false
  servicesSubed : Bool := false
  portForwardSocket : Bool := false
  portForwardMux : Option String := none
  lastTestDelay : Bool := false
  closed : Bool := false
  book : Book := {}
  out : List Effect := []

namespace Conn

def withAuth (c : Conn) (f : Auth → Auth) : Conn := { c with auth := f c.auth }

def withPerm (c : Conn) (f : Perm → Perm) : Conn := { c with perm := f c.perm }

def withOpts (c : Conn) (f : PeerOpts → PeerOpts) : Conn := { c with opts := f c.opts }

def withBook (c : Conn) (f : Book → Book) : Conn := { c with book := f c.book }

/-- Record an effect. -/
def emit (c : Conn) (x : Effect) : Conn := { c with out := c.out ++ [x] }

/-- `Connection::send`: write a message to the peer. -/
def send (c : Conn) (m : OutMsg) : Conn := c.emit (.send m)

/-- `Connection::send_to_cm`. -/
def sendToCm (c : Conn) (d : CmData) : Conn := c.emit (.toCm d)

/-- `Connection::send_fs`. -/
def sendFs (c : Conn) (d : FS) : Conn := c.sendToCm (.fs d)

/-- `client::REQUIRE_2FA`. -/
def require2faError : String := "2FA Required"

/-- `Connection::send_login_error`. -/
def sendLoginError (e : Env) (c : Conn) (err : String) : Conn :=
  c.send (.loginError err (if err = require2faError then e.enableTrustedDevices else false))

/-- `Connection::send_permission`. -/
def sendPermission (c : Conn) (p : Permission) (enabled : Bool) : Conn :=
  c.send (.permissionInfo p enabled)

/-! ### Predicates on the state -/

def isPortForward (c : Conn) : Bool := c.portForwardSocket || c.portForwardMux.isSome

def isRemote (c : Conn) : Bool :=
  c.auth.fileTransfer.isNone && !c.isPortForward && !c.auth.viewCamera && !c.auth.terminal

def peerKeyboardEnabled (c : Conn) : Bool := c.perm.keyboard && !c.opts.disableKeyboard

def clipboardEnabled (c : Conn) : Bool := c.perm.clipboard && !c.opts.disableClipboard

def canSubClipboardService (e : Env) (c : Conn) : Bool :=
  c.clipboardEnabled && c.peerKeyboardEnabled && !e.oneWayClipboard

def audioEnabled (c : Conn) : Bool := c.perm.audio && !c.opts.disableAudio

def fileTransferEnabled (c : Conn) : Bool := c.perm.file && c.opts.enableFileTransfer

def canSubFileClipboardService (e : Env) (c : Conn) : Bool :=
  c.clipboardEnabled && c.fileTransferEnabled && !e.oneWayFileTransfer

def authedConnType (c : Conn) : Option AuthConnType := c.auth.authedConnId

def isAuthedRemoteConn (c : Conn) : Bool := c.authedConnType = some .remote

def isAuthedViewCameraConn (c : Conn) : Bool := c.authedConnType = some .viewCamera

def shouldHandleRenderBroadcastMessage (c : Conn) : Bool :=
  c.authedConnType = some .remote ∨ c.authedConnType = some .viewCamera

def shouldHandleTextClipboardMessage (c : Conn) : Bool := c.authedConnType = some .remote

def videoSource (c : Conn) : VideoSource := if c.auth.viewCamera then .camera else .monitor

end Conn

end VynxDesk
