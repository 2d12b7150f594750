import Mathlib.Algebra.Group.Nat.Defs
import Mathlib.Data.List.Basic

/-!
# Messages

The messages a controlling peer sends to a controlled connection, with the fields the
connection reads.  A field of an enumeration type holds either one of the enumeration's
values or a number outside it (`EnumOrUnknown`), and a message whose union is not set, or is
of a variant this build does not know, is a message too.
-/

namespace VynxDesk

/-- A byte string. -/
abbrev Bytes := List UInt8

/-- A string of the wire.  Its UTF-8 encoding fits in memory, so its length is below
`2 ^ 63`. -/
structure Str where
  val : String
  size_lt : val.utf8ByteSize < 2 ^ 63
  deriving DecidableEq

namespace Str

/-- The empty string. -/
def empty : Str := ⟨"", by decide⟩

instance : Inhabited Str := ⟨empty⟩

/-- The UTF-8 encoding. -/
def bytes (s : Str) : Bytes := s.val.toByteArray.data.toList

end Str

/-- A protobuf enumeration field: a value of the enumeration, or a number outside it. -/
inductive EnumOrUnknown (α : Type) where
  | known (a : α)
  | unknown (value : Int)
  deriving DecidableEq

/-- The value of the enumeration, when it is one. -/
def EnumOrUnknown.enumValue {α : Type} : EnumOrUnknown α → Option α
  | .known a => some a
  | .unknown _ => none

@[simp]
theorem EnumOrUnknown.enumValue_known {α : Type} (a : α) :
  (EnumOrUnknown.known a).enumValue = some a
  := rfl

inductive BoolOption where
  | notSet | no | yes
  deriving DecidableEq

inductive ImageQuality where
  | notSet | low | balanced | best
  deriving DecidableEq

/-- The protobuf number of an image quality. -/
def ImageQuality.value : ImageQuality → Int
  | .notSet => 0
  | .low => 2
  | .balanced => 3
  | .best => 4

inductive KeyboardMode where
  | legacy | map | translate | auto
  deriving DecidableEq

/-- `SupportedDecoding`, the codec abilities of the peer: no function of the connection looks
inside. -/
structure SupportedDecoding where
  payload : Bytes := []
  deriving DecidableEq

/-- `OptionMessage`, all of its fields. -/
structure OptionMessage where
  imageQuality : EnumOrUnknown ImageQuality := .known .notSet
  customImageQuality : Int := 0
  customFps : Int := 0
  supportedDecoding : Option SupportedDecoding := none
  lockAfterSessionEnd : EnumOrUnknown BoolOption := .known .notSet
  showRemoteCursor : EnumOrUnknown BoolOption := .known .notSet
  privacyMode : EnumOrUnknown BoolOption := .known .notSet
  blockInput : EnumOrUnknown BoolOption := .known .notSet
  disableAudio : EnumOrUnknown BoolOption := .known .notSet
  disableClipboard : EnumOrUnknown BoolOption := .known .notSet
  enableFileTransfer : EnumOrUnknown BoolOption := .known .notSet
  disableKeyboard : EnumOrUnknown BoolOption := .known .notSet
  followRemoteCursor : EnumOrUnknown BoolOption := .known .notSet
  followRemoteWindow : EnumOrUnknown BoolOption := .known .notSet
  disableCamera : EnumOrUnknown BoolOption := .known .notSet
  terminalPersistent : EnumOrUnknown BoolOption := .known .notSet
  showMyCursor : EnumOrUnknown BoolOption := .known .notSet
  deriving DecidableEq

/-! ### Login requests -/

structure FileTransfer where
  dir : Str
  showHidden : Bool
  deriving DecidableEq

structure Terminal where
  serviceId : Str
  deriving DecidableEq

structure PortForward where
  host : Str
  port : BitVec 32
  multiplex : Bool
  deriving DecidableEq

/-- `login_request::Union`.  `unknown` stands for a variant that this build does not know. -/
inductive LoginUnion where
  | fileTransfer (ft : FileTransfer)
  | viewCamera
  | terminal (t : Terminal)
  | portForward (pf : PortForward)
  | unknown
  deriving DecidableEq

structure OSLogin where
  username : String := ""
  password : String := ""
  deriving DecidableEq

structure LoginRequest where
  username : String := ""
  password : Bytes := []
  myId : Str := Str.empty
  myName : String := ""
  myPlatform : String := ""
  option : Option OptionMessage := none
  union : Option LoginUnion := none
  videoAckRequired : Bool := false
  sessionId : Nat := 0
  version : String := ""
  osLogin : OSLogin := {}
  hwid : Bytes := []
  deriving DecidableEq

instance : Inhabited LoginRequest := ⟨{}⟩

structure Auth2fa where
  code : String
  hwid : Bytes
  deriving DecidableEq

structure SwitchSidesResponse where
  uuid : Bytes
  lr : Option LoginRequest
  deriving DecidableEq

/-! ### Input and clipboard -/

structure MouseEvent where
  mask : Int
  x : Int
  y : Int
  deriving DecidableEq

/-- `PointerDeviceEvent`: the touch events the mobile builds tell apart, and the others. -/
inductive PointerDeviceEvent where
  | panStart (x y : Int)
  | panUpdate (x y : Int)
  | panEnd (x y : Int)
  | other (payload : Bytes)
  deriving DecidableEq

inductive KeyUnion where
  | chr (code : Nat)
  | unicode (code : Nat)
  | seq (text : String)
  | controlKey (key : EnumOrUnknown Nat)
  deriving DecidableEq

structure KeyEvent where
  down : Bool
  press : Bool
  mode : EnumOrUnknown KeyboardMode
  union : Option KeyUnion
  deriving DecidableEq

structure Clipboard where
  compress : Bool
  content : Bytes
  deriving DecidableEq

/-- `Cliprdr`: a list of files to audit, a message of the file clipboard that `msg_2_clip`
converts, or one that it does not. -/
inductive Cliprdr where
  | files (files : List (String × Int))
  | clip (payload : Bytes)
  | other
  deriving DecidableEq

/-! ### Files -/

inductive FileType where
  | generic | printer
  deriving DecidableEq

structure FileTransferSendConfirmRequest where
  id : Int
  fileNum : Int
  skip : Bool
  offsetBlk : Nat
  deriving DecidableEq

/-- `file_action::Union`. -/
inductive FileAction where
  | readEmptyDirs (path : String) (includeHidden : Bool)
  | readDir (path : String) (includeHidden : Bool)
  | allFiles (id : Int) (path : String) (includeHidden : Bool)
  | send (id : Int) (path : String) (fileNum : Int) (includeHidden : Bool)
      (fileType : EnumOrUnknown FileType)
  | receive (id : Int) (path : String) (fileNum : Int) (files : List (String × Nat))
      (totalSize : Nat)
  | removeDir (id : Int) (path : String) (recursive : Bool)
  | removeFile (id : Int) (path : String) (fileNum : Int)
  | create (id : Int) (path : String)
  | cancel (id : Int)
  | sendConfirm (r : FileTransferSendConfirmRequest)
  | rename (id : Int) (path newName : String)
  | other
  deriving DecidableEq

/-- `file_response::Union`. -/
inductive FileResponse where
  | block (id fileNum : Int) (data : Bytes) (compressed : Bool)
  | done (id fileNum : Int)
  | digest (id fileNum : Int) (fileSize lastModified : Nat) (isResume : Bool)
  | error (id fileNum : Int) (err : String)
  | other
  deriving DecidableEq

/-! ### Port-forward channels -/

/-- A channel identifier, an `i32` of the wire. -/
abbrev ChannelId := BitVec 32

/-- `port_forward_channel::Union`: the frames of a multiplexed tunnel. -/
inductive PortForwardChannel where
  | openCh (channelId : ChannelId) (host : Str) (port : BitVec 32) (window : Nat)
  | opened (channelId : ChannelId) (success : Bool) (message : String) (window : Nat)
  | data (channelId : ChannelId) (data : Bytes)
  | close (channelId : ChannelId)
  | windowUpdate (channelId : ChannelId) (add : Nat)
  | other
  deriving DecidableEq

/-! ### Misc messages and the message union -/

inductive ElevationRequest where
  | direct
  | logon (username password : String)
  | other
  deriving DecidableEq

/-- `misc::Union`.  `other` stands for the variants the connection does not handle. -/
inductive Misc where
  | closeReason (reason : String)
  | switchDisplay (display : Nat) (width height : Int)
  | captureDisplays (add sub set : List Nat)
  | toggleVirtualDisplay (display : Int) (on : Bool)
  | togglePrivacyMode (implKey : String) (on : Bool)
  | chatMessage (text : String)
  | option (o : OptionMessage)
  | refreshVideo (r : Bool)
  | refreshVideoDisplay (display : Nat)
  | videoReceived
  | restartRemoteDevice
  | elevationRequest (r : ElevationRequest)
  | audioFormat
  | switchSidesRequest (uuid : Bytes)
  | changeResolution (width height : Int)
  | changeDisplayResolution (display : Nat) (width height : Int)
  | autoAdjustFps (fps : Nat)
  | clientRecordStatus (status : Bool)
  | selectedSid (sid : Nat)
  | messageQuery (display : Nat)
  | followCurrentDisplay (display : Int)
  | other
  deriving DecidableEq

/-- `message::Union`.  `other` stands for the variants the connection does not handle. -/
inductive Union where
  | loginRequest (lr : LoginRequest)
  | auth2fa (tfa : Auth2fa)
  | testDelay (fromClient : Bool)
  | switchSidesResponse (s : SwitchSidesResponse)
  | mouseEvent (me : MouseEvent)
  | pointerDeviceEvent (pde : PointerDeviceEvent)
  | keyEvent (ke : KeyEvent)
  | clipboard (cb : Clipboard)
  | multiClipboards (cbs : List Clipboard)
  | cliprdr (clip : Cliprdr)
  | fileAction (fa : Option FileAction)
  | fileResponse (fr : Option FileResponse)
  | misc (m : Option Misc)
  | audioFrame
  | voiceCallRequest (isConnect : Bool)
  | voiceCallResponse
  | screenshotRequest (display : Nat) (sid : String)
  | screenshotResponse
  | portForwardChannel (ch : PortForwardChannel)
  | terminalAction (action : Bytes)
  | terminalResponse
  | other
  deriving DecidableEq

/-- A message: its union, when set. -/
abbrev Message := Option Union

end VynxDesk
