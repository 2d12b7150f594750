import VynxDesk.Connection.State

/-!
# Session scopes

Which messages and options a connection authorized for a given kind of session may use:
`authorized_message_scope_violation` names the family of a message outside the scope, and the
`scoped_*_option` functions keep the options inside it.
-/

namespace VynxDesk

/-! ### Options -/

/-- `Connection::is_bool_option_not_set`. -/
def isBoolOptionNotSet (option : EnumOrUnknown BoolOption) : Bool :=
  option.enumValue = some .notSet

namespace OptionMessage

/-- `Connection::option_has_non_terminal_login_field`. -/
def hasNonTerminalLoginField (o : OptionMessage) : Bool :=
  o.imageQuality.enumValue ≠ some .notSet
    || o.customImageQuality ≠ 0
    || o.customFps ≠ 0
    || o.supportedDecoding.isSome
    || !isBoolOptionNotSet o.lockAfterSessionEnd
    || !isBoolOptionNotSet o.showRemoteCursor
    || !isBoolOptionNotSet o.privacyMode
    || !isBoolOptionNotSet o.blockInput
    || !isBoolOptionNotSet o.disableAudio
    || !isBoolOptionNotSet o.disableClipboard
    || !isBoolOptionNotSet o.enableFileTransfer
    || !isBoolOptionNotSet o.disableKeyboard
    || !isBoolOptionNotSet o.followRemoteCursor
    || !isBoolOptionNotSet o.followRemoteWindow
    || !isBoolOptionNotSet o.disableCamera
    || !isBoolOptionNotSet o.showMyCursor

/-- `Connection::option_has_any_field`. -/
def hasAnyField (o : OptionMessage) : Bool :=
  o.hasNonTerminalLoginField || !isBoolOptionNotSet o.terminalPersistent

/-- `Connection::option_has_non_view_camera_login_field`. -/
def hasNonViewCameraLoginField (o : OptionMessage) : Bool :=
  !(isBoolOptionNotSet o.lockAfterSessionEnd
    && isBoolOptionNotSet o.showRemoteCursor
    && isBoolOptionNotSet o.privacyMode
    && isBoolOptionNotSet o.blockInput
    && isBoolOptionNotSet o.disableClipboard
    && isBoolOptionNotSet o.enableFileTransfer
    && isBoolOptionNotSet o.disableKeyboard
    && isBoolOptionNotSet o.followRemoteCursor
    && isBoolOptionNotSet o.followRemoteWindow
    && isBoolOptionNotSet o.disableCamera
    && isBoolOptionNotSet o.terminalPersistent
    && isBoolOptionNotSet o.showMyCursor)

/-- `Connection::is_supported_decoding_only_option`. -/
def isSupportedDecodingOnly (o : OptionMessage) : Bool :=
  o.supportedDecoding.isSome
    && o.imageQuality.enumValue = some .notSet
    && o.customImageQuality = 0
    && o.customFps = 0
    && isBoolOptionNotSet o.lockAfterSessionEnd
    && isBoolOptionNotSet o.showRemoteCursor
    && isBoolOptionNotSet o.privacyMode
    && isBoolOptionNotSet o.blockInput
    && isBoolOptionNotSet o.disableAudio
    && isBoolOptionNotSet o.disableClipboard
    && isBoolOptionNotSet o.enableFileTransfer
    && isBoolOptionNotSet o.disableKeyboard
    && isBoolOptionNotSet o.followRemoteCursor
    && isBoolOptionNotSet o.followRemoteWindow
    && isBoolOptionNotSet o.disableCamera
    && isBoolOptionNotSet o.terminalPersistent
    && isBoolOptionNotSet o.showMyCursor

/-- The options `scoped_terminal_login_option` keeps. -/
def terminalPart (o : OptionMessage) : OptionMessage :=
  match o.terminalPersistent.enumValue with
  | some value => { terminalPersistent := .known value }
  | none => {}

/-- `Connection::scoped_terminal_login_option`. -/
def scopedTerminalLogin (o : OptionMessage) : Option OptionMessage × Option String :=
  let violation := o.terminalPersistent.enumValue.isNone || o.hasNonTerminalLoginField
  (if o.terminalPart.hasAnyField then some o.terminalPart else none,
    if violation then some "login.option" else none)

/-- The options `scoped_view_camera_option` keeps. -/
def viewCameraPart (o : OptionMessage) : OptionMessage where
  imageQuality := if o.imageQuality.enumValue.isSome then o.imageQuality else .known .notSet
  customImageQuality := if o.customImageQuality ≥ 0 then o.customImageQuality else 0
  customFps := if o.customFps ≥ 0 then o.customFps else 0
  supportedDecoding := o.supportedDecoding
  disableAudio :=
    match o.disableAudio.enumValue with
    | some value => .known value
    | none => .known .notSet

/-- `Connection::scoped_view_camera_option`. -/
def scopedViewCamera (o : OptionMessage) : Option OptionMessage × Option String :=
  (if o.viewCameraPart.hasAnyField then some o.viewCameraPart else none,
    if o.hasNonViewCameraLoginField then some "login.option" else none)

/-- `Connection::scoped_login_option`. -/
def scopedLogin (connType : AuthConnType) (o : OptionMessage) :
    Option OptionMessage × Option String :=
  match connType with
  | .remote => (some o, none)
  | .viewCamera => o.scopedViewCamera
  | .terminal => o.scopedTerminalLogin
  | .fileTransfer | .portForward => (none, if o.hasAnyField then some "login.option" else none)

end OptionMessage

/-- `Connection::scoped_update_option_message`. -/
def Conn.scopedUpdateOptionMessage (c : Conn) (o : OptionMessage) : Option OptionMessage :=
  match c.authedConnType with
  | some .viewCamera => o.scopedViewCamera.1
  | some .terminal => o.scopedTerminalLogin.1
  | some .remote | some .fileTransfer | some .portForward | none => none

/-! ### Messages -/

/-- `Connection::misc_message_family`. -/
def miscMessageFamily : Option Misc → String
  | some (.chatMessage _) => "misc.chat_message"
  | some (.switchDisplay ..) => "misc.switch_display"
  | some (.option _) => "misc.option"
  | some .audioFormat => "misc.audio_format"
  | some (.captureDisplays ..) => "misc.capture_displays"
  | some (.clientRecordStatus _) => "misc.client_record_status"
  | some (.togglePrivacyMode ..) => "misc.toggle_privacy_mode"
  | some (.toggleVirtualDisplay ..) => "misc.toggle_virtual_display"
  | some (.selectedSid _) => "misc.selected_sid"
  | some (.changeResolution ..) => "misc.change_resolution"
  | some (.changeDisplayResolution ..) => "misc.change_display_resolution"
  | some (.messageQuery _) => "misc.message_query"
  | some (.followCurrentDisplay _) => "misc.follow_current_display"
  | some (.switchSidesRequest _) => "misc.switch_sides_request"
  | some _ => "misc.other"
  | none => "misc.empty"

/-- `Connection::message_family`. -/
def messageFamily : Message → String
  | some (.mouseEvent _) => "mouse_event"
  | some .audioFrame => "audio_frame"
  | some (.pointerDeviceEvent _) => "pointer_device_event"
  | some (.keyEvent _) => "key_event"
  | some (.clipboard _) => "clipboard"
  | some (.fileAction _) => "file_action"
  | some (.fileResponse _) => "file_response"
  | some (.voiceCallRequest _) => "voice_call_request"
  | some .voiceCallResponse => "voice_call_response"
  | some (.multiClipboards _) => "multi_clipboards"
  | some (.screenshotRequest ..) => "screenshot_request"
  | some .screenshotResponse => "screenshot_response"
  | some (.terminalAction _) => "terminal_action"
  | some .terminalResponse => "terminal_response"
  | some (.portForwardChannel _) => "port_forward_channel"
  | some (.misc m) => miscMessageFamily m
  | some _ => "message.other"
  | none => "empty"

/-- `Connection::is_connection_housekeeping_message`. -/
def isConnectionHousekeepingMessage : Message → Bool
  | some (.loginRequest _) => true
  | some (.testDelay _) => true
  | some (.misc (some (.closeReason _))) => true
  | _ => false

/-- `Connection::is_render_broadcast_noop_compat_message`. -/
def isRenderBroadcastNoopCompatMessage : Message → Bool
  | some (.misc (some (.refreshVideo _))) => true
  | some (.misc (some (.refreshVideoDisplay _))) => true
  | some (.misc (some (.option o))) => o.isSupportedDecodingOnly
  | _ => false

/-- `Connection::is_text_clipboard_noop_compat_message`. -/
def isTextClipboardNoopCompatMessage : Message → Bool
  | some (.clipboard _) => true
  | some (.multiClipboards _) => true
  | _ => false

/-- `Connection::is_file_transfer_scoped_misc`. -/
def isFileTransferScopedMisc (h : Host) : Option Misc → Bool
  | some (.selectedSid _) => h.os = .windows
  | _ => false

/-- `Connection::is_file_transfer_scoped_message`. -/
def isFileTransferScopedMessage (h : Host) : Message → Bool
  | some (.fileAction _) => true
  | some (.fileResponse _) => true
  | some (.misc m) => isFileTransferScopedMisc h m
  | _ => false

/-- `Connection::is_port_forward_scoped_message`. -/
def isPortForwardScopedMessage : Message → Bool
  | some (.portForwardChannel _) => true
  | _ => false

/-- `Connection::is_terminal_scoped_misc`. -/
def isTerminalScopedMisc : Option Misc → Bool
  | some (.chatMessage _) => true
  | some (.option o) => o.scopedTerminalLogin.2.isNone
  | _ => false

/-- `Connection::is_terminal_scoped_message`. -/
def isTerminalScopedMessage : Message → Bool
  | some (.terminalAction _) => true
  | some (.misc m) => isTerminalScopedMisc m
  | _ => false

/-- `Connection::is_view_camera_scoped_misc`. -/
def isViewCameraScopedMisc (h : Host) : Option Misc → Bool
  | some (.switchDisplay ..)
  | some (.captureDisplays ..)
  | some (.refreshVideo _)
  | some (.refreshVideoDisplay _)
  | some .videoReceived
  | some (.chatMessage _)
  | some .audioFormat
  | some (.clientRecordStatus _)
  | some (.messageQuery _)
  | some (.togglePrivacyMode ..)
  | some (.toggleVirtualDisplay ..)
  | some (.changeResolution ..)
  | some (.changeDisplayResolution ..) => true
  | some (.option o) => o.scopedViewCamera.2.isNone
  | some (.selectedSid _) => h.os = .windows
  | _ => false

/-- `Connection::is_view_camera_scoped_message`.  Input events pass because old clients send
them on login; the handlers ignore them. -/
def isViewCameraScopedMessage (h : Host) : Message → Bool
  | some (.screenshotRequest ..) => true
  | some (.misc m) => isViewCameraScopedMisc h m
  | some (.mouseEvent _)
  | some (.pointerDeviceEvent _)
  | some (.keyEvent _) => true
  | some .audioFrame
  | some (.voiceCallRequest _)
  | some .voiceCallResponse => true
  | _ => false

/-- The messages that are outside the scope of a session but that old clients broadcast to all
sessions; the handlers ignore them. -/
def noopCompat (connType : AuthConnType) (msg : Message) : Bool :=
  match connType with
  | .fileTransfer | .terminal =>
      isRenderBroadcastNoopCompatMessage msg || isTextClipboardNoopCompatMessage msg
  | .portForward => isRenderBroadcastNoopCompatMessage msg
  | .viewCamera => isTextClipboardNoopCompatMessage msg
  | .remote => false

/-- The messages of a session of the given kind. -/
def isScopedMessage (h : Host) (connType : AuthConnType) (msg : Message) : Bool :=
  match connType with
  | .remote => true
  | .fileTransfer => isFileTransferScopedMessage h msg
  | .portForward => isPortForwardScopedMessage msg
  | .viewCamera => isViewCameraScopedMessage h msg
  | .terminal => isTerminalScopedMessage msg

/-- `Connection::authorized_message_scope_violation`. -/
def authorizedMessageScopeViolation (h : Host) (connType : AuthConnType) (msg : Message) :
    Option String :=
  if isConnectionHousekeepingMessage msg then none
  else if noopCompat connType msg then none
  else if isScopedMessage h connType msg then none
  else some (messageFamily msg)

/-- `Connection::authorized_scope_violation`. -/
def Conn.authorizedScopeViolation (h : Host) (c : Conn) (msg : Message) : Option String :=
  match c.authedConnType with
  | none => if isConnectionHousekeepingMessage msg then none else some "session.auth_type"
  | some connType => authorizedMessageScopeViolation h connType msg

/-- A message within the scope of a session is a housekeeping message, one of the compatible
no-ops, or a message of that session. -/
theorem authorizedMessageScopeViolation_eq_none
    {h : Host} {connType : AuthConnType} {msg : Message}
    (hnone : authorizedMessageScopeViolation h connType msg = none) :
  isConnectionHousekeepingMessage msg = true ∨ noopCompat connType msg = true
    ∨ isScopedMessage h connType msg = true
  := by
  rw [authorizedMessageScopeViolation] at hnone
  split at hnone
  · left
    assumption
  · split at hnone
    · right; left
      assumption
    · split at hnone
      · right; right
        assumption
      · cases hnone

end VynxDesk
