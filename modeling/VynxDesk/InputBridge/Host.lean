import VynxDesk.InputBridge.Protocol
import VynxDesk.Lib.Flags
import Mathlib.Logic.Function.Basic

/-!
# The host side of the input bridge

`BridgeState` of `libs/enigo/src/win/bridge.rs`, with its calls.  A `Device` is an open HID handle,
as the reports that were written to it.  What the system answers to a call is a `Usb`: the time,
whether a probe finds and opens a compatible device, and what a write returns.  Times are in
milliseconds.  The warning about missing ids is left out.
-/

namespace VynxDesk.InputBridge

/-- `FRAME_SIZE`: the report id and a frame. -/
def hostFrameSize : ℕ := frameSize + 1

/-- `PROBE_INTERVAL`. -/
def probeInterval : Int := 1000

/-- `HEARTBEAT_INTERVAL`. -/
def heartbeatInterval : Int := 200

/-- `KeyboardState`. -/
structure KeyboardState where
  modifiers : UInt8
  usages : Fin 16 → UInt8
  deriving DecidableEq

/-- `KeyboardState::default()`. -/
def KeyboardState.default : KeyboardState := ⟨0, fun _ => 0⟩

/-- A byte has eight flags. -/
instance neZeroEight : NeZero 8 := ⟨Nat.succ_ne_zero 7⟩

/-- A flag of a byte set or cleared. -/
def setFlag (byte : UInt8) (i : Fin 8) (down : Bool) : UInt8 :=
  if down then byte ||| Flags.mask i else byte &&& ~~~Flags.mask i

/-- `keyboard_contains`. -/
def keyboardContains (state : KeyboardState) (usage : UInt8) : Bool :=
  if 0xE0 ≤ usage.toNat ∧ usage.toNat ≤ 0xE7 then
    Flags.has state.modifiers (Fin.ofNat 8 (usage.toNat - 0xE0))
  else if usage.toNat < 0x80 then
    Flags.has (state.usages (Fin.ofNat 16 (usage.toNat / 8))) (Fin.ofNat 8 (usage.toNat % 8))
  else false

/-- `set_keyboard_usage`: the state it leaves when it returns `true`; otherwise it leaves the state
alone. -/
def setKeyboardUsage (state : KeyboardState) (usage : UInt8) (down : Bool) :
    Option KeyboardState :=
  if 0xE0 ≤ usage.toNat ∧ usage.toNat ≤ 0xE7 then
    some { state with
      modifiers := setFlag state.modifiers (Fin.ofNat 8 (usage.toNat - 0xE0)) down }
  else if usage.toNat < 0x80 then
    let byte := Fin.ofNat 16 (usage.toNat / 8)
    some { state with
      usages := Function.update state.usages byte
        (setFlag (state.usages byte) (Fin.ofNat 8 (usage.toNat % 8)) down) }
  else none

/-- The two bytes of a word, little-endian. -/
def bytesOfWord (word : UInt16) : List UInt8 := [word.toUInt8, (word >>> 8).toUInt8]

/-- `encode_frame`. -/
def encodeFrame (command : UInt8) (sequence : UInt16) (payload : List UInt8) : List UInt8 :=
  let body := [0x56, 0x58, protocolVersion, command] ++ bytesOfWord sequence ++
    [UInt8.ofNat payload.length, 0] ++ payload ++ List.replicate (payloadSize - payload.length) 0
  [reportIdVendor] ++ body ++ bytesOfWord (crc16Ccitt body) ++ [0, 0]

/-- An open HID handle: the reports written to it, the oldest first. -/
structure Device where
  written : List (List UInt8)
  deriving DecidableEq

/-- `BridgeState`. -/
structure BridgeState where
  device : Option Device
  ids : Option (UInt16 × UInt16)
  sequence : UInt16
  lastProbe : Int
  lastWrite : Int
  keyboard : KeyboardState
  softwareKeyboard : KeyboardState
  mouseButtons : UInt8
  softwareMouseButtons : UInt8
  activeSessions : ℕ
  deriving DecidableEq

/-- `BridgeState::new`. -/
def BridgeState.new (ids : Option (UInt16 × UInt16)) (now : Int) : BridgeState :=
  ⟨none, ids, 0, now - probeInterval, now, .default, .default, 0, 0, 0⟩

/-- What the system answers to a call. -/
structure Usb where
  now : Int
  found : Bool
  written : Option ℕ
  deriving DecidableEq

/-- `MOUSEEVENTF_MOVE`. -/
def moveFlag : UInt32 := 0x0001

/-- `MOUSEEVENTF_LEFTDOWN`. -/
def leftDown : UInt32 := 0x0002

/-- `MOUSEEVENTF_LEFTUP`. -/
def leftUp : UInt32 := 0x0004

/-- `MOUSEEVENTF_RIGHTDOWN`. -/
def rightDown : UInt32 := 0x0008

/-- `MOUSEEVENTF_RIGHTUP`. -/
def rightUp : UInt32 := 0x0010

/-- `MOUSEEVENTF_MIDDLEDOWN`. -/
def middleDown : UInt32 := 0x0020

/-- `MOUSEEVENTF_MIDDLEUP`. -/
def middleUp : UInt32 := 0x0040

/-- `MOUSEEVENTF_XDOWN`. -/
def xDown : UInt32 := 0x0080

/-- `MOUSEEVENTF_XUP`. -/
def xUp : UInt32 := 0x0100

/-- `MOUSEEVENTF_WHEEL`. -/
def wheelFlag : UInt32 := 0x0800

/-- `MOUSEEVENTF_HWHEEL`. -/
def hwheelFlag : UInt32 := 0x1000

/-- `MOUSEEVENTF_VIRTUALDESK`. -/
def virtualDeskFlag : UInt32 := 0x4000

/-- `MOUSEEVENTF_ABSOLUTE`. -/
def absoluteFlag : UInt32 := 0x8000

/-- `XBUTTON1`. -/
def xButton1 : UInt32 := 1

/-- `XBUTTON2`. -/
def xButton2 : UInt32 := 2

/-- Whether `flags` has one of the bits of `bits`. -/
def hasAny (flags bits : UInt32) : Bool := flags &&& bits ≠ 0

/-- The index of the button that `xbutton_mask` is the mask of. -/
def xButtonIndex (data : UInt32) : Fin 8 := if data = xButton1 then 3 else 4

/-- `mouse_button_mask`. -/
def mouseButtonMask (flags data : UInt32) : UInt8 :=
  if hasAny flags (leftDown ||| leftUp) then Flags.mask 0
  else if hasAny flags (rightDown ||| rightUp) then Flags.mask 1
  else if hasAny flags (middleDown ||| middleUp) then Flags.mask 2
  else if hasAny flags (xDown ||| xUp) then Flags.mask (xButtonIndex data)
  else 0

/-- One turn of `update_mouse_buttons`: a button's down flag, then its up flag. -/
def updateButton (flags down up : UInt32) (i : Fin 8) (buttons : UInt8) : UInt8 :=
  let buttons := if hasAny flags down then buttons ||| Flags.mask i else buttons
  if hasAny flags up then buttons &&& ~~~Flags.mask i else buttons

/-- `update_mouse_buttons`. -/
def updateMouseButtons (flags data : UInt32) (buttons : UInt8) : UInt8 :=
  updateButton flags xDown xUp (xButtonIndex data)
    (updateButton flags middleDown middleUp 2
      (updateButton flags rightDown rightUp 1
        (updateButton flags leftDown leftUp 0 buttons)))

/-- The flags that `send_mouse` supports. -/
def supportedFlags : UInt32 :=
  moveFlag ||| leftDown ||| leftUp ||| rightDown ||| rightUp ||| middleDown ||| middleUp |||
    xDown ||| xUp ||| wheelFlag ||| hwheelFlag

/-- The value of a word read as a signed one. -/
def signed (data : UInt32) : Int := if data.toNat < 2 ^ 31 then data.toNat else data.toNat - 2 ^ 32

/-- `wheel_delta`, as the byte it is sent as; `abs` wraps at the least value. -/
def wheelDelta (data : UInt32) : UInt8 :=
  let value := signed data
  let abs := if value = - 2 ^ 31 then value else |value|
  let detents := if 120 ≤ abs then value.tdiv 120 else value.sign
  UInt8.ofNat ((max (-128) (min detents 127)) % 256).toNat

/-- A coordinate clamped to 16 bits, as the word it is sent as. -/
def clampWord (d : Int) : UInt16 := UInt16.ofNat ((max (-32768) (min d 32767)) % 65536).toNat

namespace BridgeState

variable (s : BridgeState)

/-- `disconnect`. -/
def disconnect (usb : Usb) : BridgeState := { s with device := none, lastProbe := usb.now }

/-- `ensure_connected`. -/
def ensureConnected (usb : Usb) : BridgeState × Bool :=
  if s.device.isSome then (s, true)
  else if s.ids.isNone then (s, false)
  else if usb.now - s.lastProbe < probeInterval then (s, false)
  else if usb.found then
    ({ s with
      lastProbe := usb.now
      device := some ⟨[]⟩
      keyboard := .default
      mouseButtons := 0 }, true)
  else ({ s with lastProbe := usb.now }, false)

/-- `send`. -/
def send (usb : Usb) (command : UInt8) (payload : List UInt8) : BridgeState × Bool :=
  if payload.length > payloadSize then (s, false)
  else
    match s.ensureConnected usb with
    | (s, false) => (s, false)
    | (s, true) =>
        let s := { s with sequence := s.sequence + 1 }
        let frame := encodeFrame command s.sequence payload
        match s.device with
        | none => (s, false)
        | some device =>
            if usb.written = some frame.length then
              ({ s with device := some ⟨device.written ++ [frame]⟩, lastWrite := usb.now }, true)
            else (s.disconnect usb, false)

/-- The payload of a keyboard state. -/
def keyboardPayload (keyboard : KeyboardState) : List UInt8 :=
  keyboard.modifiers :: List.ofFn keyboard.usages

/-- `send_keyboard_usage`. -/
def sendKeyboardUsage (usb : Usb) (usage : UInt8) (down : Bool) : BridgeState × Bool :=
  if !down && keyboardContains s.softwareKeyboard usage then
    ({ s with
      softwareKeyboard :=
        (setKeyboardUsage s.softwareKeyboard usage false).getD s.softwareKeyboard }, false)
  else
    match setKeyboardUsage s.keyboard usage down with
    | none => (s, false)
    | some keyboard =>
        match send { s with keyboard } usb commandKeyboardState (keyboardPayload keyboard) with
        | (s', true) => (s', true)
        | (s', false) =>
            ({ s' with
              keyboard := s.keyboard
              softwareKeyboard :=
                if down then
                  (setKeyboardUsage s'.softwareKeyboard usage true).getD s'.softwareKeyboard
                else s'.softwareKeyboard }, false)

/-- `send_mouse`. -/
def sendMouse (usb : Usb) (flags data : UInt32) (dx dy : Int) : BridgeState × Bool :=
  if hasAny flags absoluteFlag then (s, false)
  else
    let changed := mouseButtonMask flags data
    if hasAny flags (leftUp ||| rightUp ||| middleUp ||| xUp) &&
        s.softwareMouseButtons &&& changed ≠ 0 then
      ({ s with softwareMouseButtons := s.softwareMouseButtons &&& ~~~changed }, false)
    else
      let buttons := updateMouseButtons flags data s.mouseButtons
      if !hasAny flags supportedFlags then (s, false)
      else
        let wheel := if hasAny flags wheelFlag then wheelDelta data else 0
        let pan := if hasAny flags hwheelFlag then wheelDelta data else 0
        let payload := [buttons] ++ bytesOfWord (clampWord dx) ++ bytesOfWord (clampWord dy) ++
          [wheel, pan]
        match send { s with mouseButtons := buttons } usb commandRelativeMouse payload with
        | (s', true) => (s', true)
        | (s', false) =>
            ({ s' with
              mouseButtons := s.mouseButtons
              softwareMouseButtons :=
                if hasAny flags (leftDown ||| rightDown ||| middleDown ||| xDown) then
                  s'.softwareMouseButtons ||| changed
                else s'.softwareMouseButtons }, false)

/-- `send_absolute_mouse`. -/
def sendAbsoluteMouse (usb : Usb) (x y : UInt16) : BridgeState × Bool :=
  s.send usb commandAbsoluteMouse
    ([s.mouseButtons] ++ bytesOfWord x ++ bytesOfWord y ++ [0, 0])

/-- `BridgeState::release_all`. -/
def releaseAll (usb : Usb) : BridgeState × Bool :=
  match s.send usb commandReleaseAll [] with
  | (s', true) => ({ s' with keyboard := .default, mouseButtons := 0 }, true)
  | (s', false) => (s', false)

/-- One turn of the heartbeat thread. -/
def heartbeat (usb : Usb) : BridgeState × Bool :=
  if s.device.isSome ∧ 0 < s.activeSessions ∧ heartbeatInterval ≤ usb.now - s.lastWrite then
    s.send usb commandHeartbeat []
  else (s, false)

/-- `session_started`. -/
def sessionStarted : BridgeState :=
  { s with activeSessions := min (s.activeSessions + 1) (2 ^ 64 - 1) }

/-- `session_ended`, with what its `release_all` returned. -/
def sessionEnded (usb : Usb) : BridgeState × Bool :=
  let s := { s with activeSessions := s.activeSessions - 1 }
  if s.activeSessions = 0 then s.releaseAll usb else (s, false)

end BridgeState

end VynxDesk.InputBridge
