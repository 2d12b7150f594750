import Mathlib.Data.List.Basic
import Mathlib.Logic.Function.Iterate

/-!
# The protocol of the input bridge

`hardware/vynx_input_bridge/src/protocol.h`: the 32-byte frames that the host sends, as the bytes
of the packed structure with its fields read at their offsets, little-endian; the CRC that the
firmware and `libs/enigo/src/win/bridge.rs` both compute; and the HID input reports.
-/

namespace VynxDesk.InputBridge

/-- `VYNX_PROTOCOL_VERSION`. -/
def protocolVersion : UInt8 := 1

/-- `VYNX_FRAME_SIZE`. -/
def frameSize : ℕ := 32

/-- `VYNX_PAYLOAD_SIZE`. -/
def payloadSize : ℕ := 20

/-- `VYNX_REPORT_ID_KEYBOARD`. -/
def reportIdKeyboard : UInt8 := 1

/-- `VYNX_REPORT_ID_RELATIVE_MOUSE`. -/
def reportIdRelativeMouse : UInt8 := 2

/-- `VYNX_REPORT_ID_ABSOLUTE_MOUSE`. -/
def reportIdAbsoluteMouse : UInt8 := 3

/-- `VYNX_REPORT_ID_VENDOR`. -/
def reportIdVendor : UInt8 := 4

/-- `VYNX_COMMAND_KEYBOARD_STATE`. -/
def commandKeyboardState : UInt8 := 1

/-- `VYNX_COMMAND_RELATIVE_MOUSE`. -/
def commandRelativeMouse : UInt8 := 2

/-- `VYNX_COMMAND_ABSOLUTE_MOUSE`. -/
def commandAbsoluteMouse : UInt8 := 3

/-- `VYNX_COMMAND_RELEASE_ALL`. -/
def commandReleaseAll : UInt8 := 4

/-- `VYNX_COMMAND_HEARTBEAT`. -/
def commandHeartbeat : UInt8 := 5

/-- `sizeof(vynx_keyboard_report_t)`. -/
def keyboardReportSize : UInt8 := 17

/-- `sizeof(vynx_relative_mouse_report_t)`. -/
def relativeMouseReportSize : UInt8 := 7

/-- `sizeof(vynx_absolute_mouse_report_t)`. -/
def absoluteMouseReportSize : UInt8 := 7

/-- The shift of a bit out of the CRC. -/
def crc16Bit (crc : UInt16) : UInt16 :=
  if crc &&& 0x8000 ≠ 0 then (crc <<< 1) ^^^ 0x1021 else crc <<< 1

/-- The CRC after one more byte. -/
def crc16Byte (crc : UInt16) (byte : UInt8) : UInt16 :=
  crc16Bit^[8] (crc ^^^ (byte.toUInt16 <<< 8))

/-- `crc16_ccitt`. -/
def crc16Ccitt (data : List UInt8) : UInt16 := data.foldl crc16Byte 0xFFFF

example : crc16Ccitt [0x31, 0x32, 0x33, 0x34, 0x35, 0x36, 0x37, 0x38, 0x39] = 0x29B1
  := by decide +kernel

/-- The two bytes of a little-endian word. -/
def wordOfBytes (low high : UInt8) : UInt16 := low.toUInt16 ||| (high.toUInt16 <<< 8)

/-- `vynx_frame_t`, as its bytes. -/
structure Frame where
  bytes : List UInt8
  deriving DecidableEq, Repr

namespace Frame

variable (frame : Frame)

/-- The byte at an offset. -/
def byte (offset : ℕ) : UInt8 := frame.bytes.getD offset 0

/-- The little-endian word at an offset. -/
def word (offset : ℕ) : UInt16 := wordOfBytes (frame.byte offset) (frame.byte (offset + 1))

/-- `magic`. -/
def magic : UInt8 × UInt8 := (frame.byte 0, frame.byte 1)

/-- `version`. -/
def version : UInt8 := frame.byte 2

/-- `command`. -/
def command : UInt8 := frame.byte 3

/-- `sequence`. -/
def sequence : UInt16 := frame.word 4

/-- `payload_length`. -/
def payloadLength : UInt8 := frame.byte 6

/-- `payload`. -/
def payload : List UInt8 := (frame.bytes.drop 8).take payloadSize

/-- `crc`. -/
def crc : UInt16 := frame.word 28

end Frame

/-- `vynx_keyboard_report_t`: the modifiers are usages `0xE0` to `0xE7`, the bits of `usages` are
usages `0` to `127`. -/
structure KeyboardReport where
  modifiers : UInt8
  usages : List UInt8
  deriving DecidableEq, Repr

/-- `vynx_relative_mouse_report_t` and `vynx_absolute_mouse_report_t`, which have the same layout;
the words and bytes are the bit patterns of the coordinates and of the wheels. -/
structure MouseReport where
  buttons : UInt8
  x : UInt16
  y : UInt16
  wheel : UInt8
  pan : UInt8
  deriving DecidableEq, Repr

/-- An HID input report, by its report id. -/
inductive Report where
  | keyboard (report : KeyboardReport)
  | relativeMouse (report : MouseReport)
  | absoluteMouse (report : MouseReport)
  deriving DecidableEq, Repr

namespace KeyboardReport

/-- The report that a payload is copied into. -/
def ofPayload (payload : List UInt8) : KeyboardReport :=
  ⟨payload.getD 0 0, (payload.drop 1).take 16⟩

/-- The report of an idle keyboard. -/
def zero : KeyboardReport := ⟨0, List.replicate 16 0⟩

/-- Whether a report holds a key or a modifier. -/
def Pressed (report : KeyboardReport) : Prop :=
  report.modifiers ≠ 0 ∨ ∃ usage ∈ report.usages, usage ≠ 0

instance (report : KeyboardReport) : Decidable report.Pressed :=
  inferInstanceAs (Decidable (_ ∨ _))

theorem not_pressed_zero : ¬ zero.Pressed
  := by decide

end KeyboardReport

namespace MouseReport

/-- The report that a payload is copied into. -/
def ofPayload (payload : List UInt8) : MouseReport :=
  ⟨payload.getD 0 0, wordOfBytes (payload.getD 1 0) (payload.getD 2 0),
    wordOfBytes (payload.getD 3 0) (payload.getD 4 0), payload.getD 5 0, payload.getD 6 0⟩

/-- The report of an idle mouse. -/
def zero : MouseReport := ⟨0, 0, 0, 0, 0⟩

/-- Whether a report holds a button: the report descriptor has five, the other three bits are
padding. -/
def Pressed (report : MouseReport) : Prop := report.buttons &&& 0x1F ≠ 0

instance (report : MouseReport) : Decidable report.Pressed :=
  inferInstanceAs (Decidable (_ ≠ _))

theorem not_pressed_zero : ¬ zero.Pressed
  := by decide

end MouseReport

end VynxDesk.InputBridge
