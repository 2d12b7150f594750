import VynxDesk.InputBridge.Protocol
import VynxDesk.Lib.Run

/-!
# The firmware of the input bridge

`hardware/vynx_input_bridge/src/main.c`.  The state is that of its static variables; the callbacks
of the USB stack and the tasks of the main loop are functions on it.  What the USB stack and the
clock answer are arguments: `now` is a reading of `now_ms()`, `ready` what `tud_hid_ready()` says,
and `sent` what `tud_hid_report` returns.  A `Board` is the firmware together with the reports it
has transmitted, and its steps are the callbacks and the tasks, in any order.  The LED is left out.
-/

namespace VynxDesk.InputBridge

/-- `VYNX_QUEUE_CAPACITY`. -/
def queueCapacity : ℕ := 64

/-- `VYNX_WATCHDOG_MS`. -/
def watchdogMs : UInt64 := 750

/-- `vynx_queue_t`. -/
structure Queue where
  frames : ℕ → Frame
  head : ℕ
  tail : ℕ
  count : ℕ

/-- `vynx_status_t`. -/
structure Status where
  accepted : UInt32
  rejected : UInt32
  watchdogReleases : UInt32
  lastSequence : UInt16
  queueDepth : ℕ
  releaseStage : ℕ

/-- The static variables of `main.c`. -/
structure Firmware where
  commandQueue : Queue
  bridgeStatus : Status
  lastContactMs : UInt64
  watchdogArmed : Bool
  usbMounted : Bool

/-- The firmware at power-on. -/
def Firmware.start : Firmware :=
  ⟨⟨fun _ => ⟨List.replicate frameSize 0⟩, 0, 0, 0⟩, ⟨0, 0, 0, 0, 0, 0⟩, 0, false, false⟩

/-- `frame_is_valid`. -/
def frameIsValid (frame : Frame) : Bool :=
  frame.magic = (0x56, 0x58) ∧ frame.version = protocolVersion ∧
    frame.payloadLength.toNat ≤ payloadSize ∧ crc16Ccitt (frame.bytes.take 28) = frame.crc

/-- `command_payload_is_valid`. -/
def commandPayloadIsValid (frame : Frame) : Bool :=
  if frame.command = commandKeyboardState then frame.payloadLength = keyboardReportSize
  else if frame.command = commandRelativeMouse then frame.payloadLength = relativeMouseReportSize
  else if frame.command = commandAbsoluteMouse then frame.payloadLength = absoluteMouseReportSize
  else if frame.command = commandReleaseAll ∨ frame.command = commandHeartbeat then
    frame.payloadLength = 0
  else false

/-- The task that transmits a report: `release_task` or `send_command`. -/
inductive Cause where
  | release
  | command
  deriving DecidableEq, Repr

namespace Firmware

variable (fw : Firmware)

/-- Sets the queue and the depth that the status reports of it. -/
def setQueue (queue : Queue) : Firmware :=
  { fw with commandQueue := queue, bridgeStatus := { fw.bridgeStatus with queueDepth := queue.count } }

/-- Sets `release_stage`. -/
def setStage (stage : ℕ) : Firmware :=
  { fw with bridgeStatus := { fw.bridgeStatus with releaseStage := stage } }

/-- Counts a rejected report. -/
def reject : Firmware :=
  { fw with bridgeStatus := { fw.bridgeStatus with rejected := fw.bridgeStatus.rejected + 1 } }

/-- Counts an accepted report. -/
def accept : Firmware :=
  { fw with bridgeStatus := { fw.bridgeStatus with accepted := fw.bridgeStatus.accepted + 1 } }

/-- `queue_clear`. -/
def queueClear : Firmware := fw.setQueue { fw.commandQueue with head := 0, tail := 0, count := 0 }

/-- `queue_push`. -/
def queuePush (frame : Frame) : Firmware × Bool :=
  let queue := fw.commandQueue
  if queue.count = queueCapacity then (fw, false)
  else
    (fw.setQueue
      { queue with
        frames := fun i => if i = queue.tail then frame else queue.frames i
        tail := (queue.tail + 1) % queueCapacity
        count := queue.count + 1 }, true)

/-- `queue_front`. -/
def queueFront : Option Frame :=
  if fw.commandQueue.count = 0 then none
  else some (fw.commandQueue.frames fw.commandQueue.head)

/-- `queue_pop`. -/
def queuePop : Firmware :=
  let queue := fw.commandQueue
  if queue.count = 0 then fw
  else
    fw.setQueue
      { queue with head := (queue.head + 1) % queueCapacity, count := queue.count - 1 }

/-- `request_release_all`. -/
def requestReleaseAll : Firmware :=
  { fw.queueClear.setStage 1 with watchdogArmed := false }

/-- `release_task`, with the report it transmits. -/
def releaseTask (ready sent : Bool) : Firmware × Option Report :=
  if fw.bridgeStatus.releaseStage = 0 ∨ ready = false then (fw, none)
  else if fw.bridgeStatus.releaseStage = 1 then
    if sent then (fw.setStage 2, some (.keyboard .zero)) else (fw, none)
  else
    if sent then (fw.setStage 0, some (.relativeMouse .zero)) else (fw, none)

/-- `send_command`: whether it is done with the frame, and the report it transmits. -/
def sendCommand (frame : Frame) (ready sent : Bool) : Firmware × Bool × Option Report :=
  if ready = false then (fw, false, none)
  else if frame.command = commandKeyboardState then
    if frame.payloadLength ≠ keyboardReportSize then (fw, true, none)
    else if sent then (fw, true, some (.keyboard (.ofPayload frame.payload)))
    else (fw, false, none)
  else if frame.command = commandRelativeMouse then
    if frame.payloadLength ≠ relativeMouseReportSize then (fw, true, none)
    else if sent then (fw, true, some (.relativeMouse (.ofPayload frame.payload)))
    else (fw, false, none)
  else if frame.command = commandAbsoluteMouse then
    if frame.payloadLength ≠ absoluteMouseReportSize then (fw, true, none)
    else if sent then (fw, true, some (.absoluteMouse (.ofPayload frame.payload)))
    else (fw, false, none)
  else if frame.command = commandReleaseAll then (fw.requestReleaseAll, true, none)
  else (fw, true, none)

/-- `command_task`, with the report that the task it calls transmits. -/
def commandTask (ready sent : Bool) : Firmware × Option (Cause × Report) :=
  if fw.bridgeStatus.releaseStage ≠ 0 then
    let (fw', report) := fw.releaseTask ready sent
    (fw', report.map fun report => (.release, report))
  else
    match fw.queueFront with
    | none => (fw, none)
    | some frame =>
        let (fw', done, report) := fw.sendCommand frame ready sent
        (if done then fw'.queuePop else fw', report.map fun report => (.command, report))

/-- `watchdog_task`. -/
def watchdogTask (now : UInt64) : Firmware :=
  if fw.watchdogArmed ∧ now - fw.lastContactMs > watchdogMs then
    requestReleaseAll
      { fw with
        bridgeStatus :=
          { fw.bridgeStatus with watchdogReleases := fw.bridgeStatus.watchdogReleases + 1 } }
  else fw

/-- `tud_mount_cb`. -/
def tudMountCb : Firmware :=
  { ({ fw with usbMounted := true } : Firmware).queueClear.setStage 1 with watchdogArmed := false }

/-- `tud_umount_cb`. -/
def tudUmountCb : Firmware :=
  { ({ fw with usbMounted := false } : Firmware).queueClear with watchdogArmed := false }

/-- `tud_suspend_cb`. -/
def tudSuspendCb : Firmware := fw.requestReleaseAll

/-- `tud_resume_cb`. -/
def tudResumeCb : Firmware := fw.requestReleaseAll

/-- A frame that `tud_hid_set_report_cb` has found valid. -/
def receive (frame : Frame) (now : UInt64) : Firmware :=
  let fw : Firmware :=
    { fw with
      lastContactMs := now
      watchdogArmed := true
      bridgeStatus := { fw.bridgeStatus with lastSequence := frame.sequence } }
  if frame.command = commandHeartbeat then fw.accept
  else
    let (fw, pushed) := fw.queuePush frame
    if pushed then fw.accept else fw.reject

end Firmware

/-- `hid_report_type_t`. -/
inductive HidReportType where
  | invalid
  | input
  | output
  | feature
  deriving DecidableEq, Repr

/-- The frame that `tud_hid_set_report_cb` reads off its arguments, when they are for the vendor
transport: the report id may still be the first byte of the buffer. -/
def vendorFrame (reportId : UInt8) (reportType : HidReportType) (buffer : List UInt8) :
    Option Frame :=
  let (reportId, buffer) :=
    if reportId = 0 ∧ buffer.length = frameSize + 1 ∧ buffer.getD 0 0 = reportIdVendor then
      (reportIdVendor, buffer.tail)
    else (reportId, buffer)
  if reportId ≠ reportIdVendor ∨ (reportType ≠ .output ∧ reportType ≠ .feature) ∨
      buffer.length ≠ frameSize then
    none
  else some ⟨buffer⟩

/-- `tud_hid_set_report_cb`. -/
def Firmware.tudHidSetReportCb (fw : Firmware) (reportId : UInt8) (reportType : HidReportType)
    (buffer : List UInt8) (now : UInt64) : Firmware :=
  if reportId = reportIdKeyboard ∧ reportType = .output then fw
  else
    match vendorFrame reportId reportType buffer with
    | none => fw.reject
    | some frame =>
        if frameIsValid frame ∧ commandPayloadIsValid frame then fw.receive frame now
        else fw.reject

/-- The firmware with the reports it has transmitted, the oldest first. -/
structure Board where
  firmware : Firmware
  transmitted : List (Cause × Report)

/-- The board at power-on. -/
def Board.start : Board := ⟨Firmware.start, []⟩

/-- What can happen to a board. -/
inductive Event where
  | setReport (reportId : UInt8) (reportType : HidReportType) (buffer : List UInt8) (now : UInt64)
  | mount
  | umount
  | suspend
  | resume
  | watchdog (now : UInt64)
  | command (ready sent : Bool)
  deriving DecidableEq, Repr

namespace Board

variable (b : Board)

/-- The stage of the release in progress, `0` when there is none. -/
abbrev releaseStage : ℕ := b.firmware.bridgeStatus.releaseStage

/-- The report that an event transmits. -/
def transmits : Event → Option (Cause × Report)
  | .command ready sent => (b.firmware.commandTask ready sent).2
  | _ => none

/-- The firmware after an event. -/
def advance : Event → Firmware
  | .setReport reportId reportType buffer now =>
      b.firmware.tudHidSetReportCb reportId reportType buffer now
  | .mount => b.firmware.tudMountCb
  | .umount => b.firmware.tudUmountCb
  | .suspend => b.firmware.tudSuspendCb
  | .resume => b.firmware.tudResumeCb
  | .watchdog now => b.firmware.watchdogTask now
  | .command ready sent => (b.firmware.commandTask ready sent).1

/-- The board after an event. -/
def next (e : Event) : Board := ⟨b.advance e, b.transmitted ++ (b.transmits e).toList⟩

/-- One step of a board. -/
def Step (b : Board) (e : Event) (b' : Board) : Prop := b' = b.next e

/-- The keyboard report transmitted last. -/
def lastKeyboard : Option KeyboardReport :=
  (b.transmitted.filterMap fun
    | (_, .keyboard report) => some report
    | _ => none).getLast?

/-- The relative mouse report transmitted last. -/
def lastRelativeMouse : Option MouseReport :=
  (b.transmitted.filterMap fun
    | (_, .relativeMouse report) => some report
    | _ => none).getLast?

/-- The absolute mouse report transmitted last. -/
def lastAbsoluteMouse : Option MouseReport :=
  (b.transmitted.filterMap fun
    | (_, .absoluteMouse report) => some report
    | _ => none).getLast?

/-- The keyboard report transmitted last holds a key or a modifier. -/
def HoldsKey : Prop := ∃ report ∈ b.lastKeyboard, report.Pressed

/-- The relative mouse report transmitted last holds a button. -/
def HoldsRelative : Prop := ∃ report ∈ b.lastRelativeMouse, report.Pressed

/-- The absolute mouse report transmitted last holds a button. -/
def HoldsAbsolute : Prop := ∃ report ∈ b.lastAbsoluteMouse, report.Pressed

end Board

end VynxDesk.InputBridge
