import VynxDesk.InputBridge.Keys
import Mathlib.Data.List.GetD

/-!
# The host's mirror of the bridge

The keys of a keyboard state, what the reports written to a device carry, and what `send` does.
That is one of three things (`BridgeState.Sent`): it writes to the device it has, it opens a device
and writes to that, or it ends without one.  In the second case the mirror is reset after the
payload was computed from it.
-/

namespace VynxDesk.InputBridge

theorem has_setFlag (byte : UInt8) (i j : Fin 8) (down : Bool) :
  Flags.has (setFlag byte i down) j = if j = i then down else Flags.has byte j
  := by
  rw [setFlag]
  cases down
  · by_cases h : j = i
    · simp [h, Flags.has_mask]
    · simp [h, Flags.has_mask, Ne.symm h]
  · by_cases h : j = i
    · simp [h, Flags.has_mask]
    · simp [h, Flags.has_mask, Ne.symm h]

/-- A valid usage can be set. -/
theorem setKeyboardUsage_of_valid {usage : UInt8} (h : ValidUsage usage) (state : KeyboardState)
    (down : Bool) :
  ∃ state', setKeyboardUsage state usage down = some state'
  := by
  rw [setKeyboardUsage]
  split_ifs with hmod hkey
  · exact ⟨_, rfl⟩
  · exact ⟨_, rfl⟩
  · rcases h with h | h
    · exact absurd h hmod
    · exact absurd h hkey

/-- Only valid usages can be set. -/
theorem valid_of_setKeyboardUsage {state state' : KeyboardState} {usage : UInt8} {down : Bool}
    (h : setKeyboardUsage state usage down = some state') :
  ValidUsage usage
  := by
  rw [setKeyboardUsage] at h
  split_ifs at h with hmod hkey
  · left
    exact hmod
  · right
    exact hkey

/-- What a keyboard state contains after a usage was set. -/
theorem keyboardContains_set {state state' : KeyboardState} {usage : UInt8} {down : Bool}
    (h : setKeyboardUsage state usage down = some state') (usage' : UInt8) :
  keyboardContains state' usage' = if usage' = usage then down else keyboardContains state usage'
  := by
  have hsame : usage' = usage ↔ usage'.toNat = usage.toNat := UInt8.toNat_inj.symm
  unfold setKeyboardUsage at h
  unfold keyboardContains
  simp only [hsame]
  split_ifs at h with hmod hkey
  · cases h
    by_cases hmod' : 0xE0 ≤ usage'.toNat ∧ usage'.toNat ≤ 0xE7
    · have hbit : Fin.ofNat 8 (usage'.toNat - 0xE0) = Fin.ofNat 8 (usage.toNat - 0xE0) ↔
          usage'.toNat = usage.toNat := by
        rw [Fin.ext_iff, Fin.val_ofNat, Fin.val_ofNat]
        omega
      simp only [if_pos hmod', has_setFlag, hbit]
    · have hne : usage'.toNat ≠ usage.toNat := by
        omega
      simp only [if_neg hmod', if_neg hne]
  · cases h
    by_cases hmod' : 0xE0 ≤ usage'.toNat ∧ usage'.toNat ≤ 0xE7
    · have hne : usage'.toNat ≠ usage.toNat := by
        omega
      simp only [if_pos hmod', if_neg hne]
    · by_cases hkey' : usage'.toNat < 0x80
      · have hbyte : Fin.ofNat 16 (usage'.toNat / 8) = Fin.ofNat 16 (usage.toNat / 8) ↔
            usage'.toNat / 8 = usage.toNat / 8 := by
          rw [Fin.ext_iff, Fin.val_ofNat, Fin.val_ofNat]
          omega
        have hbit : Fin.ofNat 8 (usage'.toNat % 8) = Fin.ofNat 8 (usage.toNat % 8) ↔
            usage'.toNat % 8 = usage.toNat % 8 := by
          rw [Fin.ext_iff, Fin.val_ofNat, Fin.val_ofNat]
          omega
        simp only [if_neg hmod', if_pos hkey', Function.update_apply]
        by_cases hq : usage'.toNat / 8 = usage.toNat / 8
        · have heq : usage'.toNat = usage.toNat ↔ usage'.toNat % 8 = usage.toNat % 8 := by
            omega
          rw [if_pos (hbyte.mpr hq), has_setFlag, hbyte.mpr hq]
          simp only [hbit, heq]
        · have hne : usage'.toNat ≠ usage.toNat := by
            omega
          rw [if_neg (hbyte.not.mpr hq), if_neg hne]
      · have hne : usage'.toNat ≠ usage.toNat := by
          omega
        simp only [if_neg hmod', if_neg hkey', if_neg hne]

/-- A keyboard state is determined by the usages it contains. -/
theorem KeyboardState.ext_contains {state state' : KeyboardState}
    (h : ∀ usage, keyboardContains state usage = keyboardContains state' usage) :
  state = state'
  := by
  obtain ⟨modifiers, usages⟩ := state
  obtain ⟨modifiers', usages'⟩ := state'
  rw [KeyboardState.mk.injEq]
  constructor
  · apply Flags.ext
    intro i
    have hval : (UInt8.ofNat (0xE0 + i)).toNat = 0xE0 + i := by
      rw [UInt8.toNat_ofNat']
      omega
    have hmod : 0xE0 ≤ 0xE0 + (i : ℕ) ∧ 0xE0 + (i : ℕ) ≤ 0xE7 := by
      omega
    have hbit : Fin.ofNat 8 (0xE0 + (i : ℕ) - 0xE0) = i := by
      rw [Fin.ext_iff, Fin.val_ofNat]
      omega
    simpa only [keyboardContains, hval, if_pos hmod, hbit] using h (UInt8.ofNat (0xE0 + i))
  · funext j
    apply Flags.ext
    intro i
    have hval : (UInt8.ofNat (8 * j + i)).toNat = 8 * j + i := by
      rw [UInt8.toNat_ofNat']
      omega
    have hmod : ¬ (0xE0 ≤ 8 * (j : ℕ) + i ∧ 8 * (j : ℕ) + i ≤ 0xE7) := by
      omega
    have hkey : 8 * (j : ℕ) + i < 0x80 := by
      omega
    have hbyte : Fin.ofNat 16 ((8 * (j : ℕ) + i) / 8) = j := by
      rw [Fin.ext_iff, Fin.val_ofNat]
      omega
    have hbit : Fin.ofNat 8 ((8 * (j : ℕ) + i) % 8) = i := by
      rw [Fin.ext_iff, Fin.val_ofNat]
      omega
    simpa only [keyboardContains, hval, if_neg hmod, if_pos hkey, hbyte, hbit]
      using h (UInt8.ofNat (8 * j + i))

@[simp]
theorem keyboardContains_default (usage : UInt8) : keyboardContains .default usage = false
  := by
  rw [keyboardContains, KeyboardState.default]
  split_ifs
  · rw [Flags.has_zero]
  · rw [Flags.has_zero]
  · rfl

/-- The command of a report. -/
def reportCommand (report : List UInt8) : UInt8 := report.getD 4 0

/-- The byte of a report's payload at an offset. -/
def reportByte (report : List UInt8) (offset : ℕ) : UInt8 := report.getD (9 + offset) 0

/-- The keyboard state that a keyboard report carries. -/
def reportKeyboard (report : List UInt8) : KeyboardState :=
  ⟨reportByte report 0, fun i => reportByte report (1 + i)⟩

@[simp]
theorem reportCommand_encodeFrame (command : UInt8) (sequence : UInt16) (payload : List UInt8) :
  reportCommand (encodeFrame command sequence payload) = command
  := rfl

theorem reportByte_encodeFrame (command : UInt8) (sequence : UInt16) {payload : List UInt8}
    {offset : ℕ} (h : offset < payload.length) :
  reportByte (encodeFrame command sequence payload) offset = payload.getD offset 0
  := by
  rw [reportByte, encodeFrame, bytesOfWord]
  simp only [List.append_assoc, List.cons_append, List.nil_append, Nat.add_comm 9 offset,
    List.getD_cons_succ]
  apply List.getD_append
  exact h

@[simp]
theorem length_keyboardPayload (keyboard : KeyboardState) :
  (BridgeState.keyboardPayload keyboard).length = 17
  := by
  simp [BridgeState.keyboardPayload]

/-- A keyboard frame carries the keyboard state it was made of. -/
theorem reportKeyboard_encodeFrame (command : UInt8) (sequence : UInt16)
    (keyboard : KeyboardState) :
  reportKeyboard (encodeFrame command sequence (BridgeState.keyboardPayload keyboard)) = keyboard
  := by
  have hmodifiers : reportByte (encodeFrame command sequence
      (BridgeState.keyboardPayload keyboard)) 0 = keyboard.modifiers := by
    rw [reportByte_encodeFrame _ _ (by simp)]
    rfl
  have husages : ∀ i : Fin 16, reportByte (encodeFrame command sequence
      (BridgeState.keyboardPayload keyboard)) (1 + i) = keyboard.usages i := by
    intro i
    have hi : 1 + (i : ℕ) < (BridgeState.keyboardPayload keyboard).length := by
      rw [length_keyboardPayload]
      omega
    have hlen : (i : ℕ) < (List.ofFn keyboard.usages).length := by
      rw [List.length_ofFn]
      apply i.isLt
    rw [reportByte_encodeFrame _ _ hi, Nat.add_comm, BridgeState.keyboardPayload,
      List.getD_cons_succ, List.getD_eq_getElem _ _ hlen, List.getElem_ofFn]
  rw [reportKeyboard]
  rw [hmodifiers, funext husages]

theorem length_encodeFrame (command : UInt8) (sequence : UInt16) {payload : List UInt8}
    (h : payload.length ≤ payloadSize) :
  (encodeFrame command sequence payload).length = hostFrameSize
  := by
  simp [encodeFrame, bytesOfWord, hostFrameSize, frameSize, payloadSize] at h ⊢
  omega

/-! ### What a device carries -/

/-- What is held on a device: the state of the last keyboard frame and the buttons of the last mouse
frame. -/
structure Carried where
  keyboard : KeyboardState
  buttons : UInt8

namespace Carried

/-- The released state. -/
def released : Carried := ⟨.default, 0⟩

/-- What is held after a report. -/
def take (carried : Carried) (report : List UInt8) : Carried :=
  if reportCommand report = commandKeyboardState then
    { carried with keyboard := reportKeyboard report }
  else if reportCommand report = commandRelativeMouse ∨
      reportCommand report = commandAbsoluteMouse then
    { carried with buttons := reportByte report 0 }
  else if reportCommand report = commandReleaseAll then released
  else carried

theorem take_keyboard (carried : Carried) (sequence : UInt16) (keyboard : KeyboardState) :
  carried.take (encodeFrame commandKeyboardState sequence (BridgeState.keyboardPayload keyboard)) =
    { carried with keyboard }
  := by
  rw [take]
  rw [reportCommand_encodeFrame, if_pos rfl, reportKeyboard_encodeFrame]

theorem take_mouse (carried : Carried) {command : UInt8}
    (hcommand : command = commandRelativeMouse ∨ command = commandAbsoluteMouse)
    (sequence : UInt16) (buttons : UInt8) (rest : List UInt8) :
  carried.take (encodeFrame command sequence (buttons :: rest)) = { carried with buttons }
  := by
  have hkeyboard : command ≠ commandKeyboardState := by
    rcases hcommand with rfl | rfl
    · decide
    · decide
  rw [take]
  rw [reportCommand_encodeFrame, if_neg hkeyboard, if_pos hcommand,
    reportByte_encodeFrame _ _ (by simp)]
  rfl

theorem take_releaseAll (carried : Carried) (sequence : UInt16) (payload : List UInt8) :
  carried.take (encodeFrame commandReleaseAll sequence payload) = released
  := rfl

theorem take_heartbeat (carried : Carried) (sequence : UInt16) (payload : List UInt8) :
  carried.take (encodeFrame commandHeartbeat sequence payload) = carried
  := rfl

end Carried

namespace Device

/-- What the reports written to a device hold on it. -/
def carried (device : Device) : Carried := device.written.foldl Carried.take .released

/-- A device with one more report. -/
def write (device : Device) (report : List UInt8) : Device := ⟨device.written ++ [report]⟩

@[simp]
theorem carried_write (device : Device) (report : List UInt8) :
  (device.write report).carried = device.carried.take report
  := by
  rw [carried, write]
  rw [List.foldl_append]
  rfl

@[simp]
theorem carried_nil : carried ⟨[]⟩ = .released
  := rfl

end Device

/-! ### What `send` does -/

namespace BridgeState

variable {s : BridgeState} {usb : Usb}

/-- A frame sent now goes to a device opened for it. -/
def Reopens (s : BridgeState) (usb : Usb) : Prop :=
  s.device = none ∧ s.ids ≠ none ∧ probeInterval ≤ usb.now - s.lastProbe ∧ usb.found = true ∧
    usb.written = some hostFrameSize

instance (s : BridgeState) (usb : Usb) : Decidable (s.Reopens usb) :=
  inferInstanceAs (Decidable (_ ∧ _))

/-- What `send` leaves and returns: the frame was written to the device that was open, or to one
that was opened for it, or there is no device. -/
inductive Sent (s : BridgeState) (usb : Usb) (frame : List UInt8) : BridgeState × Bool → Prop where
  | written {device : Device} (hdevice : s.device = some device) :
      Sent s usb frame
        ({ s with
          sequence := s.sequence + 1
          device := some (device.write frame)
          lastWrite := usb.now }, true)
  | reopened (hreopens : s.Reopens usb) :
      Sent s usb frame
        ({ s with
          sequence := s.sequence + 1
          device := some (Device.write ⟨[]⟩ frame)
          lastProbe := usb.now
          lastWrite := usb.now
          keyboard := .default
          mouseButtons := 0 }, true)
  | failed {s' : BridgeState} (hreopens : ¬ s.Reopens usb) (hdevice : s'.device = none)
      (hkeyboard : s'.softwareKeyboard = s.softwareKeyboard)
      (hbuttons : s'.softwareMouseButtons = s.softwareMouseButtons) :
      Sent s usb frame (s', false)

theorem send_sent (s : BridgeState) (usb : Usb) (command : UInt8) (payload : List UInt8)
    (hlen : payload.length ≤ payloadSize) :
  Sent s usb (encodeFrame command (s.sequence + 1) payload) (s.send usb command payload)
  := by
  have hsize := length_encodeFrame command (s.sequence + 1) hlen
  rw [send]
  rw [if_neg (Nat.not_lt.mpr hlen)]
  cases hdevice : s.device with
  | some device =>
      simp only [ensureConnected, hdevice, Option.isSome_some, if_true, hsize]
      split_ifs with hwritten
      · apply Sent.written hdevice
      · have hreopens : ¬ s.Reopens usb := by
          simp [Reopens, hdevice]
        exact Sent.failed hreopens rfl rfl rfl
  | none =>
      by_cases hopen : s.ids ≠ none ∧ probeInterval ≤ usb.now - s.lastProbe ∧ usb.found = true
      · obtain ⟨hids, hprobe, hfound⟩ := hopen
        simp only [ensureConnected, hdevice, Option.isSome_none, Option.isNone_iff_eq_none, hids,
          Int.not_lt.mpr hprobe, hfound, hsize, if_true, if_false, Bool.false_eq_true]
        split_ifs with hwritten
        · apply Sent.reopened ⟨hdevice, hids, hprobe, hfound, hwritten⟩
        · have hreopens : ¬ s.Reopens usb := by
            rintro ⟨_, _, _, _, h⟩
            exact hwritten h
          exact Sent.failed hreopens rfl rfl rfl
      · have hreopens : ¬ s.Reopens usb := by
          rintro ⟨_, hids, hprobe, hfound, _⟩
          exact hopen ⟨hids, hprobe, hfound⟩
        have hconnect :
            ∃ probe, s.ensureConnected usb = ({ s with lastProbe := probe }, false) := by
          rw [ensureConnected]
          split_ifs with hdevice' hids hprobe hfound
          · simp [hdevice] at hdevice'
          · use s.lastProbe
          · use s.lastProbe
          · rw [Option.isNone_iff_eq_none] at hids
            exact absurd ⟨hids, Int.not_lt.mp hprobe, hfound⟩ hopen
          · use usb.now
        obtain ⟨probe, hconnect⟩ := hconnect
        rw [hconnect]
        exact Sent.failed hreopens hdevice rfl rfl

/-- What the host takes to be held on the bridge. -/
def mirror (s : BridgeState) : Carried := ⟨s.keyboard, s.mouseButtons⟩

end BridgeState

end VynxDesk.InputBridge
