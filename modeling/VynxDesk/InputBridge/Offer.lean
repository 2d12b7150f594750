import VynxDesk.InputBridge.Route
import VynxDesk.Lib.TwoPaths

/-!
# What an event leaves of the bridge

The keys and the buttons of a state are each what the sender of a system of two paths knows.  For
both, every event has a frame, and leaves one of three things (`BridgeState.Offered`): nothing
changed, the event was left to the Windows input path, or its frame was sent.
-/

namespace VynxDesk.InputBridge

open TwoPaths (Held Act mark mem_mark_self mem_mark_of_ne)

/-- The usages of a keyboard state. -/
def KeyboardState.keys (state : KeyboardState) : Set UInt8 :=
  {usage | keyboardContains state usage = true}

/-- The buttons of a mask. -/
def buttonsOf (mask : UInt8) : Set (Fin 8) := {i | Flags.has mask i = true}

@[simp]
theorem KeyboardState.keys_default :
  KeyboardState.default.keys = ∅
  := by
  simp [keys]

@[simp]
theorem buttonsOf_zero :
  buttonsOf 0 = ∅
  := by
  simp [buttonsOf]

theorem KeyboardState.keys_set {state state' : KeyboardState} {usage : UInt8} {down : Bool}
    (h : setKeyboardUsage state usage down = some state') :
  state'.keys = mark state.keys usage down
  := by
  ext usage'
  simp only [keys, Set.mem_ofPred_eq, keyboardContains_set h]
  by_cases hsame : usage' = usage
  · rw [if_pos hsame, hsame, mem_mark_self]
  · rw [if_neg hsame, mem_mark_of_ne hsame]
    rfl

theorem buttonsOf_set (mask : UInt8) (i : Fin 8) :
  buttonsOf (mask ||| Flags.mask i) = mark (buttonsOf mask) i true
  := by
  ext j
  simp only [buttonsOf, Set.mem_ofPred_eq, Flags.has_or, Flags.has_mask]
  by_cases hsame : j = i
  · rw [hsame, mem_mark_self]
    simp
  · rw [mem_mark_of_ne hsame]
    simp [Ne.symm hsame]

theorem buttonsOf_clear (mask : UInt8) (i : Fin 8) :
  buttonsOf (mask &&& ~~~Flags.mask i) = mark (buttonsOf mask) i false
  := by
  ext j
  simp only [buttonsOf, Set.mem_ofPred_eq, Flags.has_and, Flags.has_not, Flags.has_mask]
  by_cases hsame : j = i
  · rw [hsame, mem_mark_self]
    simp
  · rw [mem_mark_of_ne hsame]
    simp [Ne.symm hsame]

namespace BridgeState

/-- What the bridge knows of the keys. -/
def keys (s : BridgeState) : Held UInt8 where
  kept := s.keyboard.keys
  carried := s.device.map fun device => device.carried.keyboard.keys
  left := s.softwareKeyboard.keys

/-- What the bridge knows of the buttons. -/
def buttons (s : BridgeState) : Held (Fin 8) where
  kept := buttonsOf s.mouseButtons
  carried := s.device.map fun device => buttonsOf device.carried.buttons
  left := buttonsOf s.softwareMouseButtons

/-- What a frame, for the keys and for the buttons, leaves of a state: it was written to the device
that was open or to one opened for it, or it failed. -/
inductive Dealt (s : BridgeState) (usb : Usb) (keys : TwoPaths.Frame UInt8)
    (buttons : TwoPaths.Frame (Fin 8)) : BridgeState × Bool → Prop where
  | written {s' : BridgeState} (hopen : s.device ≠ none)
      (hkeys : Held.Step s.keys (.send keys .written) s'.keys)
      (hbuttons : Held.Step s.buttons (.send buttons .written) s'.buttons) :
      Dealt s usb keys buttons (s', true)
  | reopened {s' : BridgeState} (hreopens : s.Reopens usb)
      (hkeys : Held.Step s.keys (.send keys .reopened) s'.keys)
      (hbuttons : Held.Step s.buttons (.send buttons .reopened) s'.buttons) :
      Dealt s usb keys buttons (s', true)
  | failed {s' : BridgeState} {keptKeys : Set UInt8} {keptButtons : Set (Fin 8)}
      (hreopens : ¬ s.Reopens usb)
      (hkeys : Held.Step s.keys (.send keys (.failed keptKeys)) s'.keys)
      (hbuttons : Held.Step s.buttons (.send buttons (.failed keptButtons)) s'.buttons) :
      Dealt s usb keys buttons (s', false)

variable {s s' : BridgeState} {usb : Usb} {keyboard : KeyboardState} {mask : UInt8}
  {frame : List UInt8} {keyFrame : TwoPaths.Frame UInt8} {buttonFrame : TwoPaths.Frame (Fin 8)}

theorem Dealt.of_success
    (hsent : Sent { s with keyboard, mouseButtons := mask } usb frame (s', true))
    (hkeysOpen : ∀ usage, keyFrame.input = some (usage, false) → usage ∉ s.keys.left)
    (hbuttonsOpen : ∀ i, buttonFrame.input = some (i, false) → i ∉ s.buttons.left)
    (hkeys : keyboard.keys = keyFrame.holds s.keyboard.keys s.keyboard.keys)
    (hbuttons : buttonsOf mask =
      buttonFrame.holds (buttonsOf s.mouseButtons) (buttonsOf s.mouseButtons))
    (hkeysTake : ∀ carried : Carried, (carried.take frame).keyboard.keys =
      keyFrame.holds s.keyboard.keys carried.keyboard.keys)
    (hbuttonsTake : ∀ carried : Carried, buttonsOf (carried.take frame).buttons =
      buttonFrame.holds (buttonsOf s.mouseButtons) (buttonsOf carried.buttons)) :
  Dealt s usb keyFrame buttonFrame (s', true)
  := by
  cases hsent with
  | @written device hdevice =>
      have hbefore : s.device = some device := hdevice
      apply Dealt.written
      · rw [hbefore]
        simp
      · have hopen : s.keys.carried = some device.carried.keyboard.keys := by
          simp [BridgeState.keys, hbefore]
        apply Held.Step.of_written hopen hkeysOpen hkeys
        · simp only [BridgeState.keys, Option.map_some, Device.carried_write, hkeysTake]
        · rfl
      · have hopen : s.buttons.carried = some (buttonsOf device.carried.buttons) := by
          simp [BridgeState.buttons, hbefore]
        apply Held.Step.of_written hopen hbuttonsOpen hbuttons
        · simp only [BridgeState.buttons, Option.map_some, Device.carried_write, hbuttonsTake]
        · rfl
  | reopened hreopens =>
      have hbefore : s.Reopens usb := hreopens
      apply Dealt.reopened hbefore
      · have hclosed : s.keys.carried = none := by
          simp [BridgeState.keys, hbefore.1]
        apply Held.Step.of_reopened hclosed hkeysOpen KeyboardState.keys_default
        · simp only [BridgeState.keys, Option.map_some, Device.carried_write, hkeysTake,
            Device.carried_nil, Carried.released, KeyboardState.keys_default]
        · rfl
      · have hclosed : s.buttons.carried = none := by
          simp [BridgeState.buttons, hbefore.1]
        apply Held.Step.of_reopened hclosed hbuttonsOpen buttonsOf_zero
        · simp only [BridgeState.buttons, Option.map_some, Device.carried_write, hbuttonsTake,
            Device.carried_nil, Carried.released, buttonsOf_zero]
        · rfl

theorem Dealt.of_failure
    (hsent : Sent { s with keyboard, mouseButtons := mask } usb frame (s', false))
    (hkeysOpen : ∀ usage, keyFrame.input = some (usage, false) → usage ∉ s.keys.left)
    (hbuttonsOpen : ∀ i, buttonFrame.input = some (i, false) → i ∉ s.buttons.left)
    {s'' : BridgeState} (hdevice : s''.device = s'.device)
    (hkeys : s'.softwareKeyboard = s.softwareKeyboard →
      s''.softwareKeyboard.keys = keyFrame.leaves s.softwareKeyboard.keys)
    (hbuttons : s'.softwareMouseButtons = s.softwareMouseButtons →
      buttonsOf s''.softwareMouseButtons = buttonFrame.leaves (buttonsOf s.softwareMouseButtons)) :
  Dealt s usb keyFrame buttonFrame (s'', false)
  := by
  cases hsent with
  | failed hreopens hnone hkeyboard hmask =>
      have hafter : s''.device = none := by
        rw [hdevice]
        exact hnone
      have hbefore : ¬ s.Reopens usb := hreopens
      apply Dealt.failed hbefore
      · apply Held.Step.of_failed hkeysOpen
        · simp [BridgeState.keys, hafter]
        · apply hkeys hkeyboard
      · apply Held.Step.of_failed hbuttonsOpen
        · simp [BridgeState.buttons, hafter]
        · apply hbuttons hmask

/-- A frame that holds nothing on a device opened for it, and that is of no event. -/
def Quiet {ι : Type} (frame : TwoPaths.Frame ι) : Prop := frame = .other ∨ frame = .clear

theorem Quiet.input {ι : Type} {frame : TwoPaths.Frame ι} (h : Quiet frame) :
  frame.input = none
  := by
  rcases h with rfl | rfl
  · rfl
  · rfl

theorem Quiet.holds {ι : Type} {frame : TwoPaths.Frame ι} (h : Quiet frame) (kept : Set ι) :
  frame.holds kept ∅ = ∅
  := by
  rcases h with rfl | rfl
  · rfl
  · rfl

/-- What an event, with its frame for the keys and for the buttons, leaves of a state: nothing
changed, it was left to the Windows input path, or its frame was sent. -/
inductive Offered (s : BridgeState) (usb : Usb) (keyFrame : TwoPaths.Frame UInt8)
    (buttonFrame : TwoPaths.Frame (Fin 8)) : BridgeState × Bool → Prop where
  | kept {s' : BridgeState} {taken : Bool} (hkeyFrame : Quiet keyFrame)
      (hbuttonFrame : Quiet buttonFrame) (hkeys : s'.keys = s.keys)
      (hbuttons : s'.buttons = s.buttons) :
      Offered s usb keyFrame buttonFrame (s', taken)
  | leftKey {s' : BridgeState} {usage : UInt8} (hkeyFrame : keyFrame = .event usage false)
      (hbuttonFrame : buttonFrame = .other) (hkeys : Held.Step s.keys (.leave usage) s'.keys)
      (hbuttons : s'.buttons = s.buttons) :
      Offered s usb keyFrame buttonFrame (s', false)
  | leftButton {s' : BridgeState} {i : Fin 8} (hkeyFrame : keyFrame = .other)
      (hbuttonFrame : buttonFrame = .event i false) (hkeys : s'.keys = s.keys)
      (hbuttons : Held.Step s.buttons (.leave i) s'.buttons) :
      Offered s usb keyFrame buttonFrame (s', false)
  | dealt {r : BridgeState × Bool} (hdealt : Dealt s usb keyFrame buttonFrame r) :
      Offered s usb keyFrame buttonFrame r

/-- `send_keyboard_usage`. -/
theorem offered_key (s : BridgeState) (usb : Usb) {usage : UInt8} (hvalid : ValidUsage usage)
    (down : Bool) :
  Offered s usb (.event usage down) .other (s.sendKeyboardUsage usb usage down)
  := by
  rw [sendKeyboardUsage]
  by_cases hsoftware : (!down && keyboardContains s.softwareKeyboard usage) = true
  · rw [if_pos hsoftware]
    obtain ⟨hup, hleft⟩ := by simpa using hsoftware
    obtain ⟨state', hset⟩ := setKeyboardUsage_of_valid hvalid s.softwareKeyboard false
    rw [hset, Option.getD_some, hup]
    apply Offered.leftKey rfl rfl
    · exact Held.Step.of_leave hleft rfl rfl (KeyboardState.keys_set hset)
    · rfl
  · rw [if_neg hsoftware]
    apply Offered.dealt
    obtain ⟨keyboard, hset⟩ := setKeyboardUsage_of_valid hvalid s.keyboard down
    have hkeys := KeyboardState.keys_set hset
    have hkeysOpen : ∀ usage', (TwoPaths.Frame.event usage down).input = some (usage', false) →
        usage' ∉ s.keys.left := by
      intro usage' hinput hleft
      obtain ⟨rfl, rfl⟩ := by simpa [TwoPaths.Frame.input] using hinput
      apply hsoftware
      rw [Bool.not_false, Bool.true_and]
      exact hleft
    have hbuttonsOpen : ∀ i, (TwoPaths.Frame.other : TwoPaths.Frame (Fin 8)).input =
        some (i, false) → i ∉ s.buttons.left := by
      rintro i ⟨⟩
    have hsent := send_sent { s with keyboard } usb commandKeyboardState
      (keyboardPayload keyboard) (by simp [payloadSize])
    rw [hset]
    dsimp only
    rcases hresult : send { s with keyboard } usb commandKeyboardState
      (keyboardPayload keyboard) with ⟨s', _ | _⟩
    · rw [hresult] at hsent
      dsimp only
      apply Dealt.of_failure hsent hkeysOpen hbuttonsOpen
      · rfl
      · intro hsame
        obtain ⟨state', hset'⟩ := setKeyboardUsage_of_valid hvalid s.softwareKeyboard true
        dsimp only
        rw [hsame, hset', Option.getD_some]
        cases down with
        | false => rfl
        | true => apply KeyboardState.keys_set hset'
      · intro hsame
        dsimp only
        rw [hsame]
        rfl
    · rw [hresult] at hsent
      apply Dealt.of_success hsent hkeysOpen hbuttonsOpen hkeys rfl
      · intro carried
        rw [Carried.take_keyboard]
        exact hkeys
      · intro carried
        rw [Carried.take_keyboard]
        rfl

/-- `send_mouse`, when it comes to `send`. -/
theorem dealt_mouse (s : BridgeState) (usb : Usb) {flags data : UInt32} (dx dy : Int)
    {buttonFrame : TwoPaths.Frame (Fin 8)} (habsolute : hasAny flags absoluteFlag = false)
    (hsupported : hasAny flags supportedFlags = true)
    (hkeep : s.softwareReleasesButton flags data = false)
    (hopen : ∀ i, buttonFrame.input = some (i, false) → i ∉ s.buttons.left)
    (hbuttons : buttonsOf (updateMouseButtons flags data s.mouseButtons) =
      buttonFrame.holds (buttonsOf s.mouseButtons) (buttonsOf s.mouseButtons))
    (hholds : ∀ held, buttonFrame.holds (buttonsOf s.mouseButtons) held =
      buttonFrame.holds (buttonsOf s.mouseButtons) (buttonsOf s.mouseButtons))
    (hleaves : buttonsOf (if hasAny flags (leftDown ||| rightDown ||| middleDown ||| xDown) then
      s.softwareMouseButtons ||| mouseButtonMask flags data else s.softwareMouseButtons) =
        buttonFrame.leaves (buttonsOf s.softwareMouseButtons)) :
  Dealt s usb .other buttonFrame (s.sendMouse usb flags data dx dy)
  := by
  have hkeysOpen : ∀ usage, (TwoPaths.Frame.other : TwoPaths.Frame UInt8).input =
      some (usage, false) → usage ∉ s.keys.left := by
    rintro usage ⟨⟩
  rw [softwareReleasesButton] at hkeep
  rw [sendMouse]
  dsimp only
  rw [if_neg (ne_true_of_eq_false habsolute), if_neg (ne_true_of_eq_false hkeep), hsupported,
    Bool.not_true, if_neg Bool.false_ne_true]
  generalize (if hasAny flags wheelFlag = true then wheelDelta data else 0) = wheel
  generalize (if hasAny flags hwheelFlag = true then wheelDelta data else 0) = pan
  generalize updateMouseButtons flags data s.mouseButtons = mask at hbuttons
  have hsent := send_sent { s with mouseButtons := mask } usb commandRelativeMouse
    ([mask] ++ bytesOfWord (clampWord dx) ++ bytesOfWord (clampWord dy) ++ [wheel, pan])
    (by simp [bytesOfWord, payloadSize])
  rcases hresult : send { s with mouseButtons := mask } usb commandRelativeMouse
    ([mask] ++ bytesOfWord (clampWord dx) ++ bytesOfWord (clampWord dy) ++ [wheel, pan])
    with ⟨s', _ | _⟩
  · rw [hresult] at hsent
    dsimp only
    apply Dealt.of_failure hsent hkeysOpen hopen
    · rfl
    · intro hsame
      dsimp only
      rw [hsame]
      rfl
    · intro hsame
      dsimp only
      rw [hsame]
      exact hleaves
  · rw [hresult] at hsent
    have htake : ∀ carried : Carried, carried.take (encodeFrame commandRelativeMouse
        (s.sequence + 1) ([mask] ++ bytesOfWord (clampWord dx) ++ bytesOfWord (clampWord dy) ++
          [wheel, pan])) = { carried with buttons := mask } := by
      intro carried
      apply Carried.take_mouse
      left
      rfl
    apply Dealt.of_success hsent hkeysOpen hopen rfl hbuttons
    · intro carried
      rw [htake]
      rfl
    · intro carried
      rw [htake, hholds]
      exact hbuttons

end BridgeState

theorem buttonsOf_update {flags data : UInt32} {mask : UInt8} :
  buttonsOf (updateMouseButtons flags data mask) =
    {i | (i ∈ buttonsOf mask ∨ presses flags data i = true) ∧ releases flags data i = false}
  := by
  ext i
  simp [buttonsOf, has_updateMouseButtons]

theorem mouseDown_flags {button : MouseButton} {flags : UInt32}
    (h : button.downFlags = some flags) :
  ∃ i, button.index = some i ∧ hasAny flags absoluteFlag = false ∧
    hasAny flags supportedFlags = true ∧
    hasAny flags (leftUp ||| rightUp ||| middleUp ||| xUp) = false ∧
    hasAny flags (leftDown ||| rightDown ||| middleDown ||| xDown) = true ∧
    mouseButtonMask flags button.data = Flags.mask i ∧
    (∀ j, presses flags button.data j = decide (j = i)) ∧
    ∀ j, releases flags button.data j = false
  := by
  cases button
  all_goals
    cases h
    try exact ⟨_, rfl, by decide, by decide, by decide, by decide, by decide, by decide, by decide⟩

theorem mouseUp_flags {button : MouseButton} {flags : UInt32}
    (h : button.upFlags = some flags) :
  ∃ i, button.index = some i ∧ hasAny flags absoluteFlag = false ∧
    hasAny flags supportedFlags = true ∧
    hasAny flags (leftUp ||| rightUp ||| middleUp ||| xUp) = true ∧
    hasAny flags (leftDown ||| rightDown ||| middleDown ||| xDown) = false ∧
    mouseButtonMask flags button.data = Flags.mask i ∧
    (∀ j, presses flags button.data j = false) ∧
    ∀ j, releases flags button.data j = decide (j = i)
  := by
  cases button
  all_goals
    cases h
    try exact ⟨_, rfl, by decide, by decide, by decide, by decide, by decide, by decide, by decide⟩

namespace BridgeState

variable {s s' : BridgeState} {usb : Usb}

/-- `mouse_down`. -/
theorem offered_mouseDown (s : BridgeState) (usb : Usb) {button : MouseButton} {flags : UInt32}
    (h : button.downFlags = some flags) :
  ∃ i, button.index = some i ∧
    Offered s usb .other (.event i true) (s.sendMouse usb flags button.data 0 0)
  := by
  obtain ⟨i, hindex, habsolute, hsupported, hup, hdown, hmask, hpresses, hreleases⟩ :=
    mouseDown_flags h
  use i, hindex
  apply Offered.dealt
  have hbuttons : buttonsOf (updateMouseButtons flags button.data s.mouseButtons) =
      mark (buttonsOf s.mouseButtons) i true := by
    rw [buttonsOf_update]
    ext j
    by_cases hsame : j = i
    · rw [hsame, mem_mark_self]
      simp [hpresses, hreleases]
    · rw [mem_mark_of_ne hsame]
      simp [hpresses, hreleases, hsame]
  apply dealt_mouse s usb 0 0 habsolute hsupported
  · rw [softwareReleasesButton, hup, Bool.false_and]
  · rintro j ⟨⟩
  · exact hbuttons
  · intro held
    rfl
  · rw [hdown, if_pos rfl, hmask]
    apply buttonsOf_set

/-- `mouse_up`. -/
theorem offered_mouseUp (s : BridgeState) (usb : Usb) {button : MouseButton} {flags : UInt32}
    (h : button.upFlags = some flags) :
  ∃ i, button.index = some i ∧
    Offered s usb .other (.event i false) (s.sendMouse usb flags button.data 0 0)
  := by
  obtain ⟨i, hindex, habsolute, hsupported, hup, hdown, hmask, hpresses, hreleases⟩ :=
    mouseUp_flags h
  use i, hindex
  have hbuttons : buttonsOf (updateMouseButtons flags button.data s.mouseButtons) =
      mark (buttonsOf s.mouseButtons) i false := by
    rw [buttonsOf_update]
    ext j
    by_cases hsame : j = i
    · rw [hsame, mem_mark_self]
      simp [hreleases]
    · rw [mem_mark_of_ne hsame]
      simp [hpresses, hreleases, hsame]
  have hkeep : s.softwareReleasesButton flags button.data = true ↔ i ∈ s.buttons.left := by
    rw [softwareReleasesButton, hup, Bool.true_and, hmask]
    rfl
  by_cases hleft : i ∈ s.buttons.left
  · have hsoftware := hkeep.mpr hleft
    rw [softwareReleasesButton] at hsoftware
    rw [sendMouse]
    dsimp only
    rw [if_neg (ne_true_of_eq_false habsolute), if_pos hsoftware]
    refine Offered.leftButton rfl rfl rfl ?_
    apply Held.Step.of_leave hleft
    · rfl
    · rfl
    · dsimp only [BridgeState.buttons]
      rw [hmask]
      apply buttonsOf_clear
  · apply Offered.dealt
    apply dealt_mouse s usb 0 0 habsolute hsupported
    · rw [← Bool.not_eq_true, hkeep]
      exact hleft
    · intro j hinput
      obtain rfl := by simpa [TwoPaths.Frame.input] using hinput
      exact hleft
    · exact hbuttons
    · intro held
      rfl
    · rw [hdown, if_neg Bool.false_ne_true]
      rfl

/-- A relative movement, or a turn of the wheel. -/
theorem offered_move (s : BridgeState) (usb : Usb) {flags : UInt32} (data : UInt32) (dx dy : Int)
    (hflags : flags = moveFlag ∨ flags = wheelFlag ∨ flags = hwheelFlag) :
  Offered s usb .other .state (s.sendMouse usb flags data dx dy)
  := by
  have hnone : ∀ i, presses flags data i = false ∧ releases flags data i = false := by
    intro i
    rcases hflags with rfl | rfl | rfl
    · exact ⟨rfl, rfl⟩
    · exact ⟨rfl, rfl⟩
    · exact ⟨rfl, rfl⟩
  have hfacts : hasAny flags absoluteFlag = false ∧ hasAny flags supportedFlags = true ∧
      hasAny flags (leftUp ||| rightUp ||| middleUp ||| xUp) = false ∧
      hasAny flags (leftDown ||| rightDown ||| middleDown ||| xDown) = false := by
    rcases hflags with rfl | rfl | rfl
    · decide
    · decide
    · decide
  obtain ⟨habsolute, hsupported, hup, hdown⟩ := hfacts
  apply Offered.dealt
  apply dealt_mouse s usb dx dy habsolute hsupported
  · rw [softwareReleasesButton, hup, Bool.false_and]
  · rintro i ⟨⟩
  · rw [buttonsOf_update]
    ext i
    simp [hnone, TwoPaths.Frame.holds]
  · intro held
    rfl
  · rw [hdown, if_neg Bool.false_ne_true]
    rfl

/-- A frame made from the mirror as it is. -/
theorem dealt_send (s : BridgeState) (usb : Usb) (command : UInt8) (payload : List UInt8)
    {buttonFrame : TwoPaths.Frame (Fin 8)} (hlen : payload.length ≤ payloadSize)
    (hframe : buttonFrame = .other ∨ buttonFrame = .state)
    (hkeys : ∀ (carried : Carried) sequence,
      (carried.take (encodeFrame command sequence payload)).keyboard = carried.keyboard)
    (hbuttons : ∀ (carried : Carried) sequence,
      buttonsOf (carried.take (encodeFrame command sequence payload)).buttons =
        buttonFrame.holds (buttonsOf s.mouseButtons) (buttonsOf carried.buttons)) :
  Dealt s usb .other buttonFrame (s.send usb command payload)
  := by
  have hkeysOpen : ∀ usage, (TwoPaths.Frame.other : TwoPaths.Frame UInt8).input =
      some (usage, false) → usage ∉ s.keys.left := by
    rintro usage ⟨⟩
  have hbuttonsOpen : ∀ i, buttonFrame.input = some (i, false) → i ∉ s.buttons.left := by
    rcases hframe with rfl | rfl
    · rintro i ⟨⟩
    · rintro i ⟨⟩
  have hsent := send_sent s usb command payload hlen
  rcases hresult : s.send usb command payload with ⟨s', _ | _⟩
  · rw [hresult] at hsent
    apply Dealt.of_failure hsent hkeysOpen hbuttonsOpen rfl
    · intro hsame
      rw [hsame]
      rfl
    · intro hsame
      rw [hsame]
      rcases hframe with rfl | rfl
      · rfl
      · rfl
  · rw [hresult] at hsent
    apply Dealt.of_success hsent hkeysOpen hbuttonsOpen rfl
    · rcases hframe with rfl | rfl
      · rfl
      · rfl
    · intro carried
      rw [hkeys]
      rfl
    · intro carried
      apply hbuttons

/-- `send_absolute_mouse`. -/
theorem offered_absoluteMouse (s : BridgeState) (usb : Usb) (x y : UInt16) :
  Offered s usb .other .state (s.sendAbsoluteMouse usb x y)
  := by
  have htake : ∀ (carried : Carried) sequence, carried.take (encodeFrame commandAbsoluteMouse
      sequence ([s.mouseButtons] ++ bytesOfWord x ++ bytesOfWord y ++ [0, 0])) =
      { carried with buttons := s.mouseButtons } := by
    intro carried sequence
    apply Carried.take_mouse
    right
    rfl
  apply Offered.dealt
  apply dealt_send
  · simp [bytesOfWord, payloadSize]
  · right
    rfl
  · intro carried sequence
    rw [htake]
  · intro carried sequence
    rw [htake]
    rfl

/-- The heartbeat. -/
theorem offered_heartbeat (s : BridgeState) (usb : Usb) :
  Offered s usb .other .other (s.heartbeat usb)
  := by
  rw [heartbeat]
  split_ifs
  · apply Offered.dealt
    apply dealt_send
    · simp
    · left
      rfl
    · intro carried sequence
      rfl
    · intro carried sequence
      rfl
  · apply Offered.kept (Or.inl rfl) (Or.inl rfl) rfl rfl

/-- `release_all`, as called by itself or by `session_ended`. -/
theorem offered_released (s : BridgeState) (usb : Usb) (activeSessions : ℕ) :
  Offered s usb .clear .clear (releaseAll { s with activeSessions } usb)
  := by
  have hkeysOpen : ∀ usage, (TwoPaths.Frame.clear : TwoPaths.Frame UInt8).input =
      some (usage, false) → usage ∉ s.keys.left := by
    rintro usage ⟨⟩
  have hbuttonsOpen : ∀ i, (TwoPaths.Frame.clear : TwoPaths.Frame (Fin 8)).input =
      some (i, false) → i ∉ s.buttons.left := by
    rintro i ⟨⟩
  have hsent := send_sent { s with activeSessions } usb commandReleaseAll [] (by simp)
  apply Offered.dealt
  rw [releaseAll]
  rcases hresult : send { s with activeSessions } usb commandReleaseAll [] with ⟨s', b⟩
  rw [hresult] at hsent
  cases hsent with
  | @written device hdevice =>
      have hbefore : s.device = some device := hdevice
      apply Dealt.written
      · rw [hbefore]
        simp
      · have hopen : s.keys.carried = some device.carried.keyboard.keys := by
          simp [BridgeState.keys, hbefore]
        apply Held.Step.of_written hopen hkeysOpen KeyboardState.keys_default
        · simp only [BridgeState.keys, Option.map_some, Device.carried_write,
            Carried.take_releaseAll, Carried.released, KeyboardState.keys_default]
          rfl
        · rfl
      · have hopen : s.buttons.carried = some (buttonsOf device.carried.buttons) := by
          simp [BridgeState.buttons, hbefore]
        apply Held.Step.of_written hopen hbuttonsOpen buttonsOf_zero
        · simp only [BridgeState.buttons, Option.map_some, Device.carried_write,
            Carried.take_releaseAll, Carried.released, buttonsOf_zero]
          rfl
        · rfl
  | reopened hreopens =>
      have hbefore : s.Reopens usb := hreopens
      apply Dealt.reopened hbefore
      · have hclosed : s.keys.carried = none := by
          simp [BridgeState.keys, hbefore.1]
        apply Held.Step.of_reopened hclosed hkeysOpen KeyboardState.keys_default
        · simp only [BridgeState.keys, Option.map_some, Device.carried_write,
            Carried.take_releaseAll, Carried.released, KeyboardState.keys_default]
          rfl
        · rfl
      · have hclosed : s.buttons.carried = none := by
          simp [BridgeState.buttons, hbefore.1]
        apply Held.Step.of_reopened hclosed hbuttonsOpen buttonsOf_zero
        · simp only [BridgeState.buttons, Option.map_some, Device.carried_write,
            Carried.take_releaseAll, Carried.released, buttonsOf_zero]
          rfl
        · rfl
  | failed hreopens hdevice hkeyboard hmask =>
      have hbefore : ¬ s.Reopens usb := hreopens
      apply Dealt.failed hbefore
      · apply Held.Step.of_failed hkeysOpen
        · simp [BridgeState.keys, hdevice]
        · simp only [BridgeState.keys, hkeyboard]
          rfl
      · apply Held.Step.of_failed hbuttonsOpen
        · simp [BridgeState.buttons, hdevice]
        · simp only [BridgeState.buttons, hmask]
          rfl

end BridgeState

/-! ### Events -/

theorem execCalls_single (usb : Usb) (s : BridgeState) (call : Call) :
  execCalls usb s [call] = call.exec s usb
  := by
  rw [execCalls]
  rcases call.exec s usb with ⟨s', _ | _⟩
  · rfl
  · rfl

/-- The second call of `mouse_move_to` does nothing. -/
theorem execCalls_moveTo (usb : Usb) (s : BridgeState) (call : Call) (x y : Int) :
  execCalls usb s [call, .mouse (moveFlag ||| absoluteFlag ||| virtualDeskFlag) 0 x y] =
    call.exec s usb
  := by
  have hrefused : ∀ s' : BridgeState,
      execCalls usb s' [.mouse (moveFlag ||| absoluteFlag ||| virtualDeskFlag) 0 x y] =
        (s', false) := by
    intro s'
    rw [execCalls_single]
    rfl
  rw [execCalls]
  rcases call.exec s usb with ⟨s', _ | _⟩
  · apply hrefused
  · rfl

namespace HostEvent

/-- The frame of an event, for the keys. -/
def keyFrame (event : HostEvent) : TwoPaths.Frame UInt8 :=
  match event.key, event with
  | some (usage, down), _ => .event usage down
  | none, releaseAll | none, sessionEnded => .clear
  | none, _ => .other

/-- The frame of an event, for the buttons. -/
def buttonFrame (event : HostEvent) : TwoPaths.Frame (Fin 8) :=
  match event.button, event with
  | some (i, down), _ => .event i down
  | none, releaseAll | none, sessionEnded => .clear
  | none, mouseMoveTo _ _ | none, mouseMoveRelative _ _ | none, mouseScrollX _
  | none, mouseScrollY _ => .state
  | none, _ => .other

theorem key_valid {event : HostEvent} {usage : UInt8} {down : Bool}
    (h : event.key = some (usage, down)) :
  ValidUsage usage
  := by
  cases event with
  | keybd profile mapVirtualKey flags vk scan =>
      obtain ⟨usage', husage, hpair⟩ := Option.map_eq_some_iff.mp h
      rw [← (Prod.mk.inj hpair).1]
      apply keyUsage_valid husage
  | simulate rawKey down =>
      obtain ⟨usage', husage, hpair⟩ := Option.map_eq_some_iff.mp h
      rw [← (Prod.mk.inj hpair).1]
      apply rawKeyUsage_valid husage
  | _ => contradiction

open BridgeState

/-- What a key event leaves. -/
theorem offered_of_key {event : HostEvent} (s : BridgeState) (usb : Usb)
    (hcalls : event.calls = (event.key.map fun (usage, down) => Call.key usage down).toList)
    (hnone : event.key = none → event.keyFrame = .other) (hbutton : event.buttonFrame = .other) :
  Offered s usb event.keyFrame event.buttonFrame (execCalls usb s event.calls)
  := by
  rw [hbutton, hcalls]
  cases hkey : event.key with
  | none =>
      rw [hnone hkey]
      exact Offered.kept (Or.inl rfl) (Or.inl rfl) rfl rfl
  | some pair =>
      have hframe : event.keyFrame = .event pair.1 pair.2 := by
        simp [keyFrame, hkey]
      rw [hframe, Option.map_some, Option.toList_some, execCalls_single]
      apply offered_key s usb (key_valid hkey)

/-- What every event leaves. -/
theorem offered (event : HostEvent) (s : BridgeState) (usb : Usb) :
  Offered s usb event.keyFrame event.buttonFrame (execCalls usb s event.calls)
  := by
  cases event with
  | keybd profile mapVirtualKey flags vk scan =>
      apply offered_of_key s usb rfl _ rfl
      intro hkey
      simp [keyFrame, hkey]
  | simulate rawKey down =>
      apply offered_of_key s usb rfl _ rfl
      intro hkey
      simp [keyFrame, hkey]
  | mouseDown button =>
      cases hflags : button.downFlags with
      | none =>
          have hindex : button.index = none := by
            cases button
            all_goals first | rfl | cases hflags
          have hframe : (mouseDown button).buttonFrame = .other := by
            simp [buttonFrame, HostEvent.button, hindex]
          rw [hframe, calls, hflags]
          exact Offered.kept (Or.inl rfl) (Or.inl rfl) rfl rfl
      | some flags =>
          obtain ⟨i, hindex, hoffered⟩ := offered_mouseDown s usb hflags
          have hframe : (mouseDown button).buttonFrame = .event i true := by
            simp [buttonFrame, HostEvent.button, hindex]
          rw [hframe, calls, hflags, Option.map_some, Option.toList_some, execCalls_single]
          exact hoffered
  | mouseUp button =>
      cases hflags : button.upFlags with
      | none =>
          have hindex : button.index = none := by
            cases button
            all_goals first | rfl | cases hflags
          have hframe : (mouseUp button).buttonFrame = .other := by
            simp [buttonFrame, HostEvent.button, hindex]
          rw [hframe, calls, hflags]
          exact Offered.kept (Or.inl rfl) (Or.inl rfl) rfl rfl
      | some flags =>
          obtain ⟨i, hindex, hoffered⟩ := offered_mouseUp s usb hflags
          have hframe : (mouseUp button).buttonFrame = .event i false := by
            simp [buttonFrame, HostEvent.button, hindex]
          rw [hframe, calls, hflags, Option.map_some, Option.toList_some, execCalls_single]
          exact hoffered
  | mouseMoveTo x y =>
      rw [calls, execCalls_moveTo]
      apply offered_absoluteMouse
  | mouseMoveRelative x y =>
      rw [calls, execCalls_single]
      apply offered_move
      left
      rfl
  | mouseScrollX length =>
      rw [calls, execCalls_single]
      apply offered_move
      right
      right
      rfl
  | mouseScrollY length =>
      rw [calls, execCalls_single]
      apply offered_move
      right
      left
      rfl
  | heartbeat =>
      rw [calls, execCalls_single]
      apply offered_heartbeat
  | releaseAll =>
      rw [calls, execCalls_single]
      apply offered_released s usb s.activeSessions
  | sessionStarted => exact Offered.kept (Or.inl rfl) (Or.inl rfl) rfl rfl
  | sessionEnded =>
      rw [calls, execCalls_single]
      rw [Call.exec, BridgeState.sessionEnded]
      dsimp only
      split_ifs
      · apply offered_released
      · exact Offered.kept (Or.inr rfl) (Or.inr rfl) rfl rfl

end HostEvent

end VynxDesk.InputBridge
