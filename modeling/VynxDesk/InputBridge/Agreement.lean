import VynxDesk.InputBridge.Mirror
import VynxDesk.Lib.Run

/-!
# Agreement of the mirror with the bridge

The calls on the state, as a transition system.  Each call leaves one of three things
(`Call.Outcome`), after what `send` does; a call that writes to the device that was open keeps the
mirror in agreement with what the device carries, and a call that opens one does when its frame
holds nothing (`Call.Clean`).
-/

namespace VynxDesk.InputBridge

/-- A call on the state. -/
inductive Call where
  | key (usage : UInt8) (down : Bool)
  | mouse (flags data : UInt32) (dx dy : Int)
  | absoluteMouse (x y : UInt16)
  | heartbeat
  | releaseAll
  | sessionStarted
  | sessionEnded
  deriving DecidableEq

/-- The button of a down flag or of an up flag, for each of the buttons that `update_mouse_buttons`
knows. -/
def buttonFlags (data : UInt32) : List (UInt32 × UInt32 × Fin 8) :=
  [(leftDown, leftUp, 0), (rightDown, rightUp, 1), (middleDown, middleUp, 2),
    (xDown, xUp, xButtonIndex data)]

/-- The event presses the button. -/
def presses (flags data : UInt32) (i : Fin 8) : Bool :=
  (buttonFlags data).any fun (down, _, j) => hasAny flags down && i == j

/-- The event releases the button. -/
def releases (flags data : UInt32) (i : Fin 8) : Bool :=
  (buttonFlags data).any fun (_, up, j) => hasAny flags up && i == j

theorem has_updateButton (flags down up : UInt32) (i j : Fin 8) (buttons : UInt8) :
  Flags.has (updateButton flags down up i buttons) j =
    ((Flags.has buttons j || (hasAny flags down && j == i)) && !(hasAny flags up && j == i))
  := by
  have hmask : Flags.has (Flags.mask i) j = (j == i) := by
    rw [Flags.has_mask, Bool.eq_iff_iff, decide_eq_true_iff, beq_iff_eq, eq_comm]
  rw [updateButton]
  cases hasAny flags down
  · cases hasAny flags up
    · simp
    · simp [hmask]
  · cases hasAny flags up
    · simp [hmask]
    · simp [hmask]

theorem xButtonIndex_cases (data : UInt32) :
  xButtonIndex data = 3 ∨ xButtonIndex data = 4
  := by
  rw [xButtonIndex]
  split_ifs
  · left
    rfl
  · right
    rfl

/-- The buttons after an event: the ones held before or pressed by it, less the ones released by
it. -/
theorem has_updateMouseButtons (flags data : UInt32) (buttons : UInt8) (i : Fin 8) :
  Flags.has (updateMouseButtons flags data buttons) i =
    ((Flags.has buttons i || presses flags data i) && !releases flags data i)
  := by
  simp only [updateMouseButtons, has_updateButton, presses, releases, buttonFlags, List.any_cons,
    List.any_nil, Bool.or_false]
  generalize Flags.has buttons i = held
  generalize hasAny flags leftDown = leftDown
  generalize hasAny flags leftUp = leftUp
  generalize hasAny flags rightDown = rightDown
  generalize hasAny flags rightUp = rightUp
  generalize hasAny flags middleDown = middleDown
  generalize hasAny flags middleUp = middleUp
  generalize hasAny flags xDown = xDown
  generalize hasAny flags xUp = xUp
  rcases xButtonIndex_cases data with hx | hx
  all_goals
    rw [hx]
    match i with
    | 0 | 1 | 2 | 3 | 4 | 5 | 6 | 7 => simp

namespace BridgeState

variable (s : BridgeState)

/-- The release of a key is left to the path that its press was left to. -/
def softwareReleasesKey (usage : UInt8) (down : Bool) : Bool :=
  !down && keyboardContains s.softwareKeyboard usage

/-- The release of a button is left to the path that its press was left to. -/
def softwareReleasesButton (flags data : UInt32) : Bool :=
  hasAny flags (leftUp ||| rightUp ||| middleUp ||| xUp) &&
    s.softwareMouseButtons &&& mouseButtonMask flags data ≠ 0

end BridgeState

namespace Call

variable (s : BridgeState) (usb : Usb)

/-- What a call leaves, and whether it returns `true`. -/
def exec : Call → BridgeState × Bool
  | key usage down => s.sendKeyboardUsage usb usage down
  | mouse flags data dx dy => s.sendMouse usb flags data dx dy
  | absoluteMouse x y => s.sendAbsoluteMouse usb x y
  | heartbeat => s.heartbeat usb
  | releaseAll => s.releaseAll usb
  | sessionStarted => (s.sessionStarted, false)
  | sessionEnded => s.sessionEnded usb

/-- What the frame of a call makes of what a device carries. -/
def effect (carried : Carried) : Call → Carried
  | key usage down =>
      { carried with keyboard := (setKeyboardUsage s.keyboard usage down).getD s.keyboard }
  | mouse flags data _ _ =>
      { carried with buttons := updateMouseButtons flags data s.mouseButtons }
  | absoluteMouse _ _ => { carried with buttons := s.mouseButtons }
  | heartbeat | sessionStarted => carried
  | releaseAll | sessionEnded => .released

/-- The event of a call is about the key. -/
def AboutKey (usage : UInt8) : Call → Prop
  | key usage' _ => usage = usage'
  | _ => False

/-- The event of a call is about the button. -/
def AboutButton (i : Fin 8) : Call → Prop
  | mouse flags data _ _ => presses flags data i = true ∨ releases flags data i = true
  | _ => False

/-- Should the frame of the call open a device, there is nothing that it holds: a key event is the
release of the only key that the host takes to be held, a mouse event releases each button that it
presses or that the host takes to be held, and a pointer position comes with no button held. -/
def Clean : Call → Prop
  | key usage down =>
      ValidUsage usage → s.softwareReleasesKey usage down = false →
        down = false ∧ ∀ usage', keyboardContains s.keyboard usage' = true → usage' = usage
  | mouse flags data _ _ =>
      hasAny flags absoluteFlag = false → hasAny flags supportedFlags = true →
        s.softwareReleasesButton flags data = false →
        ∀ i, Flags.has s.mouseButtons i = true ∨ presses flags data i = true →
          releases flags data i = true
  | absoluteMouse _ _ => s.mouseButtons = 0
  | _ => True

/-- What a call leaves: no frame was written; its frame was written to the device that was open; or
its frame was written to a device opened for it, and the mirror is the released state. -/
inductive Outcome (call : Call) : BridgeState × Bool → Prop where
  | kept {s' : BridgeState} (hclean : s.Reopens usb → call.Clean s)
      (hdevice : s'.device = none ∨ (s'.device = s.device ∧ s'.mirror = s.mirror)) :
      Outcome call (s', false)
  | written {s' : BridgeState} {device : Device} {frame : List UInt8}
      (hframe : ∀ carried : Carried, carried.take frame = call.effect s carried)
      (hbefore : s.device = some device) (hdevice : s'.device = some (device.write frame))
      (hmirror : s'.mirror = call.effect s s.mirror) :
      Outcome call (s', true)
  | reopened {s' : BridgeState} {frame : List UInt8}
      (hframe : ∀ carried : Carried, carried.take frame = call.effect s carried)
      (hreopens : s.Reopens usb) (hdevice : s'.device = some (Device.write ⟨[]⟩ frame))
      (hmirror : s'.mirror = .released)
      (hclean : call.effect s .released = .released ↔ call.Clean s) :
      Outcome call (s', true)

open BridgeState

variable {s : BridgeState} {usb : Usb}

/-- The keyboard state with one usage released, or pressed, is empty. -/
theorem setKeyboardUsage_eq_default {state state' : KeyboardState} {usage : UInt8} {down : Bool}
    (h : setKeyboardUsage state usage down = some state') :
  state' = .default ↔ down = false ∧ ∀ usage', keyboardContains state usage' = true → usage' = usage
  := by
  constructor
  · rintro rfl
    have hset := keyboardContains_set h
    simp only [keyboardContains_default] at hset
    constructor
    · simpa using (hset usage).symm
    · intro usage' hcontains
      by_contra hne
      have := hset usage'
      rw [if_neg hne, hcontains] at this
      cases this
  · rintro ⟨rfl, honly⟩
    apply KeyboardState.ext_contains
    intro usage'
    rw [keyboardContains_set h, keyboardContains_default]
    split_ifs with heq
    · rfl
    · rw [Bool.eq_false_iff]
      intro hcontains
      exact heq (honly usage' hcontains)

/-- The buttons after an event are none when it releases each one held before or pressed by it. -/
theorem updateMouseButtons_eq_zero (flags data : UInt32) (buttons : UInt8) :
  updateMouseButtons flags data buttons = 0 ↔
    ∀ i, Flags.has buttons i = true ∨ presses flags data i = true → releases flags data i = true
  := by
  rw [Flags.eq_zero_iff]
  apply forall_congr'
  intro i
  rw [has_updateMouseButtons]
  cases Flags.has buttons i
  · cases presses flags data i
    · simp
    · simp
  · cases presses flags data i
    · simp
    · simp

/-- A caller of `send` that changed no more than the mirror before it, to what its frame carries,
and that leaves it at that when the frame was written. -/
theorem Outcome.of_success {call : Call} {keyboard : KeyboardState} {buttons : UInt8}
    {frame : List UInt8} {s' : BridgeState}
    (hsent : Sent { s with keyboard, mouseButtons := buttons } usb frame (s', true))
    (htake : ∀ carried : Carried, carried.take frame = call.effect s carried)
    (hmirror : call.effect s s.mirror = ⟨keyboard, buttons⟩)
    (hclean : call.effect s .released = .released ↔ call.Clean s) :
  Outcome s usb call (s', true)
  := by
  cases hsent with
  | @written device hdevice =>
      have hbefore : s.device = some device := hdevice
      apply Outcome.written htake hbefore rfl
      rw [hmirror]
      rfl
  | reopened hreopens =>
      have hbefore : s.Reopens usb := hreopens
      exact Outcome.reopened htake hbefore rfl rfl hclean

/-- A caller of `send` that changed no more than the mirror before it, and leaves the device alone
after it failed. -/
theorem Outcome.of_failure {call : Call} {keyboard : KeyboardState} {buttons : UInt8}
    {frame : List UInt8} {s' s'' : BridgeState}
    (hsent : Sent { s with keyboard, mouseButtons := buttons } usb frame (s', false))
    (hdevice : s''.device = s'.device) :
  Outcome s usb call (s'', false)
  := by
  cases hsent with
  | failed hreopens hnone =>
      apply Outcome.kept
      · intro h
        exact absurd h hreopens
      · left
        rw [hdevice]
        exact hnone

/-- `send_keyboard_usage`. -/
theorem outcome_key (s : BridgeState) (usb : Usb) (usage : UInt8) (down : Bool) :
  Outcome s usb (key usage down) (s.sendKeyboardUsage usb usage down)
  := by
  rw [sendKeyboardUsage]
  by_cases hsoftware : (!down && keyboardContains s.softwareKeyboard usage) = true
  · rw [if_pos hsoftware]
    apply Outcome.kept
    · intro _ _ hkeep
      rw [softwareReleasesKey, hsoftware] at hkeep
      cases hkeep
    · right
      exact ⟨rfl, rfl⟩
  · rw [if_neg hsoftware]
    cases hset : setKeyboardUsage s.keyboard usage down with
    | none =>
        apply Outcome.kept
        · intro _ hvalid
          obtain ⟨state', h⟩ := setKeyboardUsage_of_valid hvalid s.keyboard down
          rw [hset] at h
          cases h
        · right
          exact ⟨rfl, rfl⟩
    | some keyboard =>
        have heffect : ∀ carried : Carried, (key usage down).effect s carried =
            { carried with keyboard } := by
          intro carried
          simp [effect, hset]
        have hsent := send_sent { s with keyboard } usb commandKeyboardState
          (keyboardPayload keyboard) (by simp [payloadSize])
        dsimp only
        rcases hresult : send { s with keyboard } usb commandKeyboardState
          (keyboardPayload keyboard) with ⟨s', _ | _⟩
        · rw [hresult] at hsent
          exact Outcome.of_failure hsent rfl
        · rw [hresult] at hsent
          apply Outcome.of_success hsent
          · intro carried
            rw [heffect]
            apply Carried.take_keyboard
          · rw [heffect]
            rfl
          · rw [heffect, Carried.released, Carried.mk.injEq, setKeyboardUsage_eq_default hset]
            simp only [Clean, softwareReleasesKey, hsoftware, valid_of_setKeyboardUsage hset,
              and_true, forall_const]

/-- `send_mouse`. -/
theorem outcome_mouse (s : BridgeState) (usb : Usb) (flags data : UInt32) (dx dy : Int) :
  Outcome s usb (mouse flags data dx dy) (s.sendMouse usb flags data dx dy)
  := by
  rw [sendMouse]
  by_cases habsolute : hasAny flags absoluteFlag = true
  · rw [if_pos habsolute]
    apply Outcome.kept
    · intro _ h
      rw [habsolute] at h
      cases h
    · right
      exact ⟨rfl, rfl⟩
  rw [if_neg habsolute]
  dsimp only
  by_cases hsoftware : (hasAny flags (leftUp ||| rightUp ||| middleUp ||| xUp) &&
      s.softwareMouseButtons &&& mouseButtonMask flags data ≠ 0) = true
  · rw [if_pos hsoftware]
    apply Outcome.kept
    · intro _ _ _ hkeep
      rw [softwareReleasesButton, hsoftware] at hkeep
      cases hkeep
    · right
      exact ⟨rfl, rfl⟩
  rw [if_neg hsoftware]
  by_cases hsupported : hasAny flags supportedFlags = true
  · rw [hsupported, Bool.not_true, if_neg Bool.false_ne_true]
    generalize (if hasAny flags wheelFlag = true then wheelDelta data else 0) = wheel
    generalize (if hasAny flags hwheelFlag = true then wheelDelta data else 0) = pan
    generalize hbuttons : updateMouseButtons flags data s.mouseButtons = buttons
    have heffect : ∀ carried : Carried, (mouse flags data dx dy).effect s carried =
        { carried with buttons } := by
      intro carried
      rw [← hbuttons]
      rfl
    have hsent := send_sent { s with mouseButtons := buttons } usb commandRelativeMouse
      ([buttons] ++ bytesOfWord (clampWord dx) ++ bytesOfWord (clampWord dy) ++
        [wheel, pan]) (by simp [bytesOfWord, payloadSize])
    rcases hresult : send { s with mouseButtons := buttons } usb commandRelativeMouse
      ([buttons] ++ bytesOfWord (clampWord dx) ++ bytesOfWord (clampWord dy) ++ [wheel, pan])
      with ⟨s', _ | _⟩
    · rw [hresult] at hsent
      exact Outcome.of_failure hsent rfl
    · rw [hresult] at hsent
      apply Outcome.of_success hsent
      · intro carried
        rw [heffect]
        apply Carried.take_mouse
        left
        rfl
      · rw [heffect]
        rfl
      · rw [heffect, Carried.released, Carried.mk.injEq, ← hbuttons, updateMouseButtons_eq_zero]
        rw [← softwareReleasesButton] at hsoftware
        simp only [Clean, habsolute, hsupported, hsoftware, true_and, forall_const]
  · rw [Bool.not_eq_true] at hsupported
    rw [hsupported, Bool.not_false, if_pos rfl]
    apply Outcome.kept
    · intro _ _ h
      rw [hsupported] at h
      cases h
    · right
      exact ⟨rfl, rfl⟩

/-- `send_absolute_mouse`. -/
theorem outcome_absoluteMouse (s : BridgeState) (usb : Usb) (x y : UInt16) :
  Outcome s usb (absoluteMouse x y) (s.sendAbsoluteMouse usb x y)
  := by
  rw [sendAbsoluteMouse]
  have hsent := send_sent s usb commandAbsoluteMouse
    ([s.mouseButtons] ++ bytesOfWord x ++ bytesOfWord y ++ [0, 0])
    (by simp [bytesOfWord, payloadSize])
  rcases hresult : send s usb commandAbsoluteMouse
    ([s.mouseButtons] ++ bytesOfWord x ++ bytesOfWord y ++ [0, 0]) with ⟨s', _ | _⟩
  · rw [hresult] at hsent
    exact Outcome.of_failure hsent rfl
  · rw [hresult] at hsent
    apply Outcome.of_success hsent
    · intro carried
      apply Carried.take_mouse
      right
      rfl
    · rfl
    · simp [effect, Clean, Carried.released]

/-- The heartbeat. -/
theorem outcome_heartbeat (s : BridgeState) (usb : Usb) :
  Outcome s usb heartbeat (s.heartbeat usb)
  := by
  have hkept : Outcome s usb heartbeat (s, false) := by
    apply Outcome.kept
    · intro _
      trivial
    · right
      exact ⟨rfl, rfl⟩
  rw [BridgeState.heartbeat]
  split_ifs with hturn
  · have hsent := send_sent s usb commandHeartbeat [] (by simp)
    rcases hresult : send s usb commandHeartbeat [] with ⟨s', _ | _⟩
    · rw [hresult] at hsent
      exact Outcome.of_failure hsent rfl
    · rw [hresult] at hsent
      apply Outcome.of_success hsent
      · intro carried
        apply Carried.take_heartbeat
      · rfl
      · simp [effect, Clean]
  · exact hkept

/-- `release_all`, as called by itself or by `session_ended`. -/
theorem outcome_released {call : Call} (hcall : call = releaseAll ∨ call = sessionEnded)
    (s : BridgeState) (usb : Usb) (activeSessions : ℕ) :
  Outcome s usb call (BridgeState.releaseAll { s with activeSessions } usb)
  := by
  have heffect : ∀ carried : Carried, call.effect s carried = .released := by
    intro carried
    rcases hcall with rfl | rfl
    · rfl
    · rfl
  have hclean : call.Clean s := by
    rcases hcall with rfl | rfl
    · trivial
    · trivial
  have hsent := send_sent { s with activeSessions } usb commandReleaseAll [] (by simp)
  have htake : ∀ carried : Carried, carried.take (encodeFrame commandReleaseAll (s.sequence + 1) [])
      = call.effect s carried := by
    intro carried
    rw [heffect]
    apply Carried.take_releaseAll
  rw [BridgeState.releaseAll]
  rcases hresult : send { s with activeSessions } usb commandReleaseAll [] with ⟨s', b⟩
  rw [hresult] at hsent
  cases hsent with
  | @written device hdevice =>
      have hbefore : s.device = some device := hdevice
      apply Outcome.written htake hbefore rfl
      rw [heffect]
      rfl
  | reopened hreopens =>
      have hbefore : s.Reopens usb := hreopens
      apply Outcome.reopened htake hbefore rfl rfl
      rw [heffect]
      simp only [hclean]
  | failed hreopens hdevice =>
      apply Outcome.kept
      · intro _
        exact hclean
      · left
        exact hdevice

/-- What every call leaves. -/
theorem outcome (s : BridgeState) (usb : Usb) (call : Call) :
  Outcome s usb call (call.exec s usb)
  := by
  cases call with
  | key usage down => apply outcome_key
  | mouse flags data dx dy => apply outcome_mouse
  | absoluteMouse x y => apply outcome_absoluteMouse
  | heartbeat => apply outcome_heartbeat
  | releaseAll => apply outcome_released (Or.inl rfl) s usb s.activeSessions
  | sessionStarted =>
      apply Outcome.kept
      · intro _
        trivial
      · right
        exact ⟨rfl, rfl⟩
  | sessionEnded =>
      rw [exec, BridgeState.sessionEnded]
      dsimp only
      split_ifs with hlast
      · apply outcome_released (Or.inr rfl)
      · apply Outcome.kept
        · intro _
          trivial
        · right
          exact ⟨rfl, rfl⟩

/-- When a call returned `true`, there is a device; the host takes to be held what the reports
written to it carry; and when there was no device before, the frame of the call holds no key and no
button other than the ones its event is about. -/
def Agrees (s : BridgeState) (usb : Usb) (call : Call) : Prop :=
  (call.exec s usb).2 = true →
    ∃ device, (call.exec s usb).1.device = some device ∧
      (call.exec s usb).1.mirror = device.carried ∧
      (s.device = none →
        (∀ usage, keyboardContains device.carried.keyboard usage = true → call.AboutKey usage) ∧
          ∀ i, Flags.has device.carried.buttons i = true → call.AboutButton i)

/-- While a device is open, the host takes to be held what the reports written to it carry. -/
def Mirrored (s : BridgeState) : Prop :=
  ∀ device, s.device = some device → s.mirror = device.carried

/-- A clean call of a state that mirrors its device leaves such a state, and in agreement. -/
theorem step_of_clean {call : Call} (hmirrored : Mirrored s)
    (hclean : s.Reopens usb → call.Clean s) :
  call.Agrees s usb ∧ Mirrored (call.exec s usb).1
  := by
  have houtcome := outcome s usb call
  rw [Agrees]
  revert houtcome
  generalize call.exec s usb = r
  intro houtcome
  cases houtcome with
  | kept _ hdevice =>
      constructor
      · rintro ⟨⟩
      · intro device hopen
        rcases hdevice with hnone | ⟨hsame, hmirror⟩
        · rw [hnone] at hopen
          cases hopen
        · rw [hmirror]
          apply hmirrored
          rw [← hsame]
          exact hopen
  | @written s' device frame hframe hbefore hdevice hmirror =>
      have hcarried : s'.mirror = (device.write frame).carried := by
        rw [hmirror, Device.carried_write, hframe, hmirrored device hbefore]
      constructor
      · intro _
        use device.write frame, hdevice, hcarried
        intro hnone
        rw [hbefore] at hnone
        cases hnone
      · intro device' hopen
        rw [hdevice, Option.some.injEq] at hopen
        rw [hcarried, hopen]
  | @reopened s' frame hframe hreopens hdevice hmirror hiff =>
      have hreleased : (Device.write ⟨[]⟩ frame).carried = .released := by
        rw [Device.carried_write, Device.carried_nil, hframe, hiff]
        apply hclean hreopens
      constructor
      · intro _
        use Device.write ⟨[]⟩ frame, hdevice
        rw [hmirror, hreleased]
        simp [Carried.released]
      · intro device' hopen
        rw [hdevice, Option.some.injEq] at hopen
        rw [hmirror, ← hopen, hreleased]

/-- A call that opens a device and leaves the mirror in agreement is clean. -/
theorem clean_of_agrees {call : Call} (hagrees : call.Agrees s usb) (hreopens : s.Reopens usb) :
  call.Clean s
  := by
  have houtcome := outcome s usb call
  rw [Agrees] at hagrees
  revert houtcome hagrees
  generalize call.exec s usb = r
  intro hagrees houtcome
  cases houtcome with
  | kept hclean =>
      apply hclean hreopens
  | written _ hbefore =>
      rw [hreopens.1] at hbefore
      cases hbefore
  | reopened hframe _ hdevice hmirror hiff =>
      obtain ⟨device, hopen, hcarried, _⟩ := hagrees rfl
      rw [hdevice, Option.some.injEq] at hopen
      rw [← hopen, hmirror, Device.carried_write, Device.carried_nil, hframe] at hcarried
      apply hiff.mp hcarried.symm

/-- A call is made, and the system answers. -/
def Step (s : BridgeState) (label : Call × Usb) (s' : BridgeState) : Prop :=
  s' = (label.1.exec s label.2).1

/-- Along every run, each call that returns `true` leaves the mirror in agreement with the bridge
exactly when each call that opens a device is clean. -/
theorem mirrorAgrees_iff_of_run {ids : Option (UInt16 × UInt16)} {now : Int}
    {h : List (BridgeState × Call × Usb)} {s : BridgeState}
    (hrun : Run Step (.new ids now) h s) :
  (∀ x ∈ h, x.2.1.Agrees x.1 x.2.2) ↔ ∀ x ∈ h, x.1.Reopens x.2.2 → x.2.1.Clean x.1
  := by
  constructor
  · intro hagrees x hx
    apply clean_of_agrees (hagrees x hx)
  · intro hclean x hx
    obtain ⟨before, after, rfl⟩ := List.append_of_mem hx
    have hmirrored : Mirrored x.1 := by
      apply hrun.before.1.invariant_of (fun s label => s.Reopens label.2 → label.1.Clean s) Mirrored
      · intro device hopen
        cases hopen
      · rintro s label _ hs hlabel rfl
        apply (step_of_clean hs hlabel).2
      · intro y hy
        apply hclean
        apply List.mem_append_left _ hy
    apply (step_of_clean hmirrored (hclean x hx)).1

/-- What a call leads to. -/
def next (s : BridgeState) (label : Call × Usb) : BridgeState := (label.1.exec s label.2).1

/-- Every list of calls is a run. -/
theorem run_next (s : BridgeState) (labels : List (Call × Usb)) :
  Run Step s (Run.trace next s labels) (labels.foldl next s)
  := by
  apply Run.of_next
  intro s label
  rfl

/-- Compatible ids. -/
def sampleIds : Option (UInt16 × UInt16) := some (0x1209, 1)

/-- The device is there and takes the frame. -/
def sampleUsb (now : Int) : Usb := ⟨now, true, some hostFrameSize⟩

/-- A bridge opened by `release_all` and a key pressed after it. -/
def samplePressed : List (Call × Usb) :=
  [(releaseAll, sampleUsb 0), (key 4 true, sampleUsb 10)]

theorem mirrorAgrees_pressed :
  Run Step (.new sampleIds 0) (Run.trace next (.new sampleIds 0) samplePressed)
      (samplePressed.foldl next (.new sampleIds 0))
    ∧ ∀ x ∈ Run.trace next (.new sampleIds 0) samplePressed, x.2.1.Agrees x.1 x.2.2
  := by
  use run_next _ samplePressed
  apply (mirrorAgrees_iff_of_run (run_next _ samplePressed)).mpr
  simp only [samplePressed, Run.trace, List.forall_mem_cons]
  constructor
  · intro _
    trivial
  · constructor
    · intro hreopens
      have hopen : (next (.new sampleIds 0) (releaseAll, sampleUsb 0)).device ≠ none := by
        decide +kernel
      exact absurd hreopens.1 hopen
    · simp

/-- A bridge opened by a pointer position, a key pressed on it, the release of the key that the
device no longer takes, and a second key pressed a second later. -/
def sampleReconnection : List (Call × Usb) :=
  [(absoluteMouse 0 0, sampleUsb 0), (key 4 true, sampleUsb 10), (key 4 false, ⟨20, false, none⟩)]

/-- The frame of the second key also holds the first one. -/
theorem not_mirrorAgrees_reconnected :
  ¬ ∀ h s, Run Step (.new sampleIds 0) h s → ∀ x ∈ h, x.2.1.Agrees x.1 x.2.2
  := by
  intro hall
  set s := sampleReconnection.foldl next (.new sampleIds 0) with hs
  have hrun := (run_next (.new sampleIds 0) sampleReconnection).snoc
    (show Step s (key 6 true, sampleUsb 1020) _ from rfl)
  have hagrees := hall _ _ hrun (s, key 6 true, sampleUsb 1020) (by simp [hs])
  have htrue : ((key 6 true).exec s (sampleUsb 1020)).2 = true := by
    rw [hs]
    decide +kernel
  have hheld : ((key 6 true).exec s (sampleUsb 1020)).1.device.map
      (fun device => keyboardContains device.carried.keyboard 4) = some true := by
    rw [hs]
    decide +kernel
  have hnone : s.device = none := by
    rw [hs]
    decide +kernel
  obtain ⟨device, hopen, _, hown⟩ := hagrees htrue
  rw [hopen, Option.map_some, Option.some.injEq] at hheld
  have habout : (4 : UInt8) = 6 := (hown hnone).1 4 hheld
  exact absurd habout (by decide)

end Call

end VynxDesk.InputBridge
