import VynxDesk.InputBridge.Offer
import VynxDesk.Lib.Run

/-!
# No stuck input

The keys and the buttons of a desk are each a system of two paths, the bridge and the Windows input
path, and every event is an act of both.  So an input whose last event was a release is held on
neither path, exactly as long as every event meets the condition of `Desk.Meets`.
-/

namespace VynxDesk.InputBridge

open TwoPaths (Held Paths Act mark mem_mark_self mem_mark_of_ne)

namespace HostEvent

variable {event : HostEvent}

@[simp]
theorem input_keyFrame :
  event.keyFrame.input = event.key
  := by
  unfold keyFrame
  split
  all_goals simp_all [TwoPaths.Frame.input]

@[simp]
theorem input_buttonFrame :
  event.buttonFrame.input = event.button
  := by
  unfold buttonFrame
  split
  all_goals simp_all [TwoPaths.Frame.input]

/-- No event is of a key and of a button. -/
theorem button_of_key {pair : UInt8 × Bool} (h : event.key = some pair) :
  event.button = none
  := by
  cases event with
  | mouseDown => cases h
  | mouseUp => cases h
  | _ => rfl

theorem input_key {usage : UInt8} {down : Bool} :
  event.input = some (.key usage, down) ↔ event.key = some (usage, down)
  := by
  rw [input]
  cases hkey : event.key with
  | none => simp
  | some pair => simp [Prod.ext_iff]

theorem input_button {i : Fin 8} {down : Bool} :
  event.input = some (.button i, down) ↔ event.button = some (i, down)
  := by
  rw [input]
  cases hkey : event.key with
  | none => simp [Prod.ext_iff]
  | some pair => simp [button_of_key hkey]

/-- An event's frame changes the input of the event alone. -/
theorem mem_holds_event {ι : Type} {kept : Set ι} {x y : ι} {down : Bool} :
  (x ∈ (TwoPaths.Frame.event y down).holds kept ∅ ∧ ∀ b, (y, down) ≠ (x, b)) ↔ x ≠ y ∧ x ∈ kept
  := by
  rw [TwoPaths.Frame.holds]
  by_cases hsame : x = y
  · simp [hsame]
  · simp [mem_mark_of_ne hsame, hsame, Ne.symm hsame]

/-- What a frame carries from the mirror to a device opened for it, for the keys. -/
theorem mem_holds_keyFrame {kept : Set UInt8} {usage : UInt8} :
  (usage ∈ event.keyFrame.holds kept ∅ ∧ ∀ down, event.key ≠ some (usage, down)) ↔
    event.Carries (.key usage) ∧ usage ∈ kept
  := by
  cases hkey : event.key with
  | none =>
      have hnone : event.keyFrame.holds kept ∅ = ∅ := by
        unfold keyFrame
        rw [hkey]
        split
        all_goals first | rfl | contradiction
      simp [hnone, Carries, hkey]
  | some pair =>
      obtain ⟨usage', down⟩ := pair
      have hframe : event.keyFrame = .event usage' down := by
        simp [keyFrame, hkey]
      simp only [hframe, ne_eq, Option.some.injEq]
      rw [mem_holds_event]
      simp [Carries, hkey]

/-- What a frame carries from the mirror to a device opened for it, for the buttons. -/
theorem mem_holds_buttonFrame {kept : Set (Fin 8)} {i : Fin 8} :
  (i ∈ event.buttonFrame.holds kept ∅ ∧ ∀ down, event.button ≠ some (i, down)) ↔
    event.Carries (.button i) ∧ i ∈ kept
  := by
  cases hbutton : event.button with
  | none =>
      cases event with
      | mouseDown => simp [buttonFrame, hbutton, Carries, moves, TwoPaths.Frame.holds]
      | mouseUp => simp [buttonFrame, hbutton, Carries, moves, TwoPaths.Frame.holds]
      | _ => simp [buttonFrame, button, Carries, moves, TwoPaths.Frame.holds]
  | some pair =>
      obtain ⟨i', down⟩ := pair
      have hframe : event.buttonFrame = .event i' down := by
        simp [buttonFrame, hbutton]
      have hkind : event.moves = false := by
        cases event with
        | mouseMoveTo => cases hbutton
        | mouseMoveRelative => cases hbutton
        | mouseScrollX => cases hbutton
        | mouseScrollY => cases hbutton
        | _ => rfl
      simp only [hframe, ne_eq, Option.some.injEq]
      rw [mem_holds_event]
      simp [Carries, hbutton, hkind]

end HostEvent

/-! ### The two systems of a desk -/

@[simp]
theorem lastEvent_append (log : List (Input × Bool)) (x y : Input) (down : Bool) :
  lastEvent (log ++ [(y, down)]) x = if y = x then some down else lastEvent log x
  := by
  simp [lastEvent]

namespace Desk

variable {d : Desk} {event : HostEvent} {usb : Usb}

/-- The inputs of one kind: what the bridge knows of them, with their last events. -/
def paths {ι : Type} (d : Desk) (name : ι → Input) (held : Held ι) : Paths ι where
  toHeld := held
  second := {x | lastEvent d.windows (name x) = some true}
  lifted := {x | lastEvent d.events (name x) = some false}

/-- The keys of a desk. -/
def keys (d : Desk) : Paths UInt8 := d.paths .key d.bridge.keys

/-- The buttons of a desk. -/
def buttons (d : Desk) : Paths (Fin 8) := d.paths .button d.bridge.buttons

/-- What the open device holds of the keys. -/
theorem forall_carried_keys {usage : UInt8} :
  (∀ held, d.keys.carried = some held → usage ∉ held) ↔
    ∀ device, d.bridge.device = some device → ¬ device.Holds (.key usage)
  := by
  simp only [keys, paths, BridgeState.keys, Option.map_eq_some_iff, forall_exists_index, and_imp,
    forall_apply_eq_imp_iff₂]
  rfl

/-- What the open device holds of the buttons. -/
theorem forall_carried_buttons {i : Fin 8} :
  (∀ held, d.buttons.carried = some held → i ∉ held) ↔
    ∀ device, d.bridge.device = some device → ¬ device.Holds (.button i)
  := by
  simp only [buttons, paths, BridgeState.buttons, Option.map_eq_some_iff, forall_exists_index,
    and_imp, forall_apply_eq_imp_iff₂]
  rfl

/-- Nothing is stuck when nothing released is held, among the keys and among the buttons. -/
theorem noneStuck_iff :
  d.NoneStuck ↔ d.keys.Clear ∧ d.buttons.Clear
  := by
  constructor
  · intro hnone
    constructor
    · constructor
      · intro held hopen usage hlifted
        apply forall_carried_keys.mpr (hnone (.key usage) hlifted).1 held hopen
      · intro usage hlifted
        apply (hnone (.key usage) hlifted).2
    · constructor
      · intro held hopen i hlifted
        apply forall_carried_buttons.mpr (hnone (.button i) hlifted).1 held hopen
      · intro i hlifted
        apply (hnone (.button i) hlifted).2
  · rintro ⟨hkeys, hbuttons⟩ x hlifted
    cases x with
    | key usage =>
        constructor
        · apply forall_carried_keys.mp
          intro held hopen
          apply hkeys.device held hopen usage hlifted
        · apply hkeys.second usage hlifted
    | button i =>
        constructor
        · apply forall_carried_buttons.mp
          intro held hopen
          apply hbuttons.device held hopen i hlifted
        · apply hbuttons.second i hlifted

/-- The bridge after an event, and whether it took the event. -/
def offer (d : Desk) (label : HostEvent × Usb) : BridgeState × Bool :=
  execCalls label.2 d.bridge label.1.calls

section Paths

variable {ι : Type} {name : ι → Input} {input : Option (ι × Bool)}

/-- An event that is of no input of the kind leaves their last events alone. -/
theorem lastEvent_of_none
    (hname : ∀ x down, event.input = some (name x, down) ↔ input = some (x, down))
    (log : List (Input × Bool)) (h : input = none) (x : ι) :
  lastEvent (log ++ event.input.toList) (name x) = lastEvent log (name x)
  := by
  cases hevent : event.input with
  | none => simp
  | some pair =>
      obtain ⟨y, down⟩ := pair
      have hne : y ≠ name x := by
        rintro rfl
        rw [(hname x down).mp hevent] at h
        cases h
      simp [hne]

/-- An event of an input of the kind is its last one. -/
theorem lastEvent_of_some (hinjective : Function.Injective name)
    (hname : ∀ x down, event.input = some (name x, down) ↔ input = some (x, down))
    (log : List (Input × Bool)) {x : ι} {down : Bool} (h : input = some (x, down)) (b : Bool) :
  {y | lastEvent (log ++ event.input.toList) (name y) = some b} =
    mark {y | lastEvent log (name y) = some b} x (down == b)
  := by
  ext y
  rw [(hname x down).mpr h, Option.toList_some]
  by_cases hsame : y = x
  · rw [hsame, mem_mark_self]
    simp
  · have hne : name x ≠ name y := by
      intro heq
      exact hsame (hinjective heq.symm)
    rw [mem_mark_of_ne hsame]
    simp [hne]

/-- An act of what the bridge knows of the inputs of a kind is an act of their paths. -/
theorem paths_step (hinjective : Function.Injective name)
    (hname : ∀ x down, event.input = some (name x, down) ↔ input = some (x, down))
    {held held' : Held ι} {act : Act ι} (hheld : Held.Step held act held')
    (hinput : act.input = input)
    (hpasses : ∀ pair, input = some pair → (act.Passes ↔ (d.offer (event, usb)).2 = false)) :
  Paths.Step (d.paths name held) act ((d.next (event, usb)).paths name held')
  := by
  have hwindows : (d.next (event, usb)).windows = if (d.offer (event, usb)).2 then d.windows
      else d.windows ++ event.input.toList := rfl
  have hevents : (d.next (event, usb)).events = d.events ++ event.input.toList := rfl
  unfold paths
  rw [hwindows, hevents]
  constructor
  · exact hheld
  · intro hnone
    rw [hinput] at hnone
    constructor
    · split_ifs
      · rfl
      · simp only [lastEvent_of_none hname d.windows hnone]
    · simp only [lastEvent_of_none hname d.events hnone]
  · intro x down hsome
    rw [hinput] at hsome
    dsimp only
    rw [lastEvent_of_some hinjective hname d.events hsome false]
    cases down
    · rfl
    · rfl
  · intro x down hsome hpass
    rw [hinput] at hsome
    rw [hpasses _ hsome] at hpass
    dsimp only
    rw [hpass, if_neg Bool.false_ne_true, lastEvent_of_some hinjective hname d.windows hsome true]
    cases down
    · rfl
    · rfl
  · intro x down hsome hpass
    rw [hinput] at hsome
    rw [hpasses _ hsome, Bool.not_eq_false] at hpass
    dsimp only
    rw [hpass, if_pos rfl]

end Paths

/-- Acts of what the bridge knows of the keys and of the buttons are acts of the keys and of the
buttons. -/
theorem steps_of_held {keyAct : Act UInt8} {buttonAct : Act (Fin 8)} {s' : BridgeState}
    {taken : Bool} (hoffer : d.offer (event, usb) = (s', taken))
    (hkeys : Held.Step d.bridge.keys keyAct s'.keys)
    (hbuttons : Held.Step d.bridge.buttons buttonAct s'.buttons)
    (hkeyInput : keyAct.input = event.key) (hbuttonInput : buttonAct.input = event.button)
    (hkeyPasses : ∀ pair, event.key = some pair → (keyAct.Passes ↔ taken = false))
    (hbuttonPasses : ∀ pair, event.button = some pair → (buttonAct.Passes ↔ taken = false)) :
  Paths.Step d.keys keyAct (d.next (event, usb)).keys ∧
    Paths.Step d.buttons buttonAct (d.next (event, usb)).buttons
  := by
  have hbridge : (d.next (event, usb)).bridge = s' := congrArg Prod.fst hoffer
  have htaken : (d.offer (event, usb)).2 = taken := congrArg Prod.snd hoffer
  unfold keys buttons
  rw [hbridge]
  constructor
  · apply paths_step _ _ hkeys hkeyInput
    · rw [htaken]
      exact hkeyPasses
    · intro usage usage' h
      exact Input.key.inj h
    · intro usage down
      exact HostEvent.input_key
  · apply paths_step _ _ hbuttons hbuttonInput
    · rw [htaken]
      exact hbuttonPasses
    · intro i i' h
      exact Input.button.inj h
    · intro i down
      exact HostEvent.input_button

/-- The condition on an event that nothing is left of to the Windows input path and that no device
is opened for. -/
theorem meets_of_sent
    (hkeys : ∀ usage, event.key = some (usage, false) → usage ∉ d.bridge.keys.left)
    (hbuttons : ∀ i, event.button = some (i, false) → i ∉ d.bridge.buttons.left)
    (hreopens : ¬ d.bridge.Reopens usb) :
  d.Meets (event, usb)
  := by
  constructor
  · intro x hinput hleaves
    cases x with
    | key usage => exact absurd hleaves (hkeys usage (HostEvent.input_key.mp hinput))
    | button i => exact absurd hleaves (hbuttons i (HostEvent.input_button.mp hinput))
  · intro h
    exact absurd h hreopens

/-- The condition on an event whose frame opens a device. -/
theorem meets_of_reopened
    (hkeys : ∀ usage, event.key = some (usage, false) → usage ∉ d.bridge.keys.left)
    (hbuttons : ∀ i, event.button = some (i, false) → i ∉ d.bridge.buttons.left)
    (hreopens : d.bridge.Reopens usb) :
  d.Meets (event, usb) ↔
    (Act.send event.keyFrame .reopened).Meets d.keys ∧
      (Act.send event.buttonFrame .reopened).Meets d.buttons
  := by
  have hopen : ∀ x, event.input = some (x, false) → ¬ d.bridge.Leaves x := by
    intro x hinput
    cases x with
    | key usage => exact hkeys usage (HostEvent.input_key.mp hinput)
    | button i => exact hbuttons i (HostEvent.input_button.mp hinput)
  simp only [Act.Meets, HostEvent.input_keyFrame, HostEvent.input_buttonFrame]
  constructor
  · rintro ⟨_, hcarried⟩
    constructor
    · intro usage hholds hother
      obtain ⟨hcarries, hkept⟩ := HostEvent.mem_holds_keyFrame.mp ⟨hholds, hother⟩
      exact hcarried hreopens hopen (.key usage) hcarries hkept
    · intro i hholds hother
      obtain ⟨hcarries, hkept⟩ := HostEvent.mem_holds_buttonFrame.mp ⟨hholds, hother⟩
      exact hcarried hreopens hopen (.button i) hcarries hkept
  · rintro ⟨hcarriedKeys, hcarriedButtons⟩
    constructor
    · intro x hinput hleaves
      exact absurd hleaves (hopen x hinput)
    · intro _ _ x hcarries hkept
      cases x with
      | key usage =>
          have hmirror : usage ∈ d.bridge.keyboard.keys := hkept
          obtain ⟨hholds, hother⟩ := HostEvent.mem_holds_keyFrame.mpr ⟨hcarries, hmirror⟩
          apply hcarriedKeys usage hholds hother
      | button i =>
          have hmirror : i ∈ buttonsOf d.bridge.mouseButtons := hkept
          obtain ⟨hholds, hother⟩ := HostEvent.mem_holds_buttonFrame.mpr ⟨hcarries, hmirror⟩
          apply hcarriedButtons i hholds hother

/-- The condition on an event that has no frame of its own. -/
theorem meets_of_quiet (hkeyFrame : BridgeState.Quiet event.keyFrame)
    (hbuttonFrame : BridgeState.Quiet event.buttonFrame) :
  d.Meets (event, usb)
  := by
  have hkeys : ∀ usage, ¬ event.Carries (.key usage) := by
    intro usage hcarries
    have hholds := (HostEvent.mem_holds_keyFrame.mpr ⟨hcarries, Set.mem_univ usage⟩).1
    rw [hkeyFrame.holds] at hholds
    exact hholds
  have hbuttons : ∀ i, ¬ event.Carries (.button i) := by
    intro i hcarries
    have hholds := (HostEvent.mem_holds_buttonFrame.mpr ⟨hcarries, Set.mem_univ i⟩).1
    rw [hbuttonFrame.holds] at hholds
    exact hholds
  constructor
  · intro x hinput
    cases x with
    | key usage =>
        have hkey := HostEvent.input_key.mp hinput
        rw [← HostEvent.input_keyFrame, hkeyFrame.input] at hkey
        cases hkey
    | button i =>
        have hbutton := HostEvent.input_button.mp hinput
        rw [← HostEvent.input_buttonFrame, hbuttonFrame.input] at hbutton
        cases hbutton
  · intro _ _ x hcarries
    cases x with
    | key usage => exact absurd hcarries (hkeys usage)
    | button i => exact absurd hcarries (hbuttons i)

/-- The condition on an event that is left to the Windows input path. -/
theorem meets_of_left {x : Input} (hinput : event.input = some (x, false))
    (hleaves : d.bridge.Leaves x) :
  d.Meets (event, usb) ↔ ∀ device, d.bridge.device = some device → ¬ device.Holds x
  := by
  constructor
  · intro hmeets
    exact hmeets.1 x hinput hleaves
  · intro hdevice
    constructor
    · intro y hinput' _
      rw [hinput, Option.some.injEq, Prod.mk.injEq] at hinput'
      rw [← hinput'.1]
      exact hdevice
    · intro _ hopen
      exact absurd hleaves (hopen x hinput)

/-- Every event is an act of the keys and an act of the buttons, and meets the condition exactly
when both do. -/
theorem next_paths (d : Desk) (event : HostEvent) (usb : Usb) :
  ∃ keyAct buttonAct, Paths.Step d.keys keyAct (d.next (event, usb)).keys ∧
    Paths.Step d.buttons buttonAct (d.next (event, usb)).buttons ∧
      (d.Meets (event, usb) ↔ keyAct.Meets d.keys ∧ buttonAct.Meets d.buttons)
  := by
  have hoffered := event.offered d.bridge usb
  have hkeyInput := event.input_keyFrame
  have hbuttonInput := event.input_buttonFrame
  generalize hr : execCalls usb d.bridge event.calls = r at hoffered
  have hoffer : d.offer (event, usb) = r := hr
  cases hoffered with
  | @kept s' taken hkeyFrame hbuttonFrame hkeys hbuttons =>
      have hkey : event.key = none := by
        rw [← hkeyInput, hkeyFrame.input]
      have hbutton : event.button = none := by
        rw [← hbuttonInput, hbuttonFrame.input]
      use .idle, .idle
      rw [← and_assoc]
      constructor
      · apply steps_of_held hoffer (Held.Step.of_idle hkeys) (Held.Step.of_idle hbuttons)
          hkey.symm hbutton.symm
        · simp [hkey]
        · simp [hbutton]
      · simp only [Act.Meets, and_true, iff_true]
        apply meets_of_quiet hkeyFrame hbuttonFrame
  | @leftKey s' usage hkeyFrame hbuttonFrame hkeys hbuttons =>
      have hkey : event.key = some (usage, false) := by
        rw [← hkeyInput, hkeyFrame]
        rfl
      have hbutton := event.button_of_key hkey
      use .leave usage, .idle
      rw [← and_assoc]
      constructor
      · apply steps_of_held hoffer hkeys (Held.Step.of_idle hbuttons) hkey.symm hbutton.symm
        · simp [Act.Passes]
        · simp [hbutton]
      · rw [meets_of_left (HostEvent.input_key.mpr hkey) hkeys.mem_left]
        simp only [Act.Meets, and_true, forall_carried_keys]
  | @leftButton s' i hkeyFrame hbuttonFrame hkeys hbuttons =>
      have hbutton : event.button = some (i, false) := by
        rw [← hbuttonInput, hbuttonFrame]
        rfl
      have hkey : event.key = none := by
        rw [← hkeyInput, hkeyFrame]
        rfl
      use .idle, .leave i
      rw [← and_assoc]
      constructor
      · apply steps_of_held hoffer (Held.Step.of_idle hkeys) hbuttons hkey.symm hbutton.symm
        · simp [hkey]
        · simp [Act.Passes]
      · rw [meets_of_left (HostEvent.input_button.mpr hbutton) hbuttons.mem_left]
        simp only [Act.Meets, true_and, forall_carried_buttons]
  | dealt hdealt =>
      cases hdealt with
      | written hopen hkeys hbuttons =>
          use .send event.keyFrame .written, .send event.buttonFrame .written
          rw [← and_assoc]
          constructor
          · apply steps_of_held hoffer hkeys hbuttons hkeyInput hbuttonInput
            · simp [Act.Passes]
            · simp [Act.Passes]
          · have hreopens : ¬ d.bridge.Reopens usb := by
              intro h
              exact hopen h.1
            simp only [Act.Meets, and_true, iff_true]
            apply meets_of_sent _ _ hreopens
            · simpa using hkeys.sent
            · simpa using hbuttons.sent
      | reopened hreopens hkeys hbuttons =>
          use .send event.keyFrame .reopened, .send event.buttonFrame .reopened
          rw [← and_assoc]
          constructor
          · apply steps_of_held hoffer hkeys hbuttons hkeyInput hbuttonInput
            · simp [Act.Passes]
            · simp [Act.Passes]
          · apply meets_of_reopened _ _ hreopens
            · simpa using hkeys.sent
            · simpa using hbuttons.sent
      | @failed s' keptKeys keptButtons hreopens hkeys hbuttons =>
          use .send event.keyFrame (.failed keptKeys), .send event.buttonFrame (.failed keptButtons)
          rw [← and_assoc]
          constructor
          · apply steps_of_held hoffer hkeys hbuttons hkeyInput hbuttonInput
            · simp [Act.Passes]
            · simp [Act.Passes]
          · simp only [Act.Meets, and_true, iff_true]
            apply meets_of_sent _ _ hreopens
            · simpa using hkeys.sent
            · simpa using hbuttons.sent

/-- What holds of a desk whatever happens, and nothing is stuck. -/
structure Fine (d : Desk) : Prop where
  keys : d.keys.Sound
  buttons : d.buttons.Sound
  none : d.NoneStuck

theorem fine_start (ids : Option (UInt16 × UInt16)) (now : Int) :
  Fine (start ids now)
  := by
  constructor
  · constructor
    · ext usage
      simp [keys, paths, BridgeState.keys, start, BridgeState.new, lastEvent]
    · intro usage _ hlifted
      cases hlifted
    · intro held hopen
      cases hopen
  · constructor
    · ext i
      simp [buttons, paths, BridgeState.buttons, start, BridgeState.new, lastEvent]
    · intro i _ hlifted
      cases hlifted
    · intro held hopen
      cases hopen
  · intro x hlifted
    cases hlifted

/-- From a desk where nothing is stuck, nothing is stuck after an event exactly when the event meets
the condition. -/
theorem Fine.next_iff (h : Fine d) (event : HostEvent) (usb : Usb) :
  (d.next (event, usb)).NoneStuck ↔ d.Meets (event, usb)
  := by
  obtain ⟨hkeys, hbuttons⟩ := noneStuck_iff.mp h.none
  obtain ⟨keyAct, buttonAct, hkeyStep, hbuttonStep, hmeets⟩ := next_paths d event usb
  rw [noneStuck_iff, hmeets, hkeyStep.clear_iff h.keys hkeys,
    hbuttonStep.clear_iff h.buttons hbuttons]

theorem Fine.next (h : Fine d) (event : HostEvent) (usb : Usb) (hmeets : d.Meets (event, usb)) :
  Fine (d.next (event, usb))
  := by
  obtain ⟨keyAct, buttonAct, hkeyStep, hbuttonStep, _⟩ := next_paths d event usb
  constructor
  · apply hkeyStep.sound h.keys
  · apply hbuttonStep.sound h.buttons
  · apply (h.next_iff event usb).mpr hmeets

/-- Along every run, nothing is ever stuck exactly when every event meets the condition. -/
theorem noneStuck_iff_of_run {ids : Option (UInt16 × UInt16)} {now : Int}
    {h : List (Desk × HostEvent × Usb)} {d : Desk} (hrun : Run Step (start ids now) h d) :
  ((∀ x ∈ h, x.1.NoneStuck) ∧ d.NoneStuck) ↔ ∀ x ∈ h, x.1.Meets x.2
  := by
  apply hrun.forall_iff Meets Fine NoneStuck (fine_start ids now)
  · intro d hd
    exact hd.none
  · rintro d ⟨event, usb⟩ _ hd hmeets rfl
    apply hd.next event usb hmeets
  · rintro d ⟨event, usb⟩ _ hd rfl hnone
    apply (hd.next_iff event usb).mp hnone

/-- Every list of events is a run. -/
theorem run_next (d : Desk) (labels : List (HostEvent × Usb)) :
  Run Step d (Run.trace next d labels) (labels.foldl next d)
  := by
  apply Run.of_next
  intro d label
  rfl

/-- The press of a key on an open bridge, and its release. -/
def sampleTyping : List (HostEvent × Usb) :=
  [(.releaseAll, Call.sampleUsb 0), (.simulate (.scanCode 0x1E) true, Call.sampleUsb 10),
    (.simulate (.scanCode 0x1E) false, Call.sampleUsb 20)]

theorem noneStuck_typed :
  (∀ x ∈ Run.trace next (start Call.sampleIds 0) sampleTyping, x.1.NoneStuck) ∧
    (sampleTyping.foldl next (start Call.sampleIds 0)).NoneStuck
  := by
  apply (noneStuck_iff_of_run (run_next _ _)).mpr
  simp only [Run.trace, sampleTyping, List.forall_mem_cons]
  refine ⟨⟨?_, ?_⟩, ⟨?_, ?_⟩, ⟨?_, ?_⟩, ?_⟩
  · rintro x ⟨⟩
  · intro _ _ x hcarries
    cases x with
    | key usage =>
        obtain ⟨_, _, hkey, _⟩ := hcarries
        cases hkey
    | button i =>
        rcases hcarries with ⟨_, _, hbutton, _⟩ | hmoves
        · cases hbutton
        · cases hmoves
  · intro x hinput
    have hpress : (HostEvent.simulate (.scanCode 0x1E) true).input = some (.key 4, true) := by
      decide +kernel
    rw [hpress] at hinput
    cases hinput
  · intro hreopens
    have hopen : (next (start Call.sampleIds 0) (.releaseAll, Call.sampleUsb 0)).bridge.device ≠
        none := by
      decide +kernel
    exact absurd hreopens.1 hopen
  · intro x hinput hleaves
    have hrelease : (HostEvent.simulate (.scanCode 0x1E) false).input = some (.key 4, false) := by
      decide +kernel
    rw [hrelease, Option.some.injEq, Prod.mk.injEq] at hinput
    rw [← hinput.1] at hleaves
    have hsent : keyboardContains (next (next (start Call.sampleIds 0)
        (.releaseAll, Call.sampleUsb 0)) (.simulate (.scanCode 0x1E) true,
          Call.sampleUsb 10)).bridge.softwareKeyboard 4 = false := by
      decide +kernel
    exact absurd (hsent.symm.trans hleaves) Bool.false_ne_true
  · intro hreopens
    have hopen : (next (next (start Call.sampleIds 0) (.releaseAll, Call.sampleUsb 0))
        (.simulate (.scanCode 0x1E) true, Call.sampleUsb 10)).bridge.device ≠ none := by
      decide +kernel
    exact absurd hreopens.1 hopen
  · simp

/-- A key pressed while there is no device, its repetition when there is one, and its release. -/
def sampleRepetition : List (HostEvent × Usb) :=
  [(.simulate (.scanCode 0x1E) true, ⟨0, false, none⟩),
    (.simulate (.scanCode 0x1E) true, Call.sampleUsb 1000),
    (.simulate (.scanCode 0x1E) false, Call.sampleUsb 1030)]

/-- The repetition went to the bridge, and the release to the Windows input path. -/
theorem not_noneStuck_repeated :
  ¬ ∀ h d, Run Step (start Call.sampleIds 0) h d → d.NoneStuck
  := by
  intro hall
  have hnone := hall _ _ (run_next (start Call.sampleIds 0) sampleRepetition)
  have hlast : lastEvent (sampleRepetition.foldl next (start Call.sampleIds 0)).events (.key 4) =
      some false := by
    decide +kernel
  have hheld : (sampleRepetition.foldl next (start Call.sampleIds 0)).bridge.device.map
      (fun device => keyboardContains device.carried.keyboard 4) = some true := by
    decide +kernel
  obtain ⟨device, hdevice, hcontains⟩ := Option.map_eq_some_iff.mp hheld
  exact (hnone _ hlast).1 device hdevice hcontains

end Desk

end VynxDesk.InputBridge
