import VynxDesk.Connection.Message

/-!
# Legacy key events

`legacy_keyboard_mode` of `server/input_service.rs` makes the modifiers of the keyboard those of a
key event: of a press, it releases the ones that the event does not have and presses those that it
has, until the key is handled.  The keys `CtrlAltDel` and `LockScreen` make it return before it
releases them (`not_released`); with every other event they are up when it returns, as they are when
`handle_mouse_simulation_` returns (`released_iff`).

The keyboard is a parameter, and so is what the mouse does.  The record of the keys that are down is
left out, but for the one that `is_altgr_pressed` looks for.
-/

namespace VynxDesk.LegacyKeys

/-- `ControlKey`, as far as the source names its values. -/
inductive ControlKey where
  | alt | backspace | capsLock | control | delete | downArrow | endKey | escape | f1 | f10 | f11
  | f12 | f2 | f3 | f4 | f5 | f6 | f7 | f8 | f9 | home | leftArrow | metaKey | option | pageDown
  | pageUp | returnKey | rightArrow | shift | space | tab | upArrow | numpad0 | numpad1 | numpad2
  | numpad3 | numpad4 | numpad5 | numpad6 | numpad7 | numpad8 | numpad9 | cancel | clear | menu
  | pause | kana | hangul | junja | final | hanja | kanji | convert | select | print | execute
  | snapshot | insert | help | sleep | separator | scroll | numLock | rWin | apps | multiply | add
  | subtract | decimal | divide | equals | numpadEnter | rAlt | rControl | rShift | ctrlAltDel
  | lockScreen | volumeMute | volumeUp | volumeDown | power | scrollLock | unknown
  deriving DecidableEq, Repr

/-- `enigo::Key`, as far as it is used. -/
inductive Key where
  | alt | backspace | capsLock | control | delete | downArrow | endKey | escape | f1 | f10 | f11
  | f12 | f2 | f3 | f4 | f5 | f6 | f7 | f8 | f9 | home | leftArrow | metaKey | option | pageDown
  | pageUp | returnKey | rightArrow | shift | space | tab | upArrow | numpad0 | numpad1 | numpad2
  | numpad3 | numpad4 | numpad5 | numpad6 | numpad7 | numpad8 | numpad9 | cancel | clear | pause
  | kana | hangul | junja | final | hanja | kanji | convert | select | print | execute | snapshot
  | insert | help | sleep | separator | scroll | numLock | rWin | apps | multiply | add | subtract
  | decimal | divide | equals | numpadEnter | rightAlt | rightControl | rightShift
  | layout (c : Char)
  | raw (code : UInt16)
  deriving DecidableEq, Repr

/-- `KEY_MAP`. -/
def keyMap : ControlKey → Option Key
  | .alt => some .alt
  | .backspace => some .backspace
  | .capsLock => some .capsLock
  | .control => some .control
  | .delete => some .delete
  | .downArrow => some .downArrow
  | .endKey => some .endKey
  | .escape => some .escape
  | .f1 => some .f1
  | .f10 => some .f10
  | .f11 => some .f11
  | .f12 => some .f12
  | .f2 => some .f2
  | .f3 => some .f3
  | .f4 => some .f4
  | .f5 => some .f5
  | .f6 => some .f6
  | .f7 => some .f7
  | .f8 => some .f8
  | .f9 => some .f9
  | .home => some .home
  | .leftArrow => some .leftArrow
  | .metaKey => some .metaKey
  | .option => some .option
  | .pageDown => some .pageDown
  | .pageUp => some .pageUp
  | .returnKey => some .returnKey
  | .rightArrow => some .rightArrow
  | .shift => some .shift
  | .space => some .space
  | .tab => some .tab
  | .upArrow => some .upArrow
  | .numpad0 => some .numpad0
  | .numpad1 => some .numpad1
  | .numpad2 => some .numpad2
  | .numpad3 => some .numpad3
  | .numpad4 => some .numpad4
  | .numpad5 => some .numpad5
  | .numpad6 => some .numpad6
  | .numpad7 => some .numpad7
  | .numpad8 => some .numpad8
  | .numpad9 => some .numpad9
  | .cancel => some .cancel
  | .clear => some .clear
  | .menu => some .alt
  | .pause => some .pause
  | .kana => some .kana
  | .hangul => some .hangul
  | .junja => some .junja
  | .final => some .final
  | .hanja => some .hanja
  | .kanji => some .kanji
  | .convert => some .convert
  | .select => some .select
  | .print => some .print
  | .execute => some .execute
  | .snapshot => some .snapshot
  | .insert => some .insert
  | .help => some .help
  | .sleep => some .sleep
  | .separator => some .separator
  | .scroll => some .scroll
  | .numLock => some .numLock
  | .rWin => some .rWin
  | .apps => some .apps
  | .multiply => some .multiply
  | .add => some .add
  | .subtract => some .subtract
  | .decimal => some .decimal
  | .divide => some .divide
  | .equals => some .equals
  | .numpadEnter => some .numpadEnter
  | .rAlt => some .rightAlt
  | .rControl => some .rightControl
  | .rShift => some .rightShift
  | _ => none

/-- `control_key_value_to_key`. -/
def controlKeyValueToKey (ck : EnumOrUnknown ControlKey) : Option Key := ck.enumValue.bind keyMap

/-- A key that has a control key. -/
def Key.Mapped (key : Key) : Prop := ∃ ck, keyMap ck = some key

/-! ## The keyboard -/

/-- `Enigo`, with states `σ` of the keyboard: which keys are down, and the functions that look at
keys and strike them.  `keyDown` also tells whether it succeeds. -/
structure Enigo (σ : Type) where
  isDown : Key → σ → Bool
  getKeyState : Key → σ → Bool
  keyDown : Key → σ → σ × Bool
  keyUp : Key → σ → σ
  keySequence : String → σ → σ
  simulateRelease : Key → σ → σ
  mouse : Int32 → Int32 → Int32 → σ → σ

/-- What is relied on: a key that is released is up; releasing a key presses no other one, and
pressing a key releases no other one; and a key that does not go down leaves the keyboard as it
was. -/
structure Enigo.Lawful {σ : Type} (en : Enigo σ) : Prop where
  up : ∀ {key}, key.Mapped → ∀ s, en.isDown key (en.keyUp key s) = false
  up_other : ∀ {key}, key.Mapped → ∀ {other s},
    en.isDown other (en.keyUp key s) = true → en.isDown other s = true
  down_other : ∀ {key}, key.Mapped → ∀ {other s},
    en.isDown other s = true → en.isDown other (en.keyDown key s).1 = true
  failed : ∀ {key}, key.Mapped → ∀ {s},
    en.isDown key (en.keyDown key s).1 = false → (en.keyDown key s).1 = s

/-- The builds. -/
inductive Platform where
  | linux | windows | macos
  deriving DecidableEq, Repr

/-- What the functions find around them: the build, `is_x11`, `wayland_use_uinput`,
`is_altgr_pressed`, whether `set_clipboard_for_paste_sync` succeeds for a text, `to_uppercase`, and
whether an event of the mouse is not for this connection or the process exits. -/
structure Env where
  platform : Platform
  isX11 : Bool
  waylandUseUinput : Bool
  isAltgrPressed : Bool
  setClipboardForPasteSync : String → Bool
  toUppercase : String → String
  ignoresMouse : Bool

/-- `key_event::Union`; `other` stands for the rest. -/
inductive Union where
  | controlKey (ck : EnumOrUnknown ControlKey)
  | chr (chr : UInt32)
  | unicode (chr : UInt32)
  | seq (seq : String)
  | other
  deriving DecidableEq

/-- `KeyEvent`. -/
structure KeyEvent where
  down : Bool
  union : Option Union
  modifiers : List (EnumOrUnknown ControlKey)
  deriving DecidableEq

/-- `MouseEvent`. -/
structure MouseEvent where
  mask : Int32
  x : Int32
  y : Int32
  modifiers : List (EnumOrUnknown ControlKey)
  deriving DecidableEq

section

variable {σ : Type} (en : Enigo σ) (env : Env)

/-- `get_modifier_state`, and `is_pressed`. -/
def getModifierState (key : Key) (s : σ) : Bool :=
  let x := en.getKeyState key s
  match key with
  | .shift => x || en.getKeyState .rightShift s
  | .control => x || en.getKeyState .rightControl s
  | .alt => x || en.getKeyState .rightAlt s
  | .metaKey => x || en.getKeyState .rWin s
  | .rightShift => x || en.getKeyState .shift s
  | .rightControl => x || en.getKeyState .control s
  | .rightAlt => x || en.getKeyState .alt s
  | .rWin => x || en.getKeyState .metaKey s
  | _ => x

/-! ## The modifiers -/

/-- `fix_modifier`. -/
def fixModifier (modifiers : List (EnumOrUnknown ControlKey)) (key0 : ControlKey) (key1 : Key)
    (s : σ) : σ :=
  if getModifierState en key1 s ∧ .known key0 ∉ modifiers then
    if env.platform = .windows ∧ key0 = .control ∧ getModifierState en .alt s then s
    else en.keyUp key1 s
  else s

/-- `fix_modifiers`; `ck` is the control key of the event, if it has one. -/
def fixModifiers (modifiers : List (EnumOrUnknown ControlKey))
    (ck : Option (EnumOrUnknown ControlKey)) (s : σ) : σ :=
  [(ControlKey.shift, ControlKey.shift, Key.shift), (.rShift, .shift, .rightShift),
    (.alt, .alt, .alt), (.rAlt, .alt, .rightAlt), (.control, .control, .control),
    (.rControl, .control, .rightControl), (.metaKey, .metaKey, .metaKey),
    (.rWin, .metaKey, .rWin)].foldl
    (fun s (own, key0, key1) =>
      if ck ≠ some (.known own) then fixModifier en env modifiers key0 key1 s else s) s

/-- The keyboard, `to_release`, and of the history the keys that went down. -/
structure Pressing (σ : Type) where
  state : σ
  toRelease : List Key
  pressed : List Key

/-- The body of the loops that press modifiers; `skips` tells which keys they leave out. -/
def press (skips : Key → Bool) (p : Pressing σ) (ck : EnumOrUnknown ControlKey) : Pressing σ :=
  match controlKeyValueToKey ck with
  | none => p
  | some key =>
      if skips key ∨ getModifierState en key p.state then p
      else
        let state := (en.keyDown key p.state).1
        { state := state
          toRelease := p.toRelease ++ [key]
          pressed := if en.isDown key state then p.pressed ++ [key] else p.pressed }

/-- `press_modifiers`. -/
def pressModifiers (modifiers : List (EnumOrUnknown ControlKey)) (s : σ) : Pressing σ :=
  modifiers.foldl
    (press en fun key => env.platform = .linux ∧ key = .alt ∧ env.isAltgrPressed) ⟨s, [], []⟩

/-- `get_control_key_value`. -/
def KeyEvent.controlKey (evt : KeyEvent) : Option (EnumOrUnknown ControlKey) :=
  match evt.union with
  | some (.controlKey ck) => some ck
  | _ => none

/-- `release_unpressed_modifiers`. -/
def releaseUnpressedModifiers (evt : KeyEvent) (s : σ) : σ :=
  fixModifiers en env evt.modifiers evt.controlKey s

/-- `sync_modifiers`. -/
def syncModifiers (evt : KeyEvent) (s : σ) : Pressing σ :=
  if evt.down then
    let s := releaseUnpressedModifiers en env evt s
    if env.platform = .macos then ⟨s, [], []⟩ else pressModifiers en env evt.modifiers s
  else ⟨s, [], []⟩

/-- `release_keys`. -/
def releaseKeys (toRelease : List Key) (s : σ) : σ :=
  toRelease.foldl (fun s key => en.keyUp key s) s

/-! ## The keys -/

/-- `key_down` or `key_up`. -/
def strike (key : Key) (down : Bool) (s : σ) : σ :=
  if down then (en.keyDown key s).1 else en.keyUp key s

/-- `process_control_key`. -/
def processControlKey (ck : EnumOrUnknown ControlKey) (down : Bool) (s : σ) : σ :=
  match controlKeyValueToKey ck with
  | some key => strike en key down s
  | none => s

/-- `has_hotkey_modifiers`. -/
def hasHotkeyModifiers (evt : KeyEvent) : Bool :=
  evt.modifiers.any fun ck =>
    ck = .known .control || ck = .known .rControl || ck = .known .metaKey || ck = .known .rWin
      || (env.platform ≠ .macos && (ck = .known .alt || ck = .known .rAlt))

/-- `is_hotkey_modifier_pressed`. -/
def isHotkeyModifierPressed (s : σ) : Bool :=
  [Key.control, .rightControl, .alt, .rightAlt, .metaKey, .rWin].any fun key =>
    getModifierState en key s

/-- `release_shift_for_char_input`, on Linux. -/
def releaseShiftForCharInput (s : σ) : σ :=
  if env.platform ≠ .linux ∨ isHotkeyModifierPressed en s then s
  else
    [Key.shift, .rightShift].foldl (fun s key =>
      if getModifierState en key s then
        if env.isX11 then en.simulateRelease key s else en.keyUp key s
      else s) s

/-- `char::try_from` of a number. -/
def charTryFrom (chr : UInt32) : Option Char :=
  if h : chr.toNat.isValidChar then some (Char.ofNatAux chr.toNat h) else none

/-- `is_ascii_printable`. -/
def isAsciiPrintable (c : Char) : Bool := 0x20 ≤ c.toNat ∧ c.toNat ≤ 0x7E

/-- `XKB_KEY_INSERT`. -/
def xkbKeyInsert : UInt16 := 110 + 8

/-- `input_text_via_clipboard_server`. -/
def inputTextViaClipboardServer (text : String) (s : σ) : σ :=
  if text = "" ∨ env.setClipboardForPasteSync text = false then s
  else
    let (s, shifted) := en.keyDown .shift s
    if shifted then
      let (s, inserted) := en.keyDown (.raw xkbKeyInsert) s
      en.keyUp .shift (if inserted then en.keyUp (.raw xkbKeyInsert) s else s)
    else s

/-- `process_chr`. -/
def processChr (chr : UInt32) (down hotkey : Bool) (s : σ) : σ :=
  if env.platform = .linux ∧ !env.isX11 ∧ env.waylandUseUinput ∧ !isHotkeyModifierPressed en s then
    match charTryFrom chr with
    | some c =>
        if isAsciiPrintable c then strike en (.layout c) down s
        else if down then inputTextViaClipboardServer en env (String.singleton c) s
        else s
    | none => s
  else if env.platform ≠ .linux ∧ !hotkey then
    match charTryFrom chr with
    | some c => if down then en.keySequence (String.singleton c) s else s
    | none => s
  else
    let key := Key.layout ((charTryFrom chr).getD (Char.ofNat 0))
    if down then
      let (s, ok) := en.keyDown key s
      if ok then s
      else
        match charTryFrom chr with
        | some c =>
            if getModifierState en .shift s || getModifierState en .capsLock s then
              en.keySequence (env.toUppercase (String.singleton c)) s
            else en.keySequence (String.singleton c) s
        | none => s
    else en.keyUp key s

/-- `process_unicode`. -/
def processUnicode (chr : UInt32) (s : σ) : σ :=
  match charTryFrom chr with
  | some c =>
      if env.platform = .linux ∧ !env.isX11 ∧ env.waylandUseUinput ∧ !isAsciiPrintable c then
        inputTextViaClipboardServer en env (String.singleton c) s
      else en.keySequence (String.singleton c) s
  | none => s

/-- `process_seq`. -/
def processSeq (sequence : String) (s : σ) : σ :=
  if env.platform = .linux ∧ !env.isX11 ∧ env.waylandUseUinput
      ∧ !sequence.toList.all isAsciiPrintable then
    inputTextViaClipboardServer en env sequence s
  else en.keySequence sequence s

/-! ## The events -/

/-- `is_function_key`. -/
def isFunctionKey (ck : EnumOrUnknown ControlKey) : Bool :=
  ck = .known .ctrlAltDel || ck = .known .lockScreen

/-- What `legacy_keyboard_mode` does for the key of an event. -/
def processKey (evt : KeyEvent) (s : σ) : σ :=
  match evt.union with
  | some (.controlKey ck) => processControlKey en ck evt.down s
  | some (.chr chr) =>
      processChr en env chr evt.down (hasHotkeyModifiers env evt)
        (releaseShiftForCharInput en env s)
  | some (.unicode chr) => processUnicode en env chr (releaseShiftForCharInput en env s)
  | some (.seq seq) => processSeq en env seq s
  | some .other | none => s

/-- `legacy_keyboard_mode`: the keyboard when it returns, and the keys that `press_modifiers` made
go down. -/
def legacyKeyboardMode (evt : KeyEvent) (s : σ) : σ × List Key :=
  let p := syncModifiers en env evt s
  -- the early return: the threads that it starts do not touch this keyboard
  if evt.controlKey.any isFunctionKey then (p.state, p.pressed)
  else (releaseKeys en p.toRelease (processKey en env evt p.state), p.pressed)

/-- `MOUSE_TYPE_DOWN`. -/
def mouseTypeDown : Int32 := 1

/-- `MOUSE_TYPE_MASK`. -/
def mouseTypeMask : Int32 := 0x7

/-- `handle_mouse_simulation_`: the keyboard when it returns, and the modifiers that it made go
down. -/
def handleMouseSimulation (evt : MouseEvent) (s : σ) : σ × List Key :=
  if env.ignoresMouse then (s, [])
  else
    let p : Pressing σ :=
      if evt.mask &&& mouseTypeMask = mouseTypeDown then
        let s := fixModifiers en env evt.modifiers none s
        if env.platform = .macos then ⟨s, [], []⟩
        else evt.modifiers.foldl (press en fun key => key = .capsLock ∨ key = .numLock) ⟨s, [], []⟩
      else ⟨s, [], []⟩
    (releaseKeys en p.toRelease (en.mouse evt.mask evt.x evt.y p.state), p.pressed)

/-! ## What is released -/

/-- The keys that `press_modifiers` made go down are up when `legacy_keyboard_mode` returns, unless
the event is the press of the key. -/
def Released (evt : KeyEvent) (s : σ) : Prop :=
  ∀ key ∈ (legacyKeyboardMode en env evt s).2,
    evt.down = true ∧ evt.controlKey.bind controlKeyValueToKey = some key
      ∨ en.isDown key (legacyKeyboardMode en env evt s).1 = false

/-- The modifiers that `handle_mouse_simulation_` made go down are up when it returns. -/
def MouseReleased (evt : MouseEvent) (s : σ) : Prop :=
  ∀ key ∈ (handleMouseSimulation en env evt s).2,
    en.isDown key (handleMouseSimulation en env evt s).1 = false

/-- A modifier that is pressed: it has a key, which is not left out and not pressed yet, and which
goes down. -/
def Wanted (skips : Key → Bool) (s : σ) (ck : EnumOrUnknown ControlKey) : Prop :=
  ∃ key, controlKeyValueToKey ck = some key ∧ skips key = false
    ∧ getModifierState en key s = false ∧ en.isDown key (en.keyDown key s).1 = true

/-- The event is the press of a function key, and it has a modifier that is pressed for it. -/
def Sticks (evt : KeyEvent) (s : σ) : Prop :=
  evt.controlKey.any isFunctionKey = true ∧ evt.down = true ∧ env.platform ≠ .macos
    ∧ ∃ ck ∈ evt.modifiers,
      Wanted en (fun key => env.platform = .linux ∧ key = .alt ∧ env.isAltgrPressed)
        (releaseUnpressedModifiers en env evt s) ck

end

section

variable {σ : Type} {en : Enigo σ} {env : Env}

theorem mapped_of_controlKeyValueToKey {ck : EnumOrUnknown ControlKey} {key : Key}
    (h : controlKeyValueToKey ck = some key) :
  key.Mapped
  := by
  obtain ⟨known, -, hkey⟩ := Option.bind_eq_some_iff.mp h
  exact ⟨known, hkey⟩

/-- Released keys are up. -/
theorem isDown_releaseKeys (hen : en.Lawful) {keys : List Key} (hkeys : ∀ key ∈ keys, key.Mapped)
    (s : σ) {key : Key} :
  (en.isDown key (releaseKeys en keys s) = true → en.isDown key s = true)
    ∧ (key ∈ keys → en.isDown key (releaseKeys en keys s) = false)
  := by
  induction keys generalizing s with
  | nil => exact ⟨id, by rintro ⟨⟩⟩
  | cons first keys ih =>
      obtain ⟨hfirst, hrest⟩ := List.forall_mem_cons.mp hkeys
      obtain ⟨hkept, hreleased⟩ := ih hrest (en.keyUp first s)
      rw [releaseKeys, List.foldl_cons]
      constructor
      · exact fun hdown => hen.up_other hfirst (hkept hdown)
      · intro hmem
        rcases List.mem_cons.mp hmem with rfl | hmem
        · by_contra hdown
          have hbefore := hkept (eq_true_of_ne_false hdown)
          rw [hen.up hfirst] at hbefore
          cases hbefore
        · exact hreleased hmem

/-- What holds while modifiers are pressed: the keys have control keys, those that went down are to
be released, and are down. -/
structure Pressing.Good (en : Enigo σ) (p : Pressing σ) : Prop where
  mapped : ∀ key ∈ p.toRelease, key.Mapped
  pressed : ∀ key ∈ p.pressed, key ∈ p.toRelease ∧ en.isDown key p.state = true

theorem good_press (hen : en.Lawful) (skips : Key → Bool) {p : Pressing σ} (hp : p.Good en)
    (ck : EnumOrUnknown ControlKey) :
  (press en skips p ck).Good en
  := by
  rw [press]
  split
  next => exact hp
  next key hkey =>
      have hmapped := mapped_of_controlKeyValueToKey hkey
      split
      next => exact hp
      next =>
          have hold : ∀ old ∈ p.pressed,
              old ∈ p.toRelease ++ [key] ∧ en.isDown old (en.keyDown key p.state).1 = true := by
            intro old hmem
            obtain ⟨hrelease, hdown⟩ := hp.pressed old hmem
            exact ⟨List.mem_append_left _ hrelease, hen.down_other hmapped hdown⟩
          constructor
          · intro other hother
            rcases List.mem_append.mp hother with hmem | hmem
            · exact hp.mapped other hmem
            · rwa [List.mem_singleton.mp hmem]
          · intro other hother
            dsimp only at hother
            split at hother
            next hdown =>
                rcases List.mem_append.mp hother with hmem | hmem
                · exact hold other hmem
                · rw [List.mem_singleton.mp hmem]
                  exact ⟨List.mem_append_right _ (List.mem_singleton_self key), hdown⟩
            next => exact hold other hother

theorem good_foldl (hen : en.Lawful) (skips : Key → Bool)
    (modifiers : List (EnumOrUnknown ControlKey)) {p : Pressing σ} (hp : p.Good en) :
  (modifiers.foldl (press en skips) p).Good en
  := by
  induction modifiers generalizing p with
  | nil => exact hp
  | cons ck modifiers ih => exact ih (good_press hen skips hp ck)

theorem good_nil (s : σ) : (⟨s, [], []⟩ : Pressing σ).Good en
  := ⟨by rintro key ⟨⟩, by rintro key ⟨⟩⟩

/-- One modifier is pressed, or nothing happens. -/
theorem press_cases (hen : en.Lawful) (skips : Key → Bool) (p : Pressing σ)
    (ck : EnumOrUnknown ControlKey) :
  Wanted en skips p.state ck ∧ (press en skips p ck).pressed ≠ []
    ∨ ¬ Wanted en skips p.state ck ∧ (press en skips p ck).state = p.state
      ∧ (press en skips p ck).pressed = p.pressed
  := by
  rw [press]
  split
  next hnone =>
      refine Or.inr ⟨?_, rfl, rfl⟩
      rintro ⟨key, hkey, -⟩
      rw [hnone] at hkey
      cases hkey
  next key hkey =>
      have hsame : ∀ other, controlKeyValueToKey ck = some other → other = key := by
        intro other hother
        exact Option.some.inj (hother.symm.trans hkey)
      split
      next hleft =>
          refine Or.inr ⟨?_, rfl, rfl⟩
          rintro ⟨other, hother, hskips, hstate, -⟩
          rw [hsame other hother] at hskips hstate
          rw [hskips, hstate] at hleft
          rcases hleft with hleft | hleft
          all_goals cases hleft
      next hleft =>
          rw [not_or, Bool.not_eq_true, Bool.not_eq_true] at hleft
          cases hdown : en.isDown key (en.keyDown key p.state).1 with
          | true =>
              refine Or.inl ⟨⟨key, hkey, hleft.1, hleft.2, hdown⟩, ?_⟩
              dsimp only
              rw [if_pos hdown]
              exact List.append_ne_nil_of_right_ne_nil _ (List.cons_ne_nil key [])
          | false =>
              refine Or.inr ⟨?_, hen.failed (mapped_of_controlKeyValueToKey hkey) hdown, ?_⟩
              · rintro ⟨other, hother, -, -, hother'⟩
                rw [hsame other hother, hdown] at hother'
                cases hother'
              · dsimp only
                rw [hdown, if_neg Bool.false_ne_true]

/-- What went down stays in the list. -/
theorem pressed_ne_nil_foldl (skips : Key → Bool) (modifiers : List (EnumOrUnknown ControlKey))
    {p : Pressing σ} (hp : p.pressed ≠ []) :
  (modifiers.foldl (press en skips) p).pressed ≠ []
  := by
  induction modifiers generalizing p with
  | nil => exact hp
  | cons ck modifiers ih =>
      apply ih
      rw [press]
      split
      next => exact hp
      next =>
          split
          next => exact hp
          next =>
              dsimp only
              split
              next => exact List.append_ne_nil_of_left_ne_nil hp _
              next => exact hp

/-- A modifier goes down exactly if there is one that is wanted before the first one is pressed. -/
theorem pressed_eq_nil_iff (hen : en.Lawful) (skips : Key → Bool)
    (modifiers : List (EnumOrUnknown ControlKey)) {p : Pressing σ} (hp : p.pressed = []) :
  (modifiers.foldl (press en skips) p).pressed = []
    ↔ ∀ ck ∈ modifiers, ¬ Wanted en skips p.state ck
  := by
  induction modifiers generalizing p with
  | nil =>
      constructor
      · intro _ ck hck
        cases hck
      · exact fun _ => hp
  | cons ck modifiers ih =>
      rw [List.foldl_cons, List.forall_mem_cons]
      rcases press_cases hen skips p ck with ⟨hwanted, hne⟩ | ⟨hnot, hstate, hpressed⟩
      · constructor
        · intro hnil
          cases pressed_ne_nil_foldl skips modifiers hne hnil
        · rintro ⟨hnot, -⟩
          cases hnot hwanted
      · rw [ih (hpressed.trans hp), hstate]
        exact ⟨fun hrest => ⟨hnot, hrest⟩, fun hall => hall.2⟩

theorem good_syncModifiers (hen : en.Lawful) (evt : KeyEvent) (s : σ) :
  (syncModifiers en env evt s).Good en
  := by
  rw [syncModifiers]
  split
  next =>
      dsimp only
      split
      next => exact good_nil _
      next => exact good_foldl hen _ evt.modifiers (good_nil _)
  next => exact good_nil s

/-- A function key has no key of its own. -/
theorem controlKeyValueToKey_of_isFunctionKey {ck : EnumOrUnknown ControlKey}
    (h : isFunctionKey ck = true) :
  controlKeyValueToKey ck = none
  := by
  rw [isFunctionKey, Bool.or_eq_true, decide_eq_true_eq, decide_eq_true_eq] at h
  rcases h with rfl | rfl
  all_goals rfl

/-- Of a press, the modifiers that go down are those that are wanted; of a release, none do. -/
theorem pressed_syncModifiers (hen : en.Lawful) (evt : KeyEvent) (s : σ) :
  (syncModifiers en env evt s).pressed = []
    ↔ ¬ (evt.down = true ∧ env.platform ≠ .macos ∧ ∃ ck ∈ evt.modifiers,
      Wanted en (fun key => env.platform = .linux ∧ key = .alt ∧ env.isAltgrPressed)
        (releaseUnpressedModifiers en env evt s) ck)
  := by
  rw [syncModifiers]
  split
  next hdown =>
      dsimp only
      split
      next hmacos =>
          constructor
          · rintro - ⟨-, hother, -⟩
            exact hother hmacos
          · exact fun _ => rfl
      next hmacos =>
          rw [pressModifiers, pressed_eq_nil_iff hen _ evt.modifiers rfl]
          constructor
          · rintro hnone ⟨-, -, ck, hck, hwanted⟩
            exact hnone ck hck hwanted
          · intro hnone ck hck hwanted
            exact hnone ⟨hdown, hmacos, ck, hck, hwanted⟩
  next hdown =>
      constructor
      · rintro - ⟨hpress, -⟩
        exact hdown hpress
      · exact fun _ => rfl

/-- With a function key, what was pressed stays down. -/
theorem released_of_isFunctionKey (hen : en.Lawful) {evt : KeyEvent} (s : σ)
    (hfunction : evt.controlKey.any isFunctionKey = true) :
  Released en env evt s ↔ (syncModifiers en env evt s).pressed = []
  := by
  have hgood : (syncModifiers en env evt s).Good en := good_syncModifiers hen evt s
  rw [Released, legacyKeyboardMode, if_pos hfunction]
  dsimp only
  constructor
  · intro hreleased
    rw [List.eq_nil_iff_forall_not_mem]
    intro key hkey
    rcases hreleased key hkey with ⟨-, hown⟩ | hup
    · obtain ⟨ck, hck, hown⟩ := Option.bind_eq_some_iff.mp hown
      rw [hck, Option.any_some] at hfunction
      rw [controlKeyValueToKey_of_isFunctionKey hfunction] at hown
      cases hown
    · rw [(hgood.pressed key hkey).2] at hup
      cases hup
  · intro hnil key hkey
    rw [hnil] at hkey
    cases hkey

/-- With another key, what was pressed is released. -/
theorem released_of_not_isFunctionKey (hen : en.Lawful) {evt : KeyEvent} (s : σ)
    (hother : ¬ evt.controlKey.any isFunctionKey = true) :
  Released en env evt s
  := by
  have hgood : (syncModifiers en env evt s).Good en := good_syncModifiers hen evt s
  rw [Released, legacyKeyboardMode, if_neg hother]
  intro key hkey
  exact Or.inr ((isDown_releaseKeys hen hgood.mapped _).2 (hgood.pressed key hkey).1)

theorem released_iff_not_sticks (hen : en.Lawful) (evt : KeyEvent) (s : σ) :
  Released en env evt s ↔ ¬ Sticks en env evt s
  := by
  rw [Sticks]
  by_cases hfunction : evt.controlKey.any isFunctionKey = true
  · rw [released_of_isFunctionKey hen s hfunction, pressed_syncModifiers hen evt s,
      and_iff_right hfunction]
  · constructor
    · rintro - ⟨hkey, -⟩
      exact hfunction hkey
    · exact fun _ => released_of_not_isFunctionKey hen s hfunction

/-- The modifiers of an event of the mouse are released. -/
theorem mouseReleased (hen : en.Lawful) (evt : MouseEvent) (s : σ) : MouseReleased en env evt s
  := by
  rw [MouseReleased, handleMouseSimulation]
  split
  next => rintro key ⟨⟩
  next =>
      dsimp only
      generalize hp : (if evt.mask &&& mouseTypeMask = mouseTypeDown then _ else _) = p
      have hgood : p.Good en := by
        rw [← hp]
        split
        next =>
            split
            next => exact good_nil _
            next => exact good_foldl hen _ evt.modifiers (good_nil _)
        next => exact good_nil s
      intro key hkey
      exact (isDown_releaseKeys hen hgood.mapped _).2 (hgood.pressed key hkey).1

/-- No event leaves a modifier down, but for the press of `CtrlAltDel` or `LockScreen` that presses
one. -/
theorem released_iff (hen : en.Lawful) :
  (∀ evt s, Released en env evt s ↔ ¬ Sticks en env evt s) ∧ ∀ evt s, MouseReleased en env evt s
  := ⟨released_iff_not_sticks hen, mouseReleased hen⟩

end

/-! ## A keyboard -/

/-- A keyboard whose state is the keys that are down. -/
def board : Enigo (List Key) where
  isDown key s := decide (key ∈ s)
  getKeyState key s := decide (key ∈ s)
  keyDown key s := (key :: s, true)
  keyUp key s := s.filter (· ≠ key)
  keySequence _ s := s
  simulateRelease key s := s.filter (· ≠ key)
  mouse _ _ _ s := s

theorem board_lawful : board.Lawful where
  up {key} _ s := by simp [board]
  up_other _ _ _ := by simp +contextual [board]
  down_other _ _ _ := by simp +contextual [board]
  failed _ _ := by simp [board]

/-- A session of X11, without a mouse that is ignored. -/
def x11 : Env where
  platform := .linux
  isX11 := true
  waylandUseUinput := false
  isAltgrPressed := false
  setClipboardForPasteSync _ := true
  toUppercase text := text
  ignoresMouse := false

/-- Each kind of event on this keyboard. -/
theorem released_board :
  (∀ evt s, Released board x11 evt s ↔ ¬ Sticks board x11 evt s)
    ∧ ∀ evt s, MouseReleased board x11 evt s
  := released_iff board_lawful

/-- After the press of `LockScreen` with the modifier `Control`, `Control` is down. -/
theorem not_released :
  ¬ ∀ (evt : KeyEvent) (s : List Key), Released board x11 evt s
  := by
  intro hreleased
  have hup := hreleased
    ⟨true, some (.controlKey (.known .lockScreen)), [.known .control]⟩ [] .control (by decide)
  revert hup
  decide

end VynxDesk.LegacyKeys
