import VynxDesk.InputBridge.Agreement

/-!
# Routing of input events

The input events of `libs/enigo/src/win/win_impl.rs`, of `bridge_rdev_event` with its caller
`simulate_`, and of the sessions.  An event is offered to the bridge; when the bridge does not take
it, it is passed on to the existing Windows input path.  A `Desk` is the bridge with the events so
far and the ones passed on, as the usages and buttons that they press and release.
-/

namespace VynxDesk.InputBridge

/-- `MouseButton`. -/
inductive MouseButton where
  | left
  | middle
  | right
  | back
  | forward
  | scrollUp
  | scrollDown
  | scrollLeft
  | scrollRight
  deriving DecidableEq

namespace MouseButton

/-- The flags of `mouse_down`, for the buttons that it supports. -/
def downFlags : MouseButton → Option UInt32
  | left => some leftDown
  | middle => some middleDown
  | right => some rightDown
  | back | forward => some xDown
  | _ => none

/-- The flags of `mouse_up`, for the buttons that it supports. -/
def upFlags : MouseButton → Option UInt32
  | left => some leftUp
  | middle => some middleUp
  | right => some rightUp
  | back | forward => some xUp
  | _ => none

/-- The data of `mouse_down` and of `mouse_up`. -/
def data : MouseButton → UInt32
  | back => xButton1
  | forward => xButton2
  | _ => 0

/-- The index of a button in the masks of the bridge. -/
def index : MouseButton → Option (Fin 8)
  | left => some 0
  | right => some 1
  | middle => some 2
  | back => some 3
  | forward => some 4
  | _ => none

end MouseButton

/-- A key, by its usage, or a mouse button, by its index. -/
inductive Input where
  | key (usage : UInt8)
  | button (i : Fin 8)
  deriving DecidableEq

/-- An input event: `keybd_event`, `simulate_`, the mouse methods of `Enigo`, with the scaled
coordinates of `mouse_move_to`, and the other calls on the bridge. -/
inductive HostEvent where
  | keybd (profile : InputCompatibilityProfile) (mapVirtualKey : UInt16 → ℕ → UInt16)
      (flags : UInt32) (vk scan : UInt16)
  | simulate (rawKey : RawKey) (down : Bool)
  | mouseDown (button : MouseButton)
  | mouseUp (button : MouseButton)
  | mouseMoveTo (x y : Int)
  | mouseMoveRelative (x y : Int)
  | mouseScrollX (length : UInt32)
  | mouseScrollY (length : UInt32)
  | heartbeat
  | releaseAll
  | sessionStarted
  | sessionEnded

/-- A coordinate as `absolute_mouse` sends it. -/
def absoluteWord (d : Int) : UInt16 := UInt16.ofNat ((max 0 (min d 65535)).toNat / 2)

namespace HostEvent

/-- The usage of a key event, and whether it is a press. -/
def key : HostEvent → Option (UInt8 × Bool)
  | keybd profile mapVirtualKey flags vk scan =>
      let (flags, scan) := keybdArguments profile mapVirtualKey flags vk scan
      (keyUsage vk scan flags).map fun usage => (usage, !hasAny flags keyUp)
  | simulate rawKey down => (rawKeyUsage rawKey).map fun usage => (usage, down)
  | _ => none

/-- The index of the button of a button event, and whether it is a press. -/
def button : HostEvent → Option (Fin 8 × Bool)
  | mouseDown button => button.index.map fun i => (i, true)
  | mouseUp button => button.index.map fun i => (i, false)
  | _ => none

/-- What an event presses or releases. -/
def input (event : HostEvent) : Option (Input × Bool) :=
  (event.key.map fun (usage, down) => (.key usage, down)).or
    (event.button.map fun (i, down) => (.button i, down))

/-- The calls on the bridge that an event makes, each when the ones before it returned `false`. -/
def calls : HostEvent → List Call
  | event@(keybd ..) | event@(simulate ..) =>
      (event.key.map fun (usage, down) => Call.key usage down).toList
  | mouseDown button =>
      (button.downFlags.map fun flags => Call.mouse flags button.data 0 0).toList
  | mouseUp button => (button.upFlags.map fun flags => Call.mouse flags button.data 0 0).toList
  | mouseMoveTo x y =>
      [.absoluteMouse (absoluteWord x) (absoluteWord y),
        .mouse (moveFlag ||| absoluteFlag ||| virtualDeskFlag) 0 x y]
  | mouseMoveRelative x y => [.mouse moveFlag 0 x y]
  | mouseScrollX length => [.mouse hwheelFlag length 0 0]
  | mouseScrollY length => [.mouse wheelFlag length 0 0]
  | heartbeat => [.heartbeat]
  | releaseAll => [.releaseAll]
  | sessionStarted => [.sessionStarted]
  | sessionEnded => [.sessionEnded]

end HostEvent

/-- Calls made one after the other, until one returns `true`. -/
def execCalls (usb : Usb) : BridgeState → List Call → BridgeState × Bool
  | s, [] => (s, false)
  | s, call :: calls =>
      match call.exec s usb with
      | (s', true) => (s', true)
      | (s', false) => execCalls usb s' calls

/-- The bridge, the events of usages and buttons, and those of them that were passed on to the
Windows input path, the oldest first. -/
structure Desk where
  bridge : BridgeState
  events : List (Input × Bool)
  windows : List (Input × Bool)

/-- Whether the last event of an input was a press, if there was one. -/
def lastEvent (log : List (Input × Bool)) (x : Input) : Option Bool :=
  log.foldl (fun last event => if event.1 = x then some event.2 else last) none

/-- The state of an input that the reports written to a device carry. -/
def Device.Holds (device : Device) : Input → Prop
  | .key usage => keyboardContains device.carried.keyboard usage = true
  | .button i => Flags.has device.carried.buttons i = true

namespace BridgeState

/-- The state of an input in the mirror. -/
def Mirrors (s : BridgeState) : Input → Prop
  | .key usage => keyboardContains s.keyboard usage = true
  | .button i => Flags.has s.mouseButtons i = true

/-- The release of the input is left to the Windows input path. -/
def Leaves (s : BridgeState) : Input → Prop
  | .key usage => keyboardContains s.softwareKeyboard usage = true
  | .button i => Flags.has s.softwareMouseButtons i = true

end BridgeState

namespace Desk

/-- The desk before any event. -/
def start (ids : Option (UInt16 × UInt16)) (now : Int) : Desk := ⟨.new ids now, [], []⟩

/-- What an event leads to. -/
def next (d : Desk) (label : HostEvent × Usb) : Desk :=
  let (bridge, taken) := execCalls label.2 d.bridge label.1.calls
  let input := label.1.input.toList
  ⟨bridge, d.events ++ input, if taken then d.windows else d.windows ++ input⟩

/-- An event, and what the system answers. -/
def Step (d : Desk) (label : HostEvent × Usb) (d' : Desk) : Prop := d' = d.next label

/-- An input whose last event was a release is held on neither path: the last state written to the
device that is open does not have it, and its last event on the Windows input path, if there was
one, was a release. -/
def NoneStuck (d : Desk) : Prop :=
  ∀ x, lastEvent d.events x = some false →
    (∀ device, d.bridge.device = some device → ¬ device.Holds x) ∧
      lastEvent d.windows x ≠ some true

end Desk

namespace HostEvent

/-- The event is a movement of the pointer or a turn of the wheel. -/
def moves : HostEvent → Bool
  | mouseMoveTo _ _ | mouseMoveRelative _ _ | mouseScrollX _ | mouseScrollY _ => true
  | _ => false

/-- The frame of the event carries the state of the input from the mirror: a key event the other
keys, a button event the other buttons, and a movement or a turn of the wheel all buttons. -/
def Carries (event : HostEvent) : Input → Prop
  | .key usage => ∃ usage' down, event.key = some (usage', down) ∧ usage ≠ usage'
  | .button i =>
      (∃ i' down, event.button = some (i', down) ∧ i ≠ i') ∨ event.moves = true

end HostEvent

namespace Desk

/-- The condition under which an event leaves nothing stuck.  A release that is left to the Windows
input path is of an input that the device does not hold; and when the frame of an event opens a
device, each input whose state it carries from the mirror, and that the mirror holds, is one whose
last event was not a release. -/
def Meets (d : Desk) (label : HostEvent × Usb) : Prop :=
  (∀ x, label.1.input = some (x, false) → d.bridge.Leaves x →
    ∀ device, d.bridge.device = some device → ¬ device.Holds x) ∧
  (d.bridge.Reopens label.2 →
    (∀ x, label.1.input = some (x, false) → ¬ d.bridge.Leaves x) →
      ∀ x, label.1.Carries x → d.bridge.Mirrors x → lastEvent d.events x ≠ some false)

end Desk

end VynxDesk.InputBridge
