import VynxDesk.InputBridge.Host

/-!
# Usages of key events

`key_event` and the tables of `libs/enigo/src/win/bridge.rs`, and what `keybd_event` of
`libs/enigo/src/win/win_impl.rs` does to its arguments before it calls it, in a build with the
features of `vynx-play`.
-/

namespace VynxDesk.InputBridge

/-- The usages that a keyboard state has room for. -/
def ValidUsage (usage : UInt8) : Prop :=
  (0xE0 ≤ usage.toNat ∧ usage.toNat ≤ 0xE7) ∨ usage.toNat < 0x80

instance (usage : UInt8) : Decidable (ValidUsage usage) := inferInstanceAs (Decidable (_ ∨ _))

/-- `KEYEVENTF_EXTENDEDKEY`. -/
def keyExtended : UInt32 := 0x0001

/-- `KEYEVENTF_KEYUP`. -/
def keyUp : UInt32 := 0x0002

/-- `KEYEVENTF_UNICODE`. -/
def keyUnicode : UInt32 := 0x0004

/-- `KEYEVENTF_SCANCODE`. -/
def keyScanCode : UInt32 := 0x0008

/-- `virtual_key_to_usage`. -/
def virtualKeyToUsage (vk : UInt16) : Option UInt8 :=
  let vk := vk.toNat
  if 0x41 ≤ vk ∧ vk ≤ 0x5A then some (UInt8.ofNat (0x04 + (vk - 0x41)))
  else if 0x31 ≤ vk ∧ vk ≤ 0x39 then some (UInt8.ofNat (0x1E + (vk - 0x31)))
  else if 0x70 ≤ vk ∧ vk ≤ 0x7B then some (UInt8.ofNat (0x3A + (vk - 0x70)))
  else
    match vk with
    | 0x30 => some 0x27
    | 0x0D => some 0x28
    | 0x1B => some 0x29
    | 0x08 => some 0x2A
    | 0x09 => some 0x2B
    | 0x20 => some 0x2C
    | 0x14 => some 0x39
    | 0x2D => some 0x49
    | 0x24 => some 0x4A
    | 0x21 => some 0x4B
    | 0x2E => some 0x4C
    | 0x23 => some 0x4D
    | 0x22 => some 0x4E
    | 0x27 => some 0x4F
    | 0x25 => some 0x50
    | 0x28 => some 0x51
    | 0x26 => some 0x52
    | 0xA2 => some 0xE0
    | 0xA0 => some 0xE1
    | 0x10 => some 0xE1
    | 0xA4 => some 0xE2
    | 0x12 => some 0xE2
    | 0x5B => some 0xE3
    | 0xA3 => some 0xE4
    | 0x11 => some 0xE4
    | 0xA1 => some 0xE5
    | 0xA5 => some 0xE6
    | 0x5C => some 0xE7
    | _ => none

/-- The extended codes of `scan_code_to_usage`. -/
def extendedUsage (code : ℕ) : Option UInt8 :=
  match code with
  | 0x1C => some 0x58
  | 0x1D => some 0xE4
  | 0x35 => some 0x54
  | 0x37 => some 0x46
  | 0x38 => some 0xE6
  | 0x47 => some 0x4A
  | 0x48 => some 0x52
  | 0x49 => some 0x4B
  | 0x4B => some 0x50
  | 0x4D => some 0x4F
  | 0x4F => some 0x4D
  | 0x50 => some 0x51
  | 0x51 => some 0x4E
  | 0x52 => some 0x49
  | 0x53 => some 0x4C
  | 0x5B => some 0xE3
  | 0x5C => some 0xE7
  | 0x5D => some 0x65
  | _ => none

/-- `scan_code_letter_or_numpad::MAP`. -/
def letterOrNumpadMap : List (ℕ × UInt8) :=
  [(0x10, 0x14), (0x11, 0x1A), (0x12, 0x08), (0x13, 0x15), (0x14, 0x17), (0x15, 0x1C),
    (0x16, 0x18), (0x17, 0x0C), (0x18, 0x12), (0x19, 0x13), (0x1A, 0x2F), (0x1B, 0x30),
    (0x1E, 0x04), (0x1F, 0x16), (0x20, 0x07), (0x21, 0x09), (0x22, 0x0A), (0x23, 0x0B),
    (0x24, 0x0D), (0x25, 0x0E), (0x26, 0x0F), (0x27, 0x33), (0x28, 0x34), (0x29, 0x35),
    (0x2B, 0x31), (0x2C, 0x1D), (0x2D, 0x1B), (0x2E, 0x06), (0x2F, 0x19), (0x30, 0x05),
    (0x31, 0x11), (0x32, 0x10), (0x33, 0x36), (0x34, 0x37), (0x35, 0x38), (0x37, 0x55),
    (0x45, 0x53), (0x46, 0x47), (0x47, 0x5F), (0x48, 0x60), (0x49, 0x61), (0x4A, 0x56),
    (0x4B, 0x5C), (0x4C, 0x5D), (0x4D, 0x5E), (0x4E, 0x57), (0x4F, 0x59), (0x50, 0x5A),
    (0x51, 0x5B), (0x52, 0x62), (0x53, 0x63)]

/-- `scan_code_letter_or_numpad`. -/
def scanCodeLetterOrNumpad (code : ℕ) : Option UInt8 :=
  letterOrNumpadMap.findSome? fun (scan, usage) => if scan = code then some usage else none

/-- `scan_code_to_usage`. -/
def scanCodeToUsage (scan : UInt32) : Option UInt8 :=
  let code := (scan &&& 0xFF).toNat
  if scan >>> 8 = 0xE0 ∨ scan >>> 8 = 0xE1 then extendedUsage code
  else if 0x02 ≤ code ∧ code ≤ 0x0A then some (UInt8.ofNat (0x1E + code - 0x02))
  else if 0x3B ≤ code ∧ code ≤ 0x44 then some (UInt8.ofNat (0x3A + code - 0x3B))
  else
    match code with
    | 0x01 => some 0x29
    | 0x0B => some 0x27
    | 0x0C => some 0x2D
    | 0x0D => some 0x2E
    | 0x0E => some 0x2A
    | 0x0F => some 0x2B
    | 0x1C => some 0x28
    | 0x1D => some 0xE0
    | 0x2A => some 0xE1
    | 0x36 => some 0xE5
    | 0x38 => some 0xE2
    | 0x39 => some 0x2C
    | 0x3A => some 0x39
    | 0x57 => some 0x45
    | 0x58 => some 0x46
    | _ => scanCodeLetterOrNumpad code

/-- The usage that `key_event` takes its arguments for. -/
def keyUsage (vk scan : UInt16) (flags : UInt32) : Option UInt8 :=
  if hasAny flags keyUnicode then none
  else
    let scan :=
      if hasAny flags keyExtended ∧ scan < 0x100 then 0xE000 ||| scan.toUInt32 else scan.toUInt32
    if scan ≠ 0 then scanCodeToUsage scan else virtualKeyToUsage vk

/-- `InputCompatibilityProfile`. -/
inductive InputCompatibilityProfile where
  | standard
  | scanCode
  | virtualKey
  | legacyWindow
  deriving DecidableEq

/-- The flags and the scan code that `keybd_event` calls `key_event` with; `mapVirtualKey` is
`MapVirtualKeyExW` in the layout of the foreground window. -/
def keybdArguments (profile : InputCompatibilityProfile) (mapVirtualKey : UInt16 → ℕ → UInt16)
    (flags : UInt32) (vk scan : UInt16) : UInt32 × UInt16 :=
  let scan :=
    if scan = 0 then
      if mapVirtualKey vk 4 = 0 then mapVirtualKey vk 0 else mapVirtualKey vk 4
    else scan
  if hasAny flags keyUnicode then (flags, scan)
  else
    let (flags, scan) :=
      if profile = .virtualKey then (flags &&& ~~~(keyScanCode ||| keyExtended), 0)
      else (flags, scan)
    let (flags, scan) :=
      if scan >>> 8 = 0xE0 ∨ scan >>> 8 = 0xE1 then (flags ||| keyExtended, scan &&& 0xFF)
      else (flags, scan)
    (if scan ≠ 0 then flags ||| keyScanCode else flags, scan)

/-- `rdev::RawKey`, as far as `bridge_rdev_event` tells its values apart. -/
inductive RawKey where
  | scanCode (scan : UInt32)
  | winVirtualKeycode (vk : UInt32)
  | other
  deriving DecidableEq

/-- The usage that `bridge_rdev_event` takes a raw key for. -/
def rawKeyUsage : RawKey → Option UInt8
  | .scanCode scan => scanCodeToUsage scan
  | .winVirtualKeycode vk => if vk.toNat < 2 ^ 16 then virtualKeyToUsage vk.toUInt16 else none
  | .other => none

/-! ### The usages are valid -/

/-- A usage counted from a valid one within the keys below the modifiers. -/
theorem validUsage_ofNat {n : ℕ} (h : n < 0x80) :
  ValidUsage (UInt8.ofNat n)
  := by
  right
  rw [UInt8.toNat_ofNat']
  omega

theorem virtualKeyToUsage_valid {vk : UInt16} {usage : UInt8}
    (h : virtualKeyToUsage vk = some usage) :
  ValidUsage usage
  := by
  unfold virtualKeyToUsage at h
  dsimp only at h
  split_ifs at h
  · cases h
    apply validUsage_ofNat
    omega
  · cases h
    apply validUsage_ofNat
    omega
  · cases h
    apply validUsage_ofNat
    omega
  · split at h
    all_goals
      cases h
      try decide

theorem extendedUsage_valid {code : ℕ} {usage : UInt8} (h : extendedUsage code = some usage) :
  ValidUsage usage
  := by
  unfold extendedUsage at h
  split at h
  all_goals
    cases h
    try decide

theorem scanCodeLetterOrNumpad_valid {code : ℕ} {usage : UInt8}
    (h : scanCodeLetterOrNumpad code = some usage) :
  ValidUsage usage
  := by
  have hmap : ∀ entry ∈ letterOrNumpadMap, ValidUsage entry.2 := by
    decide
  obtain ⟨⟨scan, usage'⟩, hentry, hfound⟩ := List.exists_of_findSome?_eq_some h
  dsimp only at hfound
  split_ifs at hfound with hscan
  cases hfound
  apply hmap _ hentry

theorem scanCodeToUsage_valid {scan : UInt32} {usage : UInt8}
    (h : scanCodeToUsage scan = some usage) :
  ValidUsage usage
  := by
  unfold scanCodeToUsage at h
  dsimp only at h
  split_ifs at h
  · apply extendedUsage_valid h
  · cases h
    apply validUsage_ofNat
    omega
  · cases h
    apply validUsage_ofNat
    omega
  · split at h
    case h_16 => apply scanCodeLetterOrNumpad_valid h
    all_goals
      cases h
      decide

/-- The usage of a key event is valid. -/
theorem keyUsage_valid {vk scan : UInt16} {flags : UInt32} {usage : UInt8}
    (h : keyUsage vk scan flags = some usage) :
  ValidUsage usage
  := by
  rw [keyUsage] at h
  dsimp only at h
  split_ifs at h
  · apply scanCodeToUsage_valid h
  · apply virtualKeyToUsage_valid h
  · apply scanCodeToUsage_valid h
  · apply virtualKeyToUsage_valid h

/-- The usage of a raw key is valid. -/
theorem rawKeyUsage_valid {rawKey : RawKey} {usage : UInt8} (h : rawKeyUsage rawKey = some usage) :
  ValidUsage usage
  := by
  cases rawKey with
  | scanCode scan => apply scanCodeToUsage_valid h
  | winVirtualKeycode vk =>
      unfold rawKeyUsage at h
      dsimp only at h
      split_ifs at h
      apply virtualKeyToUsage_valid h
  | other => cases h

end VynxDesk.InputBridge
