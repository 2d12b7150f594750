import Mathlib.Logic.Function.Basic
import VynxDesk.Lib.Run

/-!
# Privacy mode

`privacy_mode.rs` keeps in `PRIVACY_MODE` the implementation of privacy mode and the connection that
turned it on.  A connection turns it on and off from its loop (`server/connection.rs`); with the
driver of amyuni a thread of its own turns it on, while the loop waits for at most 7.5 seconds.

Whoever is asked to turn on may fail; to turn off succeeds, where it is allowed, and
`check_privacy_mode_err` finds no error of the capture.
-/

namespace VynxDesk.Privacy

/-- `INVALID_PRIVACY_MODE_CONN_ID`. -/
def invalidPrivacyModeConnId : Int32 := 0

/-- `OCCUPIED`. -/
def occupied : String := "Privacy occupied by another one."

/-- `TURN_OFF_OTHER_ID`. -/
def turnOffOtherId : String := "Failed to turn off privacy mode that belongs to someone else."

/-- `PRIVACY_MODE_IMPL_WIN_VIRTUAL_DISPLAY`. -/
def privacyModeImplWinVirtualDisplay : String := "privacy_mode_impl_virtual_display"

/-! ## The implementations -/

/-- What the implementations of the trait `PrivacyMode` keep. -/
structure PrivacyMode where
  implKey : String
  preConnId : Int32
  deriving DecidableEq, Repr

namespace PrivacyMode

/-- `PrivacyMode::check_on_conn_id`. -/
def checkOnConnId (self : PrivacyMode) (connId : Int32) : Except String Bool :=
  if self.preConnId = connId then .ok true
  else if self.preConnId ≠ invalidPrivacyModeConnId then .error occupied
  else .ok false

/-- `PrivacyMode::check_off_conn_id`. -/
def checkOffConnId (self : PrivacyMode) (connId : Int32) : Except String Unit :=
  if self.preConnId ≠ invalidPrivacyModeConnId ∧ connId ≠ invalidPrivacyModeConnId
      ∧ self.preConnId ≠ connId then
    .error turnOffOtherId
  else .ok ()

/-- `turn_on_privacy` of the implementations, where `started` is what comes of what they start. -/
def turnOnPrivacy (self : PrivacyMode) (connId : Int32) (started : Except String Bool) :
    PrivacyMode × Except String Bool :=
  match self.checkOnConnId connId with
  | .error e => (self, .error e)
  | .ok true => (self, .ok true)
  | .ok false =>
      match started with
      | .ok true => ({ self with preConnId := connId }, .ok true)
      | _ => (self, started)

/-- `turn_off_privacy` of the implementations. -/
def turnOffPrivacy (self : PrivacyMode) (connId : Int32) : PrivacyMode × Except String Unit :=
  match self.checkOffConnId connId with
  | .error e => (self, .error e)
  | .ok () => ({ self with preConnId := invalidPrivacyModeConnId }, .ok ())

end PrivacyMode

/-! ## The current implementation -/

/-- What the platform gives: `DEFAULT_PRIVACY_MODE_IMPL`, the keys of `PRIVACY_MODE_CREATOR`,
`is_amyuni_idd`, and the text of the error of a wait that is over. -/
structure Platform where
  defaultPrivacyModeImpl : String
  creators : List String
  isAmyuniIdd : Bool
  elapsed : String
  deriving DecidableEq, Repr

/-- The keys of `get_supported_privacy_mode_impl` and the option `privacy-mode-impl-key`. -/
structure Settings where
  supported : List String
  implKey : String
  deriving DecidableEq, Repr

section

variable (platform : Platform)

/-- `get_supported_impl`. -/
def getSupportedImpl (settings : Settings) (implKey : String) : String :=
  if implKey ∈ settings.supported then implKey
  else if settings.implKey ∈ settings.supported then settings.implKey
  else platform.defaultPrivacyModeImpl

/-- The initial `PRIVACY_MODE`. -/
def initial (settings : Settings) : Option PrivacyMode :=
  let curImpl :=
    if settings.implKey ∈ settings.supported then settings.implKey
    else platform.defaultPrivacyModeImpl
  if curImpl ∈ platform.creators then some ⟨curImpl, invalidPrivacyModeConnId⟩ else none

/-- `privacy_mode::switch`. -/
def switch (mode : Option PrivacyMode) (implKey : String) : Option PrivacyMode :=
  if mode.map PrivacyMode.implKey = some implKey then mode
  else if implKey ∈ platform.creators then some ⟨implKey, invalidPrivacyModeConnId⟩
  else mode

/-- `is_async_privacy_mode`. -/
def isAsyncPrivacyMode (mode : Option PrivacyMode) : Bool :=
  mode.elim false fun m => m.implKey == privacyModeImplWinVirtualDisplay && platform.isAmyuniIdd

/-- The key of the current implementation. -/
def curImplKey (mode : Option PrivacyMode) : String := mode.elim "" PrivacyMode.implKey

/-- The end of `turn_on_privacy_sync`: `PRIVACY_MODE` becomes an implementation of `implKey`, which
is turned on. -/
def turnOnImpl (mode : Option PrivacyMode) (implKey : String) (connId : Int32)
    (started : Except String Bool) : Option PrivacyMode × Option (Except String Bool) :=
  if curImplKey mode ≠ implKey then
    if implKey ∈ platform.creators then
      let (m, res) :=
        PrivacyMode.turnOnPrivacy ⟨implKey, invalidPrivacyModeConnId⟩ connId started
      (some m, some res)
    else (mode, some (.error ("Unsupported privacy mode: " ++ implKey)))
  else
    match mode with
    | none => (none, none)
    | some m =>
        let (m, res) := m.turnOnPrivacy connId started
        (some m, some res)

/-- `turn_on_privacy_sync`. -/
def turnOnPrivacySync (settings : Settings) (mode : Option PrivacyMode) (implKey : String)
    (connId : Int32) (started : Except String Bool) :
    Option PrivacyMode × Option (Except String Bool) :=
  let implKey := getSupportedImpl platform settings implKey
  let checkOnConnId : Option (Except String Bool) := mode.map (·.checkOnConnId connId)
  match checkOnConnId with
  | some (.error e) => (mode, some (.error e))
  | some (.ok true) =>
      if curImplKey mode = implKey then (mode, some (.ok true))
      else turnOnImpl platform mode implKey connId started
  | _ => turnOnImpl platform mode implKey connId started

end

/-- `turn_off_privacy`. -/
def turnOffPrivacy (mode : Option PrivacyMode) (connId : Int32) :
    Option PrivacyMode × Option (Except String Unit) :=
  match mode with
  | none => (none, none)
  | some m =>
      let (m, res) := m.turnOffPrivacy connId
      (some m, some res)

/-- `get_privacy_mode_conn_id`, where there is no implementation the invalid one. -/
def preConnId (mode : Option PrivacyMode) : Int32 :=
  mode.elim invalidPrivacyModeConnId PrivacyMode.preConnId

/-- `is_in_privacy_mode`. -/
def isInPrivacyMode (mode : Option PrivacyMode) : Bool := preConnId mode != invalidPrivacyModeConnId

/-! ## What the checks guarantee -/

section

variable {mode : Option PrivacyMode} {connId : Int32}

theorem preConnId_some (m : PrivacyMode) :
  preConnId (some m) = m.preConnId
  := rfl

/-- A connection cannot turn off the privacy mode of another one. -/
theorem turnOffPrivacy_of_other (hin : preConnId mode ≠ invalidPrivacyModeConnId)
    (hvalid : connId ≠ invalidPrivacyModeConnId) (hother : connId ≠ preConnId mode) :
  turnOffPrivacy mode connId = (mode, some (.error turnOffOtherId))
  := by
  cases mode with
  | none => cases hin rfl
  | some m =>
      have hcheck : m.checkOffConnId connId = .error turnOffOtherId := by
        rw [PrivacyMode.checkOffConnId, if_pos ⟨hin, hvalid, hother.symm⟩]
      rw [turnOffPrivacy, PrivacyMode.turnOffPrivacy, hcheck]

variable (mode connId) in
/-- Turning off leaves the privacy mode of another connection, or none. -/
theorem preConnId_turnOffPrivacy :
  preConnId (turnOffPrivacy mode connId).1 = invalidPrivacyModeConnId
    ∨ (turnOffPrivacy mode connId).1 = mode ∧ connId ≠ preConnId mode
      ∧ connId ≠ invalidPrivacyModeConnId
  := by
  cases mode with
  | none => exact Or.inl rfl
  | some m =>
      rw [turnOffPrivacy, PrivacyMode.turnOffPrivacy]
      cases hcheck : m.checkOffConnId connId with
      | ok => exact Or.inl rfl
      | error e =>
          rw [PrivacyMode.checkOffConnId] at hcheck
          split at hcheck
          next hother => exact Or.inr ⟨rfl, hother.2.2.symm, hother.2.1⟩
          next => cases hcheck

variable (mode) in
/-- With the invalid id, privacy mode is turned off whoever it belongs to. -/
theorem preConnId_turnOffPrivacy_invalid :
  preConnId (turnOffPrivacy mode invalidPrivacyModeConnId).1 = invalidPrivacyModeConnId
  := by
  rcases preConnId_turnOffPrivacy mode invalidPrivacyModeConnId with h | ⟨_, _, hinvalid⟩
  · exact h
  · cases hinvalid rfl

theorem PrivacyMode.checkOnConnId_eq_true {m : PrivacyMode} :
  m.checkOnConnId connId = .ok true ↔ m.preConnId = connId
  := by
  rw [PrivacyMode.checkOnConnId]
  split
  next howner => simp [howner]
  next howner => split <;> simp [howner]

section

variable {platform : Platform} {settings : Settings} {implKey : String}
  {started : Except String Bool}

/-- While privacy mode is another one's, a turn-on is refused. -/
theorem turnOnPrivacySync_of_other (hin : preConnId mode ≠ invalidPrivacyModeConnId)
    (hother : connId ≠ preConnId mode) :
  turnOnPrivacySync platform settings mode implKey connId started
    = (mode, some (.error occupied))
  := by
  cases mode with
  | none => cases hin rfl
  | some m =>
      have hcheck : m.checkOnConnId connId = .error occupied := by
        rw [preConnId_some] at hin hother
        rw [PrivacyMode.checkOnConnId, if_neg hother.symm, if_pos hin]
      rw [turnOnPrivacySync]
      dsimp only [Option.map_some]
      rw [hcheck]

theorem PrivacyMode.turnOnPrivacy_ok {m : PrivacyMode}
    (h : (m.turnOnPrivacy connId started).2 = .ok true) :
  (m.turnOnPrivacy connId started).1.preConnId = connId
  := by
  rw [PrivacyMode.turnOnPrivacy.eq_def] at h ⊢
  cases hcheck : m.checkOnConnId connId with
  | error e =>
      rw [hcheck] at h
      cases h
  | ok own =>
      rw [hcheck] at h
      cases own with
      | true => exact PrivacyMode.checkOnConnId_eq_true.mp hcheck
      | false =>
          dsimp only at h ⊢
          split at h
          next => rfl
          next hfailed => cases hfailed h

/-- After an implementation has turned on, privacy mode belongs to the connection. -/
theorem preConnId_turnOnImpl
    (h : (turnOnImpl platform mode implKey connId started).2 = some (.ok true)) :
  preConnId (turnOnImpl platform mode implKey connId started).1 = connId
  := by
  rw [turnOnImpl.eq_def] at h ⊢
  split
  next hother =>
      rw [if_pos hother] at h
      split
      next hcreator =>
          rw [if_pos hcreator] at h
          exact PrivacyMode.turnOnPrivacy_ok (Option.some.inj h)
      next hcreator =>
          rw [if_neg hcreator] at h
          cases h
  next hsame =>
      rw [if_neg hsame] at h
      cases mode with
      | none => cases h
      | some m => exact PrivacyMode.turnOnPrivacy_ok (Option.some.inj h)

variable (platform settings mode implKey connId started) in
/-- What a turn-on comes to: it is refused, there is nothing to do, or an implementation turns on.
-/
theorem turnOnPrivacySync_cases :
  turnOnPrivacySync platform settings mode implKey connId started = (mode, some (.error occupied))
    ∨ preConnId mode = connId
      ∧ turnOnPrivacySync platform settings mode implKey connId started = (mode, some (.ok true))
    ∨ turnOnPrivacySync platform settings mode implKey connId started
      = turnOnImpl platform mode (getSupportedImpl platform settings implKey) connId started
  := by
  cases mode with
  | none => exact Or.inr (Or.inr rfl)
  | some m =>
      rw [turnOnPrivacySync.eq_def]
      dsimp only [Option.map_some]
      cases hcheck : m.checkOnConnId connId with
      | error e =>
          rw [PrivacyMode.checkOnConnId] at hcheck
          split at hcheck
          next => cases hcheck
          next =>
              split at hcheck
              next =>
                  obtain rfl := Except.error.inj hcheck
                  exact Or.inl rfl
              next => cases hcheck
      | ok own =>
          cases own with
          | true =>
              have hown := PrivacyMode.checkOnConnId_eq_true.mp hcheck
              dsimp only
              split
              next => exact Or.inr (Or.inl ⟨hown, rfl⟩)
              next => exact Or.inr (Or.inr rfl)
          | false => exact Or.inr (Or.inr rfl)

/-- After a turn-on that succeeds, privacy mode belongs to the connection. -/
theorem preConnId_turnOnPrivacySync
    (h : (turnOnPrivacySync platform settings mode implKey connId started).2 = some (.ok true)) :
  preConnId (turnOnPrivacySync platform settings mode implKey connId started).1 = connId
  := by
  rcases turnOnPrivacySync_cases mode connId platform settings implKey started with
    hcase | ⟨hown, hcase⟩ | hcase
  · rw [hcase] at h
    cases h
  · rw [hcase]
    exact hown
  · rw [hcase] at h ⊢
    exact preConnId_turnOnImpl h

/-- To turn on what is on already changes nothing. -/
theorem turnOnPrivacySync_own (hvalid : connId ≠ invalidPrivacyModeConnId)
    (hown : preConnId mode = connId)
    (hkey : getSupportedImpl platform settings implKey = curImplKey mode) :
  turnOnPrivacySync platform settings mode implKey connId started = (mode, some (.ok true))
  := by
  cases mode with
  | none => cases hvalid hown.symm
  | some m =>
      have hcheck : m.checkOnConnId connId = .ok true :=
        PrivacyMode.checkOnConnId_eq_true.mpr hown
      rw [turnOnPrivacySync]
      dsimp only [Option.map_some]
      rw [hcheck]
      dsimp only
      rw [if_pos hkey.symm]

theorem PrivacyMode.turnOnPrivacy_eq_self_or (m : PrivacyMode) :
  (m.turnOnPrivacy connId started).1 = m
    ∨ m.preConnId = invalidPrivacyModeConnId ∧ started = .ok true
      ∧ m.turnOnPrivacy connId started = ({ m with preConnId := connId }, .ok true)
  := by
  rw [PrivacyMode.turnOnPrivacy.eq_def]
  cases hcheck : m.checkOnConnId connId with
  | error e => exact Or.inl rfl
  | ok own =>
      cases own with
      | true => exact Or.inl rfl
      | false =>
          dsimp only
          split
          next =>
              apply Or.inr
              refine ⟨?_, rfl, rfl⟩
              rw [PrivacyMode.checkOnConnId] at hcheck
              split at hcheck
              next => cases hcheck
              next =>
                  split at hcheck
                  next => cases hcheck
                  next hoff => exact not_not.mp hoff
          next => exact Or.inl rfl

/-- Whether privacy mode is off, or the connection's own with another implementation, and there is
an implementation to turn on. -/
def CanTurnOn (platform : Platform) (settings : Settings) (mode : Option PrivacyMode)
    (implKey : String) (connId : Int32) : Prop :=
  if getSupportedImpl platform settings implKey = curImplKey mode then
    preConnId mode = invalidPrivacyModeConnId
  else
    getSupportedImpl platform settings implKey ∈ platform.creators
      ∧ (preConnId mode = invalidPrivacyModeConnId ∨ preConnId mode = connId)

/-- A turn-on changes the implementation only where privacy mode is off, or the connection's own. -/
theorem turnOnPrivacySync_eq_self_or :
  (turnOnPrivacySync platform settings mode implKey connId started).1 = mode
    ∨ preConnId mode = invalidPrivacyModeConnId ∨ preConnId mode = connId
  := by
  by_cases hin : preConnId mode = invalidPrivacyModeConnId
  · exact Or.inr (Or.inl hin)
  · by_cases hown : preConnId mode = connId
    · exact Or.inr (Or.inr hown)
    · rw [turnOnPrivacySync_of_other hin (Ne.symm hown)]
      exact Or.inl rfl

instance (platform : Platform) (settings : Settings) (mode : Option PrivacyMode)
    (implKey : String) (connId : Int32) :
    Decidable (CanTurnOn platform settings mode implKey connId) :=
  inferInstanceAs (Decidable (
    if getSupportedImpl platform settings implKey = curImplKey mode then
      preConnId mode = invalidPrivacyModeConnId
    else
      getSupportedImpl platform settings implKey ∈ platform.creators
        ∧ (preConnId mode = invalidPrivacyModeConnId ∨ preConnId mode = connId)))

/-- A turn-on changes nothing, or turns privacy mode on, or turns it off for another implementation
that cannot be turned on. -/
theorem turnOnPrivacySync_effect :
  (turnOnPrivacySync platform settings mode implKey connId started).1 = mode
    ∨ (started = .ok true ∧ CanTurnOn platform settings mode implKey connId
      ∧ (turnOnPrivacySync platform settings mode implKey connId started).2 = some (.ok true))
    ∨ preConnId (turnOnPrivacySync platform settings mode implKey connId started).1
      = invalidPrivacyModeConnId
  := by
  have hwhose := @turnOnPrivacySync_eq_self_or mode connId platform settings implKey started
  rcases turnOnPrivacySync_cases mode connId platform settings implKey started with
    hcase | ⟨_, hcase⟩ | hcase
  · exact Or.inl (congrArg Prod.fst hcase)
  · exact Or.inl (congrArg Prod.fst hcase)
  · rw [CanTurnOn]
    rw [hcase, turnOnImpl.eq_def] at hwhose ⊢
    by_cases hkey : getSupportedImpl platform settings implKey = curImplKey mode
    · rw [if_neg (not_not.mpr hkey.symm), if_pos hkey]
      cases mode with
      | none => exact Or.inl rfl
      | some m =>
          rcases m.turnOnPrivacy_eq_self_or with hself | ⟨hoff, hstarted, hon⟩
          · exact Or.inl (congrArg some hself)
          · exact Or.inr (Or.inl ⟨hstarted, hoff, congrArg (fun x => some x.2) hon⟩)
    · rw [if_pos (Ne.symm hkey)] at hwhose ⊢
      rw [if_neg hkey]
      split
      next hcreator =>
          rw [if_pos hcreator] at hwhose
          rcases hwhose with hsame | hwhose
          · exact Or.inl hsame
          · apply Or.inr
            rcases PrivacyMode.turnOnPrivacy_eq_self_or _ with hself | ⟨_, hstarted, hon⟩
            · exact Or.inr (congrArg PrivacyMode.preConnId hself)
            · exact Or.inl ⟨hstarted, ⟨hcreator, hwhose⟩, congrArg (fun x => some x.2) hon⟩
      next => exact Or.inl rfl

end

end

/-! ## Connections -/

/-- `back_notification::PrivacyModeState`, as far as it answers a request. -/
inductive PrivacyModeState where
  | prvOnFailedDenied
  | prvNotSupported
  | prvOnSucceeded
  | prvOnFailed
  | prvOffSucceeded
  | prvOffFailed
  | prvOffByPeer
  deriving DecidableEq, Repr

/-- A message to the peer of a connection.  The number `worker` is not in the message: it says which
thread turned privacy mode on, or was to do so. -/
structure Notification where
  connId : Int32
  worker : Option ℕ
  state : PrivacyModeState
  details : String
  implKey : String
  deriving DecidableEq, Repr

/-- What a peer is told where there is no privacy mode. -/
def unsupported : String :=
  "Unsupported. 1 Multi-screen is not supported. " ++ "2 Please confirm the license is activated."

/-- Where the task of a connection stands: in its loop; about to turn privacy mode on; waiting for a
thread that does; with its result; about to clean up after an error; out of its loop, about to look
whose privacy mode it is; about to turn it off; at its end. -/
inductive Phase where
  | idle
  | calling (implKey : String)
  | waiting (worker : ℕ) (implKey : String)
  | returned (worker : Option ℕ) (implKey : String) (res : Option (Except String Bool))
  | cleaning (worker : Option ℕ) (implKey : String) (e : String)
  | closing
  | releasing
  | ended

/-- Where a thread of `turn_on_privacy_async` stands: at its start, after `turn_on_privacy_sync`, at
its end. -/
inductive Progress where
  | started
  | finished (res : Option (Except String Bool))
  | ended (res : Option (Except String Bool))

/-- A thread of `turn_on_privacy_async`. -/
structure Worker where
  connId : Int32
  implKey : String
  progress : Progress

/-- The process.  The last three fields are its history: `sent` are the messages to the peers,
`turnedOnBy` is the thread that turned privacy mode on last, if it was not the task itself, and
`owner` is the connection whose turn-on has succeeded, as long as it holds, with the thread that it
waited for. -/
structure System where
  settings : Settings
  mode : Option PrivacyMode
  tasks : Int32 → Option Phase
  workers : ℕ → Option Worker
  sent : List Notification
  turnedOnBy : Option ℕ
  owner : Option (Int32 × Option ℕ)

namespace System

/-- The process as it starts. -/
def start (platform : Platform) (settings : Settings) : System where
  settings := settings
  mode := initial platform settings
  tasks := fun _ => none
  workers := fun _ => none
  sent := []
  turnedOnBy := none
  owner := none

/-- The task of a connection moves on. -/
def setTask (s : System) (c : Int32) (phase : Phase) : System :=
  { s with tasks := Function.update s.tasks c (some phase) }

/-- A thread moves on. -/
def setWorker (s : System) (w : ℕ) (worker : Worker) : System :=
  { s with workers := Function.update s.workers w (some worker) }

/-- A message is sent to the peer of a connection. -/
def notify (s : System) (c : Int32) (worker : Option ℕ) (state : PrivacyModeState)
    (details implKey : String) : System :=
  { s with sent := s.sent ++ [⟨c, worker, state, details, implKey⟩] }

/-- The turn-on of a connection, if it has succeeded, does not hold any longer. -/
def disown (s : System) (c : Int32) : System :=
  { s with owner := s.owner.filter fun owner => owner.1 != c }

/-- Whether a turn-on has succeeded. -/
def succeeded : Option (Except String Bool) → Bool
  | some (.ok true) => true
  | _ => false

theorem eq_of_succeeded {res : Option (Except String Bool)} (h : succeeded res = true) :
  res = some (.ok true)
  := by
  rw [succeeded.eq_def] at h
  split at h
  next => rfl
  next => cases h

/-- `turn_on_privacy_sync` for a connection; `awaited` says whether its task waits for the result.
-/
def turnOn (platform : Platform) (s : System) (c : Int32) (implKey : String) (worker : Option ℕ)
    (awaited : Bool) (started : Except String Bool) :
    System × Option (Except String Bool) :=
  let (mode, res) := turnOnPrivacySync platform s.settings s.mode implKey c started
  let turned := succeeded res
  let owner := if mode = s.mode then s.owner else (s.disown c).owner
  let owns := turned && awaited && owner.map Prod.fst != some c
  ({ s with
      mode := mode
      turnedOnBy := if turned && mode != s.mode then worker else s.turnedOnBy
      owner := if owns then some (c, worker) else owner },
    res)

/-- `turn_off_privacy` for a connection. -/
def turnOff (s : System) (connId : Int32) : System × Option (Except String Unit) :=
  let (mode, res) := turnOffPrivacy s.mode connId
  ({ s with mode := mode }, res)

/-- `Connection::turn_off_privacy_to_msg`. -/
def turnOffToMsg (s : System) (c connId : Int32) (implKey : String) : System :=
  let (s, res) := s.turnOff connId
  match res with
  | some (.ok ()) => s.notify c none .prvOffSucceeded "" implKey
  | some (.error e) => s.notify c none .prvOffFailed e implKey
  | none => s.notify c none .prvOffFailed "Not supported" implKey

/-- The beginning of `Connection::turn_on_privacy`, up to `is_async_privacy_mode`. -/
def begin (platform : Platform) (s : System) (c : Int32) (implKey : String) (permitted : Bool)
    (w : ℕ) : System :=
  if !permitted then s.notify c none .prvOnFailedDenied "" implKey
  else if platform.defaultPrivacyModeImpl = "" then
    s.notify c none .prvNotSupported unsupported implKey
  else
    let s := if getSupportedImpl platform s.settings implKey = curImplKey s.mode then s
      else s.disown c
    if isAsyncPrivacyMode platform s.mode then
      (s.setWorker w ⟨c, implKey, .started⟩).setTask c (.waiting w implKey)
    else s.setTask c (.calling implKey)

/-- What `Connection::turn_on_privacy` does with its result. -/
def reply (s : System) (c : Int32) (worker : Option ℕ) (implKey : String) :
    Option (Except String Bool) → System
  | some (.ok true) => (s.notify c worker .prvOnSucceeded "" implKey).setTask c .idle
  | some (.ok false) => (s.notify c worker .prvOnFailed "" implKey).setTask c .idle
  | some (.error e) =>
      if isInPrivacyMode s.mode then s.setTask c (.cleaning worker implKey e)
      else (s.notify c worker .prvOnFailed e implKey).setTask c .idle
  | none => (s.notify c worker .prvOffFailed "Not supported" implKey).setTask c .idle

/-- The end of the clean-up of `Connection::turn_on_privacy`. -/
def clean (s : System) (c : Int32) (worker : Option ℕ) (implKey e : String) : System :=
  ((s.turnOff invalidPrivacyModeConnId).1.notify c worker .prvOnFailed e implKey).setTask c .idle

end System

/-- The steps: the settings change; a connection is authorized; its requests to turn privacy mode
on, step by step; the threads that do so; its request to turn it off; its permission is taken away
by the local user; its end, step by step; the local user, or a reset, turns privacy mode off or
takes another implementation. -/
inductive Label where
  | settings (settings : Settings)
  | connect (c : Int32)
  | request (c : Int32) (implKey : String) (permitted : Bool) (w : ℕ)
  | call (c : Int32) (started : Except String Bool)
  | work (w : ℕ) (started : Except String Bool)
  | send (w : ℕ)
  | receive (c : Int32)
  | timeOut (c : Int32)
  | reply (c : Int32)
  | clean (c : Int32)
  | off (c : Int32) (implKey : String)
  | revoke (c : Int32)
  | close (c : Int32)
  | check (c : Int32)
  | release (c : Int32)
  | localOff
  | localSwitch (implKey : String)

/-- Whether the task of a connection waits for a thread. -/
def System.awaits (s : System) (c : Int32) (w : ℕ) : Bool :=
  match s.tasks c with
  | some (.waiting w' _) => w' == w
  | _ => false

namespace System

/-- The task of a connection turns privacy mode on. -/
def call (platform : Platform) (s : System) (c : Int32) (implKey : String)
    (started : Except String Bool) : System :=
  let (s, res) := s.turnOn platform c implKey none true started
  s.setTask c (.returned none implKey res)

/-- A thread turns privacy mode on. -/
def work (platform : Platform) (s : System) (w : ℕ) (c : Int32) (implKey : String)
    (started : Except String Bool) : System :=
  let (s, res) := s.turnOn platform c implKey (some w) (s.awaits c w) started
  s.setWorker w ⟨c, implKey, .finished res⟩

/-- A connection asks to turn privacy mode off. -/
def offRequest (platform : Platform) (s : System) (c : Int32) (implKey : String) : System :=
  if platform.defaultPrivacyModeImpl = "" then s.notify c none .prvNotSupported unsupported implKey
  else (s.disown c).turnOffToMsg c c implKey

/-- The permission of a connection is taken away, which turns its privacy mode off. -/
def revoke (s : System) (c : Int32) : System :=
  if isInPrivacyMode s.mode ∧ preConnId s.mode = c then
    let implKey := curImplKey s.mode
    let (s, res) := (s.disown c).turnOff c
    match res with
    | some (.ok ()) => s.notify c none .prvOffByPeer "" implKey
    | some (.error e) => s.notify c none .prvOffFailed e implKey
    | none => s.notify c none .prvOffFailed "Not supported" implKey
  else s

/-- The task of a connection has what it waited for. -/
def receive (s : System) (c : Int32) : Option System :=
  match s.tasks c with
  | some (.waiting w implKey) =>
      match s.workers w with
      | some ⟨_, _, .ended res⟩ => some (s.setTask c (.returned (some w) implKey res))
      | _ => none
  | _ => none

/-- The task of a connection has waited for 7.5 seconds.  If the thread has turned privacy mode on,
that turn-on has not succeeded. -/
def timeOut (platform : Platform) (s : System) (c : Int32) : Option System :=
  match s.tasks c with
  | some (.waiting w implKey) =>
      match s.workers w with
      | some ⟨_, _, .ended _⟩ => none
      | _ =>
          let s := if s.owner = some (c, some w) then s.disown c else s
          some (s.setTask c (.returned (some w) implKey (some (.error platform.elapsed))))
  | _ => none

end System

/-- One step. -/
def step (platform : Platform) (s : System) : Label → Option System
  | .settings settings => some { s with settings := settings }
  | .connect c =>
      match s.tasks c with
      | none => if c = invalidPrivacyModeConnId then none else some (s.setTask c .idle)
      | _ => none
  | .request c implKey permitted w =>
      match s.tasks c, s.workers w with
      | some .idle, none => some (s.begin platform c implKey permitted w)
      | _, _ => none
  | .call c started =>
      match s.tasks c with
      | some (.calling implKey) => some (s.call platform c implKey started)
      | _ => none
  | .work w started =>
      match s.workers w with
      | some ⟨c, implKey, .started⟩ => some (s.work platform w c implKey started)
      | _ => none
  | .send w =>
      match s.workers w with
      | some ⟨c, implKey, .finished res⟩ => some (s.setWorker w ⟨c, implKey, .ended res⟩)
      | _ => none
  | .receive c => s.receive c
  | .timeOut c => s.timeOut platform c
  | .reply c =>
      match s.tasks c with
      | some (.returned worker implKey res) => some (s.reply c worker implKey res)
      | _ => none
  | .clean c =>
      match s.tasks c with
      | some (.cleaning worker implKey e) => some (s.clean c worker implKey e)
      | _ => none
  | .off c implKey =>
      match s.tasks c with
      | some .idle => some (s.offRequest platform c implKey)
      | _ => none
  | .revoke c =>
      match s.tasks c with
      | some .idle => some (s.revoke c)
      | _ => none
  | .close c =>
      match s.tasks c with
      | some .idle => some ((s.disown c).setTask c .closing)
      | _ => none
  | .check c =>
      match s.tasks c with
      | some .closing =>
          let own := s.mode.map PrivacyMode.preConnId = some c
          some (s.setTask c (if own then .releasing else .ended))
      | _ => none
  | .release c =>
      match s.tasks c with
      | some .releasing => some ((s.turnOff c).1.setTask c .ended)
      | _ => none
  | .localOff => some { (s.turnOff invalidPrivacyModeConnId).1 with owner := none }
  | .localSwitch implKey =>
      let mode := switch platform s.mode implKey
      some { s with mode := mode, owner := if mode = s.mode then s.owner else none }

/-- The steps as a relation. -/
def Step (platform : Platform) (s : System) (i : Label) (s' : System) : Prop :=
  step platform s i = some s'

/-- What the steps do, and when they can be taken. -/
inductive Effect (platform : Platform) (s : System) : Label → System → Prop where
  | settings (settings : Settings) :
      Effect platform s (.settings settings) { s with settings := settings }
  | connect {c : Int32} (hvalid : c ≠ invalidPrivacyModeConnId) :
      Effect platform s (.connect c) (s.setTask c .idle)
  | request {c : Int32} (implKey : String) (permitted : Bool) {w : ℕ}
      (htask : s.tasks c = some .idle) (hworker : s.workers w = none) :
      Effect platform s (.request c implKey permitted w) (s.begin platform c implKey permitted w)
  | call {c : Int32} {implKey : String} (started : Except String Bool)
      (htask : s.tasks c = some (.calling implKey)) :
      Effect platform s (.call c started) (s.call platform c implKey started)
  | work {w : ℕ} {c : Int32} {implKey : String} (started : Except String Bool)
      (hworker : s.workers w = some ⟨c, implKey, .started⟩) :
      Effect platform s (.work w started) (s.work platform w c implKey started)
  | send {w : ℕ} {c : Int32} {implKey : String} {res : Option (Except String Bool)}
      (hworker : s.workers w = some ⟨c, implKey, .finished res⟩) :
      Effect platform s (.send w) (s.setWorker w ⟨c, implKey, .ended res⟩)
  | receive {c c' : Int32} {w : ℕ} {implKey implKey' : String} {res : Option (Except String Bool)}
      (htask : s.tasks c = some (.waiting w implKey))
      (hworker : s.workers w = some ⟨c', implKey', .ended res⟩) :
      Effect platform s (.receive c) (s.setTask c (.returned (some w) implKey res))
  | timeOut {c : Int32} {w : ℕ} {implKey : String}
      (htask : s.tasks c = some (.waiting w implKey)) :
      Effect platform s (.timeOut c)
        ((if s.owner = some (c, some w) then s.disown c else s).setTask c
          (.returned (some w) implKey (some (.error platform.elapsed))))
  | reply {c : Int32} {worker : Option ℕ} {implKey : String} {res : Option (Except String Bool)}
      (htask : s.tasks c = some (.returned worker implKey res)) :
      Effect platform s (.reply c) (s.reply c worker implKey res)
  | clean {c : Int32} {worker : Option ℕ} {implKey e : String}
      (htask : s.tasks c = some (.cleaning worker implKey e)) :
      Effect platform s (.clean c) (s.clean c worker implKey e)
  | off {c : Int32} (implKey : String) (htask : s.tasks c = some .idle) :
      Effect platform s (.off c implKey) (s.offRequest platform c implKey)
  | revoke {c : Int32} (htask : s.tasks c = some .idle) :
      Effect platform s (.revoke c) (s.revoke c)
  | close {c : Int32} (htask : s.tasks c = some .idle) :
      Effect platform s (.close c) ((s.disown c).setTask c .closing)
  | check {c : Int32} (htask : s.tasks c = some .closing) :
      Effect platform s (.check c)
        (s.setTask c
          (if s.mode.map PrivacyMode.preConnId = some c then .releasing else .ended))
  | release {c : Int32} (htask : s.tasks c = some .releasing) :
      Effect platform s (.release c) ((s.turnOff c).1.setTask c .ended)
  | localOff :
      Effect platform s .localOff { (s.turnOff invalidPrivacyModeConnId).1 with owner := none }
  | localSwitch (implKey : String) :
      Effect platform s (.localSwitch implKey)
        { s with
          mode := switch platform s.mode implKey
          owner := if switch platform s.mode implKey = s.mode then s.owner else none }

theorem Step.effect {platform : Platform} {s s' : System} {i : Label}
    (hstep : Step platform s i s') :
  Effect platform s i s'
  := by
  unfold Step step at hstep
  cases i with
  | settings settings =>
      obtain rfl := Option.some.inj hstep
      apply Effect.settings
  | receive c =>
      unfold System.receive at hstep
      dsimp only at hstep
      split at hstep
      next htask =>
          split at hstep
          next hworker =>
              obtain rfl := Option.some.inj hstep
              apply Effect.receive htask hworker
          next => cases hstep
      next => cases hstep
  | timeOut c =>
      unfold System.timeOut at hstep
      dsimp only at hstep
      split at hstep
      next htask =>
          split at hstep
          next => cases hstep
          next =>
              obtain rfl := Option.some.inj hstep
              apply Effect.timeOut htask
      next => cases hstep
  | connect c =>
      dsimp only at hstep
      split at hstep
      next =>
          obtain ⟨hvalid, hsome⟩ := Option.ite_none_left_eq_some.mp hstep
          obtain rfl := Option.some.inj hsome
          apply Effect.connect hvalid
      next => cases hstep
  | localOff =>
      obtain rfl := Option.some.inj hstep
      apply Effect.localOff
  | localSwitch implKey =>
      obtain rfl := Option.some.inj hstep
      apply Effect.localSwitch
  | _ =>
      dsimp only at hstep
      split at hstep
      next =>
          obtain rfl := Option.some.inj hstep
          constructor
          all_goals assumption
      next => cases hstep

end VynxDesk.Privacy
