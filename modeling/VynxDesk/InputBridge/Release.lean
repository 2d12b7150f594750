import VynxDesk.InputBridge.Firmware

/-!
# Releasing the input

What an event does to a board is one of seven things (`Board.Effect`).  From that: between the
start of a release and its completion no command report is transmitted, while anything is queued or
held the watchdog is armed or a release is in progress (`Board.Guarded`), and a completed release
has cleared the keyboard and the relative mouse.  It does not clear the absolute mouse.
-/

namespace VynxDesk.InputBridge

namespace Board

variable {b b' : Board} {e : Event}

/-- The number of frames that wait in the queue. -/
abbrev queued (b : Board) : ℕ := b.firmware.commandQueue.count

/-- What an event does to a board. -/
inductive Effect (b : Board) (e : Event) : Prop where
  /-- Nothing that matters for a release. -/
  | idle
      (hqueued : (b.next e).queued = b.queued)
      (harmed : (b.next e).firmware.watchdogArmed = b.firmware.watchdogArmed)
      (hstage : (b.next e).releaseStage = b.releaseStage)
      (hmounted : (b.next e).firmware.usbMounted = b.firmware.usbMounted)
      (htransmits : b.transmits e = none)
  /-- A valid frame is received. -/
  | contact
      (harmed : (b.next e).firmware.watchdogArmed = true)
      (hstage : (b.next e).releaseStage = b.releaseStage)
      (hmounted : (b.next e).firmware.usbMounted = b.firmware.usbMounted)
      (htransmits : b.transmits e = none)
  /-- A release starts. -/
  | starts
      (hqueued : (b.next e).queued = 0)
      (hstage : (b.next e).releaseStage = 1)
      (htransmits : b.transmits e = none)
  /-- The device is unmounted. -/
  | unmounts
      (hqueued : (b.next e).queued = 0)
      (hstage : (b.next e).releaseStage = b.releaseStage)
      (hmounted : (b.next e).firmware.usbMounted = false)
      (htransmits : b.transmits e = none)
  /-- A release clears the keyboard. -/
  | clearsKeyboard
      (hcommand : e = .command true true)
      (hbefore : b.releaseStage = 1)
      (hqueued : (b.next e).queued = b.queued)
      (harmed : (b.next e).firmware.watchdogArmed = b.firmware.watchdogArmed)
      (hstage : (b.next e).releaseStage = 2)
      (htransmits : b.transmits e = some (.release, .keyboard .zero))
  /-- A release clears the relative mouse, and completes. -/
  | clearsMouse
      (hcommand : e = .command true true)
      (hbefore : b.releaseStage ≠ 0 ∧ b.releaseStage ≠ 1)
      (hqueued : (b.next e).queued = b.queued)
      (harmed : (b.next e).firmware.watchdogArmed = b.firmware.watchdogArmed)
      (hstage : (b.next e).releaseStage = 0)
      (htransmits : b.transmits e = some (.release, .relativeMouse .zero))
  /-- A command leaves the queue. -/
  | executes
      (hbefore : b.releaseStage = 0)
      (hqueued : b.queued ≠ 0)
      (harmed : (b.next e).firmware.watchdogArmed = b.firmware.watchdogArmed)
      (hstage : (b.next e).releaseStage = 0)
      (htransmits : b.transmits e = none ∨ ∃ report, b.transmits e = some (.command, report))

/-- A report that the host sets is ignored, rejected, or received as a valid frame. -/
theorem tudHidSetReportCb_cases (fw : Firmware) (reportId : UInt8) (reportType : HidReportType)
    (buffer : List UInt8) (now : UInt64) :
  fw.tudHidSetReportCb reportId reportType buffer now = fw ∨
  fw.tudHidSetReportCb reportId reportType buffer now = fw.reject ∨
  ∃ frame, vendorFrame reportId reportType buffer = some frame ∧ commandPayloadIsValid frame ∧
    fw.tudHidSetReportCb reportId reportType buffer now = fw.receive frame now
  := by
  rw [Firmware.tudHidSetReportCb]
  split_ifs
  · left
    rfl
  · right
    split
    · left
      rfl
    · next frame hframe =>
      split_ifs with hvalid
      · right
        exact ⟨frame, hframe, hvalid.2, rfl⟩
      · left
        rfl

/-- A received frame arms the watchdog. -/
theorem receive_contact (fw : Firmware) (frame : Frame) (now : UInt64) :
  (fw.receive frame now).watchdogArmed = true ∧
  (fw.receive frame now).bridgeStatus.releaseStage = fw.bridgeStatus.releaseStage ∧
  (fw.receive frame now).usbMounted = fw.usbMounted
  := by
  rw [Firmware.receive, Firmware.queuePush]
  dsimp only
  split_ifs
  all_goals exact ⟨rfl, rfl, rfl⟩

theorem setReport_effect {reportId : UInt8} {reportType : HidReportType} {buffer : List UInt8}
    {now : UInt64} :
  b.Effect (.setReport reportId reportType buffer now)
  := by
  rcases tudHidSetReportCb_cases b.firmware reportId reportType buffer now with
    h | h | ⟨frame, _, _, h⟩
  · apply Effect.idle
    all_goals simp [next, advance, transmits, queued, releaseStage, h]
  · apply Effect.idle
    all_goals simp [next, advance, transmits, queued, releaseStage, h, Firmware.reject]
  · obtain ⟨harmed, hstage, hmounted⟩ := receive_contact b.firmware frame now
    apply Effect.contact
    all_goals simp [next, advance, transmits, releaseStage, h, harmed, hstage, hmounted]

theorem watchdog_effect {now : UInt64} : b.Effect (.watchdog now)
  := by
  by_cases hfires : b.firmware.watchdogArmed ∧ now - b.firmware.lastContactMs > watchdogMs
  · apply Effect.starts
    all_goals simp only [next, advance, transmits, Firmware.watchdogTask, if_pos hfires]
    · rfl
    · rfl
  · apply Effect.idle
    all_goals simp only [next, advance, transmits, Firmware.watchdogTask, if_neg hfires]

/-- What the release task does to a release in progress. -/
theorem release_effect {ready sent : Bool} (hstage : b.releaseStage ≠ 0) :
  b.Effect (.command ready sent)
  := by
  have htask : b.firmware.commandTask ready sent =
      ((b.firmware.releaseTask ready sent).1,
        (b.firmware.releaseTask ready sent).2.map fun report => (Cause.release, report)) := by
    simp only [Firmware.commandTask, if_pos hstage]
  cases ready
  · apply Effect.idle
    all_goals simp [next, advance, transmits, htask, Firmware.releaseTask]
  · cases sent
    · apply Effect.idle
      all_goals simp [next, advance, transmits, htask, Firmware.releaseTask]
    · by_cases hone : b.releaseStage = 1
      · apply Effect.clearsKeyboard rfl hone
        all_goals simp [next, advance, transmits, htask, Firmware.releaseTask, hone]
        · rfl
        · rfl
        · rfl
      · apply Effect.clearsMouse rfl ⟨hstage, hone⟩
        all_goals simp [next, advance, transmits, htask, Firmware.releaseTask, hone, hstage]
        · rfl
        · rfl
        · rfl

/-- Sending a frame leaves the state alone, unless the frame asks for a release. -/
theorem sendCommand_cases (fw : Firmware) (frame : Frame) (ready sent : Bool) :
  fw.sendCommand frame ready sent = (fw.requestReleaseAll, true, none) ∨
  (fw.sendCommand frame ready sent).1 = fw ∧
    ((fw.sendCommand frame ready sent).2.1 = false → (fw.sendCommand frame ready sent).2.2 = none)
  := by
  rw [Firmware.sendCommand]
  split_ifs
  all_goals simp

theorem queuePop_armed (fw : Firmware) : fw.queuePop.watchdogArmed = fw.watchdogArmed
  := by
  unfold Firmware.queuePop
  dsimp only
  split_ifs
  · rfl
  · rfl

theorem queuePop_stage (fw : Firmware) :
  fw.queuePop.bridgeStatus.releaseStage = fw.bridgeStatus.releaseStage
  := by
  unfold Firmware.queuePop
  dsimp only
  split_ifs
  · rfl
  · rfl

theorem queuePop_release (fw : Firmware) : fw.requestReleaseAll.queuePop = fw.requestReleaseAll
  := rfl

/-- What the command task does when no release is in progress. -/
theorem execute_effect {ready sent : Bool} (hstage : b.releaseStage = 0) :
  b.Effect (.command ready sent)
  := by
  by_cases hempty : b.queued = 0
  · have htask : b.firmware.commandTask ready sent = (b.firmware, none) := by
      simp [Firmware.commandTask, hstage, Firmware.queueFront, hempty]
    apply Effect.idle
    all_goals simp [next, advance, transmits, htask]
  · obtain ⟨frame, hfront⟩ : ∃ frame, b.firmware.queueFront = some frame := by
      simp [Firmware.queueFront, hempty]
    have htask : b.firmware.commandTask ready sent =
        (if (b.firmware.sendCommand frame ready sent).2.1 then
            (b.firmware.sendCommand frame ready sent).1.queuePop
          else (b.firmware.sendCommand frame ready sent).1,
          (b.firmware.sendCommand frame ready sent).2.2.map fun report =>
            (Cause.command, report)) := by
      simp [Firmware.commandTask, hstage, hfront]
    rcases sendCommand_cases b.firmware frame ready sent with h | ⟨hsame, hfailed⟩
    · apply Effect.starts
      all_goals simp only [next, advance, transmits, htask, h, if_true, queuePop_release]
      · rfl
      · rfl
      · rfl
    · rcases hdone : (b.firmware.sendCommand frame ready sent).2.1
      · simp only [hdone, hsame, hfailed hdone] at htask
        apply Effect.idle
        all_goals simp [next, advance, transmits, htask]
      · simp only [hdone, hsame] at htask
        apply Effect.executes hstage hempty
        · simp [next, advance, htask, queuePop_armed]
        · simp [next, advance, releaseStage, htask, queuePop_stage]
          exact hstage
        · rcases hreport : (b.firmware.sendCommand frame ready sent).2.2 with _ | report
          · left
            simp [transmits, htask, hreport]
          · right
            use report
            simp [transmits, htask, hreport]

theorem command_effect {ready sent : Bool} : b.Effect (.command ready sent)
  := by
  by_cases hstage : b.releaseStage = 0
  · apply execute_effect hstage
  · apply release_effect hstage

/-- What an event does to a board. -/
theorem effect (b : Board) (e : Event) : b.Effect e
  := by
  cases e with
  | setReport reportId reportType buffer now => apply setReport_effect
  | mount => exact Effect.starts rfl rfl rfl
  | umount => exact Effect.unmounts rfl rfl rfl rfl
  | suspend => exact Effect.starts rfl rfl rfl
  | resume => exact Effect.starts rfl rfl rfl
  | watchdog now => apply watchdog_effect
  | command ready sent => apply command_effect

@[simp]
theorem lastKeyboard_next (b : Board) (e : Event) :
  (b.next e).lastKeyboard = match b.transmits e with
    | some (_, .keyboard report) => some report
    | _ => b.lastKeyboard
  := by
  rcases h : b.transmits e with _ | ⟨cause, report | report | report⟩
  all_goals simp [lastKeyboard, next, h]

@[simp]
theorem lastRelativeMouse_next (b : Board) (e : Event) :
  (b.next e).lastRelativeMouse = match b.transmits e with
    | some (_, .relativeMouse report) => some report
    | _ => b.lastRelativeMouse
  := by
  rcases h : b.transmits e with _ | ⟨cause, report | report | report⟩
  all_goals simp [lastRelativeMouse, next, h]

@[simp]
theorem lastAbsoluteMouse_next (b : Board) (e : Event) :
  (b.next e).lastAbsoluteMouse = match b.transmits e with
    | some (_, .absoluteMouse report) => some report
    | _ => b.lastAbsoluteMouse
  := by
  rcases h : b.transmits e with _ | ⟨cause, report | report | report⟩
  all_goals simp [lastAbsoluteMouse, next, h]

/-- The input is guarded: a release whose first stage is over has cleared the keyboard, while a
frame waits the watchdog is armed, and while a mounted device holds a key or a button, the watchdog
is armed or a release is in progress. -/
structure Guarded (b : Board) : Prop where
  cleared : b.releaseStage ≠ 0 → b.releaseStage ≠ 1 → ¬ b.HoldsKey
  waiting : b.queued ≠ 0 → b.firmware.watchdogArmed = true
  held : b.firmware.usbMounted = true → b.HoldsKey ∨ b.HoldsRelative →
    b.firmware.watchdogArmed = true ∨ b.releaseStage ≠ 0

theorem Guarded.start : Guarded Board.start
  := by
  constructor
  · intro h
    exact absurd rfl h
  · intro h
    exact absurd rfl h
  · intro h
    cases h

theorem holdsKey_next (h : ∀ cause report, b.transmits e ≠ some (cause, .keyboard report)) :
  (b.next e).HoldsKey ↔ b.HoldsKey
  := by
  rcases ht : b.transmits e with _ | ⟨cause, report | report | report⟩
  · simp [HoldsKey, ht]
  · exact absurd ht (h cause report)
  · simp [HoldsKey, ht]
  · simp [HoldsKey, ht]

theorem holdsAbsolute_next
    (h : ∀ cause report, b.transmits e ≠ some (cause, .absoluteMouse report)) :
  (b.next e).HoldsAbsolute ↔ b.HoldsAbsolute
  := by
  rcases ht : b.transmits e with _ | ⟨cause, report | report | report⟩
  · simp [HoldsAbsolute, ht]
  · simp [HoldsAbsolute, ht]
  · simp [HoldsAbsolute, ht]
  · exact absurd ht (h cause report)

theorem holdsRelative_next (h : b.transmits e = none) :
  (b.next e).HoldsRelative ↔ b.HoldsRelative
  := by
  simp [HoldsRelative, h]

theorem Guarded.next (h : Guarded b) (e : Event) :
  Guarded (b.next e)
  := by
  rcases b.effect e with ⟨hq, ha, hs, hm, ht⟩ | ⟨ha, hs, hm, ht⟩ | ⟨hq, hs, ht⟩ |
    ⟨hq, hs, hm, ht⟩ | ⟨_, hone, hq, ha, hs, ht⟩ | ⟨_, hlate, hq, ha, hs, ht⟩ |
    ⟨hidle, hq, ha, hs, ht⟩
  · have hkey : (b.next e).HoldsKey ↔ b.HoldsKey := holdsKey_next (by simp [ht])
    constructor
    · rw [hs, hkey]
      exact h.cleared
    · intro hwaits
      rw [hq] at hwaits
      rw [ha]
      apply h.waiting hwaits
    · rw [hm, ha, hs, hkey, holdsRelative_next ht]
      exact h.held
  · have hkey : (b.next e).HoldsKey ↔ b.HoldsKey := holdsKey_next (by simp [ht])
    constructor
    · rw [hs, hkey]
      exact h.cleared
    · intro _
      exact ha
    · intro _ _
      left
      exact ha
  · constructor
    · intro _ hlate
      exact absurd hs hlate
    · intro hwaits
      exact absurd hq hwaits
    · intro _ _
      right
      rw [hs]
      exact Nat.one_ne_zero
  · have hkey : (b.next e).HoldsKey ↔ b.HoldsKey := holdsKey_next (by simp [ht])
    constructor
    · rw [hs, hkey]
      exact h.cleared
    · intro hwaits
      exact absurd hq hwaits
    · intro hmounted
      rw [hm] at hmounted
      cases hmounted
  · constructor
    · intro _ _
      simp [HoldsKey, ht, KeyboardReport.not_pressed_zero]
    · intro hwaits
      rw [hq] at hwaits
      rw [ha]
      apply h.waiting hwaits
    · intro _ _
      right
      rw [hs]
      decide
  · constructor
    · intro hrelease
      exact absurd hs hrelease
    · intro hwaits
      rw [hq] at hwaits
      rw [ha]
      apply h.waiting hwaits
    · rintro _ (hkey | hrelative)
      · rw [holdsKey_next (by simp [ht])] at hkey
        exact absurd hkey (h.cleared hlate.1 hlate.2)
      · simp [HoldsRelative, ht, MouseReport.not_pressed_zero] at hrelative
  · constructor
    · intro hrelease
      exact absurd hs hrelease
    · intro _
      rw [ha]
      apply h.waiting hq
    · intro _ _
      left
      rw [ha]
      apply h.waiting hq

theorem Guarded.of_run {h : List (Board × Event)} (hrun : Run Step Board.start h b) :
  Guarded b
  := by
  apply hrun.invariant Guarded Guarded.start
  rintro b e _ hb rfl
  apply hb.next e

/-- Every list of events is a run. -/
theorem run_next (events : List Event) :
  Run Step Board.start (Run.trace next Board.start events) (events.foldl next Board.start)
  := by
  apply Run.of_next
  intro b e
  rfl

/-- The frame of an absolute mouse report that holds the left button. -/
def sampleDrag : List UInt8 :=
  [0x56, 0x58, 1, 3, 1, 0, 7, 0, 1, 0, 0x10, 0, 0x10, 0, 0, 0, 0, 0, 0, 0, 0, 0, 0, 0, 0, 0, 0, 0,
    0x49, 0xEE, 0, 0]

/-- The frame of a release. -/
def sampleReleaseAll : List UInt8 :=
  [0x56, 0x58, 1, 4, 2, 0, 0, 0, 0, 0, 0, 0, 0, 0, 0, 0, 0, 0, 0, 0, 0, 0, 0, 0, 0, 0, 0, 0,
    0x0E, 0x8A, 0, 0]

/-- The device is mounted and released, the pointer is dragged, and a release is requested, up to
the transmission of its last report. -/
def sampleEvents : List Event :=
  [.mount, .watchdog 0, .command true true, .watchdog 1, .command true true,
    .setReport reportIdVendor .output sampleDrag 2, .watchdog 2, .command true true,
    .setReport reportIdVendor .output sampleReleaseAll 3, .watchdog 3, .command true true,
    .watchdog 4, .command true true, .watchdog 5]

/-- In every reachable state of the firmware in which the device is mounted and a frame waits in
the queue, or the keyboard or relative mouse report transmitted last holds a key or a button, the
watchdog is armed or a release is in progress; and what is transmitted while a release is in
progress is a report of that release, which holds nothing, and no frame leaves the queue for it. -/
theorem watchdogCovers_of_run {h : List (Board × Event)} (hrun : Run Step Board.start h b) :
  (b.firmware.usbMounted = true → b.queued ≠ 0 ∨ b.HoldsKey ∨ b.HoldsRelative →
    b.firmware.watchdogArmed = true ∨ b.releaseStage ≠ 0) ∧
  ∀ x ∈ h, x.1.releaseStage ≠ 0 → ∀ cause report, x.1.transmits x.2 = some (cause, report) →
    cause = .release ∧ (report = .keyboard .zero ∨ report = .relativeMouse .zero) ∧
      (x.1.next x.2).queued = x.1.queued
  := by
  have hguarded := Guarded.of_run hrun
  constructor
  · rintro hmounted (hwaits | hholds)
    · left
      apply hguarded.waiting hwaits
    · apply hguarded.held hmounted hholds
  · rintro ⟨b', e⟩ _ hrelease cause report htransmits
    rcases b'.effect e with ⟨_, _, _, _, ht⟩ | ⟨_, _, _, ht⟩ | ⟨_, _, ht⟩ | ⟨_, _, _, ht⟩ |
      ⟨_, _, hq, _, _, ht⟩ | ⟨_, _, hq, _, _, ht⟩ | ⟨hidle, _⟩
    · simp [ht] at htransmits
    · simp [ht] at htransmits
    · simp [ht] at htransmits
    · simp [ht] at htransmits
    · obtain ⟨rfl, rfl⟩ := Prod.mk.inj (Option.some.inj (ht.symm.trans htransmits))
      exact ⟨rfl, .inl rfl, hq⟩
    · obtain ⟨rfl, rfl⟩ := Prod.mk.inj (Option.some.inj (ht.symm.trans htransmits))
      exact ⟨rfl, .inr rfl, hq⟩
    · exact absurd hidle hrelease

theorem watchdogCovers_waiting :
  ((sampleEvents.take 6).foldl next Board.start).queued = 1 ∧
  (((sampleEvents.take 6).foldl next Board.start).firmware.watchdogArmed = true ∨
    ((sampleEvents.take 6).foldl next Board.start).releaseStage ≠ 0)
  := by
  have hqueued : ((sampleEvents.take 6).foldl next Board.start).queued = 1 := by
    decide +kernel
  apply And.intro hqueued
  apply (watchdogCovers_of_run (run_next (sampleEvents.take 6))).1
  · decide +kernel
  · left
    rw [hqueued]
    exact Nat.one_ne_zero

/-- No key, modifier or button is held by any of the reports transmitted last. -/
def AllReleased (b : Board) : Prop := ¬ b.HoldsKey ∧ ¬ b.HoldsRelative ∧ ¬ b.HoldsAbsolute

/-- An event completes a release: its stage returns to `0`. -/
def Completes (b : Board) (e : Event) : Prop := b.releaseStage ≠ 0 ∧ (b.next e).releaseStage = 0

/-- An event transmits the last report of a release. -/
def Finishes (b : Board) (e : Event) : Prop :=
  b.releaseStage ≠ 0 ∧ b.releaseStage ≠ 1 ∧ e = .command true true

instance (b : Board) : Decidable b.HoldsAbsolute :=
  inferInstanceAs (Decidable (∃ report ∈ b.lastAbsoluteMouse, report.Pressed))

instance (b : Board) (e : Event) : Decidable (b.Finishes e) := inferInstanceAs (Decidable (_ ∧ _))

/-- A completing event transmits the last report of a release. -/
theorem Completes.finishes (h : b.Completes e) :
  b.Finishes e ∧ b.transmits e = some (.release, .relativeMouse .zero)
  := by
  obtain ⟨hrelease, hdone⟩ := h
  rcases b.effect e with ⟨_, _, hs, _, _⟩ | ⟨_, hs, _, _⟩ | ⟨_, hs, _⟩ | ⟨_, hs, _, _⟩ |
    ⟨_, _, _, _, hs, _⟩ | ⟨hcommand, hlate, _, _, _, ht⟩ | ⟨hidle, _⟩
  · exact absurd (hs.symm.trans hdone) hrelease
  · exact absurd (hs.symm.trans hdone) hrelease
  · simp [hdone] at hs
  · exact absurd (hs.symm.trans hdone) hrelease
  · simp [hdone] at hs
  · exact ⟨⟨hlate.1, hlate.2, hcommand⟩, ht⟩
  · exact absurd hidle hrelease

/-- A release completes when its last report is transmitted. -/
theorem completes_iff : b.Completes e ↔ b.Finishes e
  := by
  constructor
  · intro h
    apply h.finishes.1
  · rintro ⟨hrelease, hlate, rfl⟩
    apply And.intro hrelease
    simp only [next, advance, Firmware.commandTask, Firmware.releaseTask, releaseStage] at *
    simp [hrelease, hlate, Firmware.setStage]

/-- A completed release has released everything exactly when the absolute mouse held no button
before. -/
theorem allReleased_iff (h : Guarded b) (hcompletes : b.Completes e) :
  (b.next e).AllReleased ↔ ¬ b.HoldsAbsolute
  := by
  obtain ⟨⟨hrelease, hlate, _⟩, ht⟩ := hcompletes.finishes
  have hkey : ¬ (b.next e).HoldsKey := by
    rw [holdsKey_next (by simp [ht])]
    apply h.cleared hrelease hlate
  have hrelative : ¬ (b.next e).HoldsRelative := by
    simp [HoldsRelative, ht, MouseReport.not_pressed_zero]
  have habsolute : (b.next e).HoldsAbsolute ↔ b.HoldsAbsolute := holdsAbsolute_next (by simp [ht])
  rw [AllReleased]
  tauto

/-- In every run of the firmware: every completed release has left no key, modifier or button
pressed in the reports transmitted last, if and only if, each time the last report of a release is
transmitted, the absolute mouse report transmitted last holds no button. -/
theorem releaseComplete_iff_of_run {h : List (Board × Event)} (hrun : Run Step Board.start h b) :
  (∀ x ∈ h, x.1.Completes x.2 → (x.1.next x.2).AllReleased) ↔
    ∀ x ∈ h, x.1.Finishes x.2 → ¬ x.1.HoldsAbsolute
  := by
  have hall : ∀ x ∈ h, Guarded x.1 := by
    intro x hx
    obtain ⟨before, after, rfl⟩ := List.append_of_mem hx
    apply Guarded.of_run hrun.before.1
  constructor
  · intro hreleased x hx hfinishes
    have hcompletes := completes_iff.mpr hfinishes
    apply (allReleased_iff (hall x hx) hcompletes).mp (hreleased x hx hcompletes)
  · intro hcondition x hx hcompletes
    apply (allReleased_iff (hall x hx) hcompletes).mpr
    apply hcondition x hx hcompletes.finishes.1

/-- A completed release leaves the button of the last absolute mouse report pressed. -/
theorem not_releaseComplete_dragged :
  ∃ h b e, Run Step Board.start h b ∧ b.Completes e ∧ ¬ (b.next e).AllReleased
  := by
  use Run.trace next Board.start sampleEvents, sampleEvents.foldl next Board.start,
    .command true true, run_next sampleEvents
  have hdragged : ((sampleEvents.foldl next Board.start).next
      (.command true true)).lastAbsoluteMouse = some ⟨1, 0x1000, 0x1000, 0, 0⟩ := by
    decide +kernel
  constructor
  · constructor
    · decide +kernel
    · decide +kernel
  · rintro ⟨_, _, hreleased⟩
    apply hreleased
    use ⟨1, 0x1000, 0x1000, 0, 0⟩, hdragged
    decide

theorem releaseComplete_mounted :
  Run Step Board.start (Run.trace next Board.start (sampleEvents.take 5))
      ((sampleEvents.take 5).foldl next Board.start)
    ∧ ∀ x ∈ Run.trace next Board.start (sampleEvents.take 5),
      x.1.Completes x.2 → (x.1.next x.2).AllReleased
  := by
  use run_next (sampleEvents.take 5)
  apply (releaseComplete_iff_of_run (run_next (sampleEvents.take 5))).mpr
  decide +kernel

end Board

end VynxDesk.InputBridge
