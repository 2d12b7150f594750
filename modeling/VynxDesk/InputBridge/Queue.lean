import VynxDesk.InputBridge.Release
import VynxDesk.Lib.Ring

/-!
# The queue of the firmware

The commands that the firmware accepts wait in a ring buffer until `command_task` is done with
them.  What waits at the start of a stretch of a run without release events, followed by what is
accepted along it, is what is handed over along it, followed by what waits at its end — as long as
a `RELEASE_ALL` frame is not executed while other frames wait behind it, since executing it clears
the queue.
-/

namespace VynxDesk.InputBridge

namespace Firmware

/-- The frames that wait in the queue, the front first. -/
def waiting (fw : Firmware) : List Frame :=
  ring fw.commandQueue.frames queueCapacity fw.commandQueue.head fw.commandQueue.count

/-- The indices of the ring buffer agree, and the status reports its depth. -/
structure Ringed (fw : Firmware) : Prop where
  head : fw.commandQueue.head < queueCapacity
  count : fw.commandQueue.count ≤ queueCapacity
  tail : fw.commandQueue.tail = (fw.commandQueue.head + fw.commandQueue.count) % queueCapacity
  depth : fw.bridgeStatus.queueDepth = fw.commandQueue.count

end Firmware

namespace Board

variable (b : Board)

/-- The frame that an event has `tud_hid_set_report_cb` count as accepted, a heartbeat apart. -/
def accepts : Event → Option Frame
  | .setReport reportId reportType buffer now =>
      if (b.firmware.tudHidSetReportCb reportId reportType buffer now).bridgeStatus.accepted =
          b.firmware.bridgeStatus.accepted then
        none
      else (vendorFrame reportId reportType buffer).filter (·.command ≠ commandHeartbeat)
  | _ => none

/-- The frame at the front of the queue that an event hands over: `send_command` is done with it. -/
def hands : Event → Option Frame
  | .command ready sent =>
      if b.releaseStage ≠ 0 then none
      else b.firmware.queueFront.filter fun frame => (b.firmware.sendCommand frame ready sent).2.1
  | _ => none

/-- An event is a release event. -/
def Releases : Event → Prop
  | .setReport reportId reportType buffer now =>
      ∃ frame ∈ b.accepts (.setReport reportId reportType buffer now),
        frame.command = commandReleaseAll
  | .watchdog now => b.firmware.watchdogArmed ∧ now - b.firmware.lastContactMs > watchdogMs
  | .command _ _ => False
  | _ => True

/-- An event executes a `RELEASE_ALL` frame. -/
def Executes (e : Event) : Prop := ∃ frame ∈ b.hands e, frame.command = commandReleaseAll

end Board

/-- The report that a command frame asks for. -/
def Frame.report (frame : Frame) : Option Report :=
  if frame.command = commandKeyboardState then some (.keyboard (.ofPayload frame.payload))
  else if frame.command = commandRelativeMouse then some (.relativeMouse (.ofPayload frame.payload))
  else if frame.command = commandAbsoluteMouse then some (.absoluteMouse (.ofPayload frame.payload))
  else none

/-- The frames accepted along a stretch of a run. -/
def accepted (h : List (Board × Event)) : List Frame := h.filterMap fun x => x.1.accepts x.2

/-- The frames handed over along a stretch of a run. -/
def handed (h : List (Board × Event)) : List Frame := h.filterMap fun x => x.1.hands x.2

namespace Firmware

variable {fw : Firmware}

theorem Ringed.start : start.Ringed
  := by
  constructor
  all_goals decide

theorem Ringed.queueClear (fw : Firmware) : fw.queueClear.Ringed
  := by
  constructor
  · apply Nat.zero_lt_succ
  · apply Nat.zero_le
  · rfl
  · rfl

/-- A frame that is pushed waits behind the others. -/
theorem Ringed.queuePush (h : fw.Ringed) (frame : Frame) :
  (fw.queuePush frame).1.Ringed ∧
  (fw.queuePush frame).1.waiting =
    fw.waiting ++ if (fw.queuePush frame).2 then [frame] else []
  := by
  by_cases hfull : fw.commandQueue.count = queueCapacity
  · simpa [Firmware.queuePush, hfull] using h
  · have hcount : fw.commandQueue.count < queueCapacity := Nat.lt_of_le_of_ne h.count hfull
    simp only [Firmware.queuePush, if_neg hfull, if_true]
    constructor
    · constructor
      · exact h.head
      · exact hcount
      · simp only [setQueue, h.tail, Nat.mod_add_mod, Nat.add_assoc]
      · rfl
    · rw [waiting, waiting, ← ring_push hcount, ← h.tail]
      rfl

/-- Popping takes the front away. -/
theorem Ringed.queuePop (h : fw.Ringed) :
  fw.queuePop.Ringed ∧ fw.waiting = fw.queueFront.toList ++ fw.queuePop.waiting
  := by
  by_cases hempty : fw.commandQueue.count = 0
  · simpa [Firmware.queuePop, Firmware.queueFront, hempty] using h
  · obtain ⟨count, hcount⟩ := Nat.exists_eq_succ_of_ne_zero hempty
    simp only [Firmware.queuePop, Firmware.queueFront, if_neg hempty]
    constructor
    · constructor
      · apply Nat.mod_lt
        apply Nat.zero_lt_succ
      · apply Nat.le_trans (Nat.sub_le _ _) h.count
      · simp only [setQueue, h.tail, hcount, Nat.succ_eq_add_one, Nat.add_sub_cancel,
          Nat.mod_add_mod, Nat.add_assoc, Nat.add_comm 1]
      · rfl
    · rw [waiting, hcount, ring_pop h.head]
      simp [setQueue, waiting]

theorem Ringed.of_eq {fw' : Firmware} (h : fw.Ringed)
    (hqueue : fw'.commandQueue = fw.commandQueue)
    (hdepth : fw'.bridgeStatus.queueDepth = fw.bridgeStatus.queueDepth) :
  fw'.Ringed ∧ fw'.waiting = fw.waiting
  := by
  constructor
  · constructor
    · rw [hqueue]
      exact h.head
    · rw [hqueue]
      exact h.count
    · rw [hqueue]
      exact h.tail
    · rw [hqueue, hdepth]
      exact h.depth
  · rw [waiting, waiting, hqueue]

/-- After `queue_clear` nothing waits. -/
theorem Ringed.of_clear {fw' : Firmware}
    (hqueue : fw'.commandQueue = fw.queueClear.commandQueue)
    (hdepth : fw'.bridgeStatus.queueDepth = 0) :
  fw'.Ringed ∧ fw'.waiting = []
  := by
  apply (Ringed.queueClear fw).of_eq hqueue hdepth

theorem Ringed.requestReleaseAll (fw : Firmware) :
  fw.requestReleaseAll.Ringed ∧ fw.requestReleaseAll.waiting = []
  := @Ringed.of_clear fw _ rfl rfl

theorem Ringed.accept (h : fw.Ringed) : fw.accept.Ringed ∧ fw.accept.waiting = fw.waiting
  := by
  apply h.of_eq
  · rfl
  · rfl

theorem Ringed.reject (h : fw.Ringed) : fw.reject.Ringed ∧ fw.reject.waiting = fw.waiting
  := by
  apply h.of_eq
  · rfl
  · rfl

theorem accepted_accept (fw : Firmware) :
  fw.accept.bridgeStatus.accepted ≠ fw.bridgeStatus.accepted
  := by
  simp [Firmware.accept]

theorem accepted_reject (fw : Firmware) :
  fw.reject.bridgeStatus.accepted = fw.bridgeStatus.accepted
  := rfl

theorem receive_eq (fw : Firmware) (frame : Frame) (now : UInt64) :
  ∃ fw' : Firmware, fw'.commandQueue = fw.commandQueue ∧
    fw'.bridgeStatus.queueDepth = fw.bridgeStatus.queueDepth ∧
    fw'.bridgeStatus.accepted = fw.bridgeStatus.accepted ∧
    fw.receive frame now =
      if frame.command = commandHeartbeat then fw'.accept
      else if (fw'.queuePush frame).2 then (fw'.queuePush frame).1.accept
      else (fw'.queuePush frame).1.reject
  := by
  use { fw with
    lastContactMs := now
    watchdogArmed := true
    bridgeStatus := { fw.bridgeStatus with lastSequence := frame.sequence } }
  exact ⟨rfl, rfl, rfl, rfl⟩

theorem accepted_queuePush (fw : Firmware) (frame : Frame) :
  (fw.queuePush frame).1.bridgeStatus.accepted = fw.bridgeStatus.accepted
  := by
  unfold Firmware.queuePush
  dsimp only
  split_ifs
  · rfl
  · rfl

/-- A received frame that is counted as accepted waits behind the others, unless it is a
heartbeat. -/
theorem Ringed.receive (h : fw.Ringed) (frame : Frame) (now : UInt64) :
  (fw.receive frame now).Ringed ∧
  (fw.receive frame now).waiting = fw.waiting ++
    if (fw.receive frame now).bridgeStatus.accepted = fw.bridgeStatus.accepted then []
    else ((some frame).filter (·.command ≠ commandHeartbeat)).toList
  := by
  obtain ⟨fw', hqueue, hdepth, hcount, hreceive⟩ := fw.receive_eq frame now
  obtain ⟨hringed, hwaiting⟩ := h.of_eq hqueue hdepth
  obtain ⟨hpushed, hbehind⟩ := hringed.queuePush frame
  by_cases hheartbeat : frame.command = commandHeartbeat
  · have hfilter : (some frame).filter (·.command ≠ commandHeartbeat) = none := by
      simp [hheartbeat]
    rw [hreceive, if_pos hheartbeat, hfilter, Option.toList_none, ite_self, List.append_nil,
      ← hwaiting]
    apply hringed.accept
  · have hfilter : (some frame).filter (·.command ≠ commandHeartbeat) = some frame := by
      simp [hheartbeat]
    have hsame := accepted_queuePush fw' frame
    rw [hreceive, if_neg hheartbeat, hfilter, ← hwaiting, ← hcount, ← hsame]
    by_cases hpush : (fw'.queuePush frame).2
    · rw [if_pos hpush, if_neg (accepted_accept _), Option.toList_some]
      rw [if_pos hpush] at hbehind
      rw [← hbehind]
      apply hpushed.accept
    · rw [if_neg hpush, if_pos (accepted_reject _)]
      rw [if_neg hpush] at hbehind
      rw [← hbehind]
      apply hpushed.reject

/-- The release task leaves the queue alone. -/
theorem Ringed.releaseTask (h : fw.Ringed) (ready sent : Bool) :
  (fw.releaseTask ready sent).1.Ringed ∧ (fw.releaseTask ready sent).1.waiting = fw.waiting
  := by
  apply h.of_eq
  · unfold Firmware.releaseTask
    split_ifs
    all_goals rfl
  · unfold Firmware.releaseTask
    split_ifs
    all_goals rfl

/-- Executing a `RELEASE_ALL` frame requests a release. -/
theorem sendCommand_release (fw : Firmware) {frame : Frame} (sent : Bool)
    (hcommand : frame.command = commandReleaseAll) :
  fw.sendCommand frame true sent = (fw.requestReleaseAll, true, none)
  := by
  simp [sendCommand, hcommand, commandReleaseAll, commandKeyboardState, commandRelativeMouse,
    commandAbsoluteMouse]

/-- Sending any other frame leaves the state alone. -/
theorem sendCommand_other (fw : Firmware) {frame : Frame} (ready sent : Bool)
    (hcommand : frame.command ≠ commandReleaseAll) :
  (fw.sendCommand frame ready sent).1 = fw
  := by
  unfold Firmware.sendCommand
  split_ifs
  all_goals rfl

theorem Ringed.queueFront (h : fw.Ringed) : fw.queueFront = fw.waiting.head?
  := by
  unfold Firmware.queueFront waiting
  rcases fw.commandQueue.count with _ | count
  · rfl
  · rw [ring_pop h.head]
    rfl

end Firmware

namespace Board

variable {b b' : Board} {e : Event}

/-- What an event does to the frames that wait. -/
inductive Passage (b : Board) (e : Event) : Prop where
  /-- An accepted frame comes in behind, and a frame that is handed over leaves in front. -/
  | moves
      (hwaiting : b.firmware.waiting ++ (b.accepts e).toList =
        (b.hands e).toList ++ (b.next e).firmware.waiting)
      (hexecutes : ¬ b.Executes e)
  /-- A release event clears the queue. -/
  | clears
      (hreleases : b.Releases e)
      (haccepts : b.accepts e = none)
      (hhands : b.hands e = none)
      (hwaiting : (b.next e).firmware.waiting = [])
  /-- The execution of a `RELEASE_ALL` frame clears what waits behind it. -/
  | executes
      (hexecutes : b.Executes e)
      (haccepts : b.accepts e = none)
      (hhands : b.hands e = b.firmware.waiting.head?)
      (hwaiting : (b.next e).firmware.waiting = [])

theorem setReport_passage (h : b.firmware.Ringed) {reportId : UInt8} {reportType : HidReportType}
    {buffer : List UInt8} {now : UInt64} :
  (b.next (.setReport reportId reportType buffer now)).firmware.Ringed ∧
  b.Passage (.setReport reportId reportType buffer now)
  := by
  have hexecutes : ¬ b.Executes (.setReport reportId reportType buffer now) := by
    simp [Executes, hands]
  rcases tudHidSetReportCb_cases b.firmware reportId reportType buffer now with
    hsame | hreject | ⟨frame, hframe, _, hreceive⟩
  · constructor
    · simpa [next, advance, hsame] using h
    · apply Passage.moves _ hexecutes
      simp [next, advance, accepts, hands, hsame]
  · obtain ⟨hringed, hwaiting⟩ := h.reject
    constructor
    · simpa [next, advance, hreject] using hringed
    · apply Passage.moves _ hexecutes
      simp [next, advance, accepts, hands, hreject, Firmware.accepted_reject, hwaiting]
  · obtain ⟨hringed, hwaiting⟩ := h.receive frame now
    constructor
    · simpa [next, advance, hreceive] using hringed
    · apply Passage.moves _ hexecutes
      simp only [next, advance, accepts, hands, hreceive, hwaiting, hframe]
      split_ifs
      · rfl
      · rfl

/-- A release event that clears the queue. -/
theorem clears_passage (hreleases : b.Releases e) (haccepts : b.accepts e = none)
    (hhands : b.hands e = none)
    (hqueue : (b.next e).firmware.commandQueue = b.firmware.queueClear.commandQueue)
    (hdepth : (b.next e).firmware.bridgeStatus.queueDepth = 0) :
  (b.next e).firmware.Ringed ∧ b.Passage e
  := by
  obtain ⟨hringed, hwaiting⟩ := Firmware.Ringed.of_clear hqueue hdepth
  apply And.intro hringed
  apply Passage.clears hreleases haccepts hhands hwaiting

theorem watchdog_passage (h : b.firmware.Ringed) {now : UInt64} :
  (b.next (.watchdog now)).firmware.Ringed ∧ b.Passage (.watchdog now)
  := by
  by_cases hfires : b.firmware.watchdogArmed ∧ now - b.firmware.lastContactMs > watchdogMs
  · apply clears_passage
    · exact hfires
    · rfl
    · rfl
    · simp only [next, advance, Firmware.watchdogTask, if_pos hfires]
      rfl
    · simp only [next, advance, Firmware.watchdogTask, if_pos hfires]
      rfl
  · constructor
    · simpa only [next, advance, Firmware.watchdogTask, if_neg hfires] using h
    · apply Passage.moves
      · simp [next, advance, accepts, hands, Firmware.watchdogTask, if_neg hfires]
      · simp [Executes, hands]

/-- While a release is in progress no frame is handed over. -/
theorem release_passage (h : b.firmware.Ringed) {ready sent : Bool} (hstage : b.releaseStage ≠ 0) :
  (b.next (.command ready sent)).firmware.Ringed ∧ b.Passage (.command ready sent)
  := by
  obtain ⟨hringed, hwaiting⟩ := h.releaseTask ready sent
  constructor
  · simpa only [next, advance, Firmware.commandTask, if_pos hstage] using hringed
  · apply Passage.moves
    · simp [next, advance, accepts, hands, Firmware.commandTask, hstage, hwaiting]
    · simp [Executes, hands, hstage]

/-- The command task when no release is in progress and `frame` is at the front. -/
theorem front_passage (h : b.firmware.Ringed) {ready sent : Bool} {frame : Frame}
    (hstage : b.releaseStage = 0) (hfront : b.firmware.queueFront = some frame) :
  (b.next (.command ready sent)).firmware.Ringed ∧ b.Passage (.command ready sent)
  := by
  have htask : b.advance (.command ready sent) =
      if (b.firmware.sendCommand frame ready sent).2.1 then
        (b.firmware.sendCommand frame ready sent).1.queuePop
      else (b.firmware.sendCommand frame ready sent).1 := by
    simp [advance, Firmware.commandTask, hstage, hfront]
  have hhands : b.hands (.command ready sent) =
      if (b.firmware.sendCommand frame ready sent).2.1 then some frame else none := by
    simp [hands, hstage, hfront, Option.filter]
  obtain ⟨hpopped, hwaiting⟩ := h.queuePop
  rw [hfront, Option.toList_some] at hwaiting
  by_cases hcommand : frame.command = commandReleaseAll
  · cases ready with
    | false =>
        have hunready : b.firmware.sendCommand frame false sent = (b.firmware, false, none) := by
          simp [Firmware.sendCommand]
        rw [hunready] at htask hhands
        constructor
        · simpa [next, htask] using h
        · apply Passage.moves
          · simp [next, htask, hhands, accepts]
          · simp [Executes, hhands]
    | true =>
        obtain ⟨hcleared, hnone⟩ := Firmware.Ringed.requestReleaseAll b.firmware
        rw [Firmware.sendCommand_release _ _ hcommand] at htask hhands
        constructor
        · simpa [next, htask, queuePop_release] using hcleared
        · apply Passage.executes
          · simp [Executes, hhands, hcommand]
          · rfl
          · rw [hhands, ← h.queueFront, hfront]
            rfl
          · simpa [next, htask, queuePop_release] using hnone
  · rw [Firmware.sendCommand_other _ _ _ hcommand] at htask
    rcases hdone : (b.firmware.sendCommand frame ready sent).2.1
    · constructor
      · simpa [next, htask, hdone] using h
      · apply Passage.moves
        · simp [next, htask, hhands, hdone, accepts]
        · simp [Executes, hhands, hdone]
    · constructor
      · simpa [next, htask, hdone] using hpopped
      · apply Passage.moves
        · simp [next, htask, hhands, hdone, accepts, hwaiting]
        · simp [Executes, hhands, hdone, hcommand]

theorem command_passage (h : b.firmware.Ringed) {ready sent : Bool} :
  (b.next (.command ready sent)).firmware.Ringed ∧ b.Passage (.command ready sent)
  := by
  by_cases hstage : b.releaseStage = 0
  · rcases hfront : b.firmware.queueFront with _ | frame
    · have htask : b.firmware.commandTask ready sent = (b.firmware, none) := by
        simp [Firmware.commandTask, hstage, hfront]
      constructor
      · simpa only [next, advance, htask] using h
      · apply Passage.moves
        · simp [next, advance, accepts, hands, hfront, htask]
        · simp [Executes, hands, hfront]
    · apply front_passage h hstage hfront
  · apply release_passage h hstage

/-- What an event does to the frames that wait. -/
theorem passage (h : b.firmware.Ringed) (e : Event) :
  (b.next e).firmware.Ringed ∧ b.Passage e
  := by
  cases e with
  | setReport reportId reportType buffer now => apply setReport_passage h
  | mount => apply clears_passage (b := b) (e := .mount) trivial rfl rfl rfl rfl
  | umount => apply clears_passage (b := b) (e := .umount) trivial rfl rfl rfl rfl
  | suspend => apply clears_passage (b := b) (e := .suspend) trivial rfl rfl rfl rfl
  | resume => apply clears_passage (b := b) (e := .resume) trivial rfl rfl rfl rfl
  | watchdog now => apply watchdog_passage h
  | command ready sent => apply command_passage h

/-- An accepted frame has the payload of its command. -/
theorem valid_of_accepts {frame : Frame} (h : frame ∈ b.accepts e) :
  commandPayloadIsValid frame ∧ frame.command ≠ commandHeartbeat
  := by
  cases e with
  | setReport reportId reportType buffer now =>
      rcases tudHidSetReportCb_cases b.firmware reportId reportType buffer now with
        hsame | hreject | ⟨frame', hframe, hvalid, hreceive⟩
      · simp [accepts, hsame] at h
      · simp [accepts, hreject, Firmware.accepted_reject] at h
      · rw [accepts, hframe] at h
        split_ifs at h
        · simp at h
        · obtain ⟨rfl, hcommand⟩ : frame' = frame ∧ frame.command ≠ commandHeartbeat := by
            simpa [Option.filter_eq_some_iff] using h
          apply And.intro hvalid hcommand
  | _ => simp [accepts] at h

/-- What waits afterwards has waited before or was accepted. -/
theorem Passage.mem (h : b.Passage e) {frame : Frame}
    (hframe : frame ∈ (b.next e).firmware.waiting) :
  frame ∈ b.firmware.waiting ∨ frame ∈ b.accepts e
  := by
  cases h with
  | moves hwaiting _ =>
      have hmem : frame ∈ b.firmware.waiting ++ (b.accepts e).toList := by
        rw [hwaiting]
        apply List.mem_append_right _ hframe
      simpa using hmem
  | clears _ _ _ hwaiting => simp [hwaiting] at hframe
  | executes _ _ _ hwaiting => simp [hwaiting] at hframe

/-- In every reachable state the ring buffer is in order, and what waits in it has the payload of
its command. -/
theorem ringed_of_run {h : List (Board × Event)} (hrun : Run Step Board.start h b) :
  b.firmware.Ringed ∧ ∀ frame ∈ b.firmware.waiting,
    commandPayloadIsValid frame ∧ frame.command ≠ commandHeartbeat
  := by
  induction hrun with
  | nil =>
      apply And.intro Firmware.Ringed.start
      intro frame hframe
      cases hframe
  | snoc _ hstep ih =>
      rw [hstep]
      obtain ⟨hringed, hvalid⟩ := ih
      obtain ⟨hnext, hpassage⟩ := passage hringed _
      apply And.intro hnext
      intro frame hframe
      rcases hpassage.mem hframe with hbefore | haccepted
      · apply hvalid frame hbefore
      · apply valid_of_accepts haccepted

theorem ringed_of_mem {h : List (Board × Event)} (hrun : Run Step Board.start h b)
    {x : Board × Event} (hx : x ∈ h) :
  x.1.firmware.Ringed ∧ ∀ frame ∈ x.1.firmware.waiting,
    commandPayloadIsValid frame ∧ frame.command ≠ commandHeartbeat
  := by
  obtain ⟨before, after, rfl⟩ := List.append_of_mem hx
  apply ringed_of_run hrun.before.1

/-- `send_command` is done with a frame of a valid payload when its report is transmitted, or when
it asks for a release. -/
theorem report_of_done (fw : Firmware) {frame : Frame} {ready sent : Bool}
    (hvalid : commandPayloadIsValid frame) (hheartbeat : frame.command ≠ commandHeartbeat)
    (hdone : (fw.sendCommand frame ready sent).2.1 = true) :
  frame.command = commandReleaseAll ∨
    ∃ report ∈ frame.report, (fw.sendCommand frame ready sent).2.2 = some report
  := by
  have hready : ready = true := by
    cases ready with
    | false => simp [Firmware.sendCommand] at hdone
    | true => rfl
  simp only [Firmware.sendCommand, commandPayloadIsValid, Frame.report, hready] at *
  split_ifs at * with hkeyboard hrelative habsolute hrelease
  all_goals simp_all

/-- A frame that is handed over is at the front, and its report is transmitted, or it asks for a
release. -/
theorem report_of_hands (h : b.firmware.Ringed)
    (hvalid : ∀ frame ∈ b.firmware.waiting,
      commandPayloadIsValid frame ∧ frame.command ≠ commandHeartbeat)
    {frame : Frame} (hframe : frame ∈ b.hands e) :
  frame.command = commandReleaseAll ∨
    ∃ report ∈ frame.report, b.transmits e = some (.command, report)
  := by
  cases e with
  | command ready sent =>
      rw [hands] at hframe
      split_ifs at hframe with hstage
      · cases hframe
      · obtain ⟨hfront, hdone⟩ := Option.filter_eq_some_iff.mp hframe
        have hwaits : frame ∈ b.firmware.waiting := by
          rw [h.queueFront] at hfront
          apply List.mem_of_head? hfront
        obtain ⟨hpayload, hheartbeat⟩ := hvalid frame hwaits
        rcases report_of_done _ hpayload hheartbeat hdone with hrelease | ⟨report, hreport, hsent⟩
        · left
          exact hrelease
        · right
          use report, hreport
          simp [transmits, Firmware.commandTask, hstage, hfront, hsent]
  | _ => cases hframe

theorem done_ready (fw : Firmware) (frame : Frame) :
  (fw.sendCommand frame true true).2.1 = true
  := by
  simp only [Firmware.sendCommand]
  split_ifs
  all_goals first
    | rfl
    | contradiction

/-- When no release is in progress, a ready endpoint takes the front frame. -/
theorem hands_ready (h : b.firmware.Ringed) (hstage : b.releaseStage = 0) :
  b.hands (.command true true) = b.firmware.waiting.head?
  := by
  rw [← h.queueFront]
  rcases hfront : b.firmware.queueFront with _ | frame
  · simp [hands, hfront]
  · simp [hands, hstage, hfront, done_ready, Option.filter]

/-- A ready endpoint takes the next report of a release. -/
theorem releaseStage_ready (h : b.firmware.Ringed) (hstage : b.releaseStage ≠ 0) :
  (b.next (.command true true)).firmware.Ringed ∧
  (b.next (.command true true)).firmware.waiting = b.firmware.waiting ∧
  (b.next (.command true true)).releaseStage = if b.releaseStage = 1 then 2 else 0
  := by
  have htask : b.advance (.command true true) = (b.firmware.releaseTask true true).1 := by
    simp only [advance, Firmware.commandTask, if_pos hstage]
  obtain ⟨hringed, hwaiting⟩ := h.releaseTask true true
  rw [next, releaseStage, htask]
  apply And.intro hringed
  apply And.intro hwaiting
  by_cases hone : b.releaseStage = 1
  · simp [Firmware.releaseTask, hone, Firmware.setStage]
  · simp [Firmware.releaseTask, hone, hstage, Firmware.setStage]

/-- Three rounds of the main loop with a ready endpoint reach the front frame. -/
theorem hands_soon (h : b.firmware.Ringed) :
  ∃ n ≤ 2, let b' := (fun c : Board => c.next (.command true true))^[n] b
    b'.firmware.waiting = b.firmware.waiting ∧
    b'.hands (.command true true) = b.firmware.waiting.head?
  := by
  by_cases hstage : b.releaseStage = 0
  · use 0, Nat.zero_le 2, rfl
    apply hands_ready h hstage
  · obtain ⟨hringed, hwaiting, hnext⟩ := releaseStage_ready h hstage
    by_cases hone : b.releaseStage = 1
    · rw [if_pos hone] at hnext
      obtain ⟨hringed', hwaiting', hlast⟩ := releaseStage_ready hringed (by simp [hnext])
      simp only [hnext] at hlast
      use 2, le_rfl, hwaiting'.trans hwaiting
      rw [← hwaiting, ← hwaiting']
      apply hands_ready hringed' hlast
    · rw [if_neg hone] at hnext
      use 1, Nat.le_succ 1, hwaiting
      rw [← hwaiting]
      apply hands_ready hringed hnext

theorem accepted_append (h h' : List (Board × Event)) :
  accepted (h ++ h') = accepted h ++ accepted h'
  := by
  apply List.filterMap_append

theorem handed_append (h h' : List (Board × Event)) : handed (h ++ h') = handed h ++ handed h'
  := by
  apply List.filterMap_append

theorem accepted_singleton (b : Board) (e : Event) : accepted [(b, e)] = (b.accepts e).toList
  := by
  cases h : b.accepts e
  all_goals simp [accepted, h]

theorem handed_singleton (b : Board) (e : Event) : handed [(b, e)] = (b.hands e).toList
  := by
  cases h : b.hands e
  all_goals simp [handed, h]

/-- An event that is no release event conserves the frames exactly when it does not execute a
`RELEASE_ALL` frame with others behind it. -/
theorem conserved_iff (h : b.firmware.Ringed) (hreleases : ¬ b.Releases e) :
  b.firmware.waiting ++ (b.accepts e).toList =
      (b.hands e).toList ++ (b.next e).firmware.waiting ↔
    (b.Executes e → b.queued = 1)
  := by
  cases (passage h e).2 with
  | moves hwaiting hexecutes => simp [hwaiting, hexecutes]
  | clears hclears _ _ _ => exact absurd hclears hreleases
  | executes hexecutes haccepts hhands hwaiting =>
      have hlength : b.firmware.waiting.length = b.queued := length_ring
      rcases hfront : b.firmware.waiting with _ | ⟨frame, rest⟩
      · obtain ⟨frame, hframe, _⟩ := hexecutes
        simp [hhands, hfront] at hframe
      · rw [hfront] at hhands hlength
        simp [haccepts, hhands, hwaiting, ← hlength, hexecutes]

/-- What a stretch of a run without release events does to the frames that wait. -/
theorem conserved_of_stretch {stretch : List (Board × Event)} (hrun : Run Step b stretch b')
    (hringed : ∀ x ∈ stretch, x.1.firmware.Ringed)
    (hreleases : ∀ x ∈ stretch, ¬ x.1.Releases x.2)
    (halone : ∀ x ∈ stretch, x.1.Executes x.2 → x.1.queued = 1) :
  b.firmware.waiting ++ accepted stretch = handed stretch ++ b'.firmware.waiting
  := by
  induction hrun with
  | nil => simp [accepted, handed]
  | @snoc h c _ e _ hstep ih =>
      simp only [List.forall_mem_append, List.forall_mem_singleton] at hringed hreleases halone
      have hbefore := ih hringed.1 hreleases.1 halone.1
      have hlast := (conserved_iff hringed.2 hreleases.2).mpr halone.2
      rw [accepted_append, handed_append, accepted_singleton, handed_singleton,
        ← List.append_assoc, hbefore, List.append_assoc, hlast, List.append_assoc, hstep]

/-- Accepted frames are not lost: the ring buffer is in order; along every stretch without release
events, what waits at its start and what is accepted along it is what is handed over along it and
what waits at its end, in that order; the report of a frame that is handed over is transmitted, a
`RELEASE_ALL` frame apart; and an endpoint that stays ready takes the front frame. -/
structure Delivers (h : List (Board × Event)) (b : Board) : Prop where
  ringed : (∀ x ∈ h, x.1.firmware.Ringed) ∧ b.firmware.Ringed
  conserved : ∀ before stretch after b₁ b₂, h = before ++ stretch ++ after →
    Run Step b₁ stretch b₂ → (∀ x ∈ stretch, ¬ x.1.Releases x.2) →
    b₁.firmware.waiting ++ accepted stretch = handed stretch ++ b₂.firmware.waiting
  transmitted : ∀ x ∈ h, ∀ frame ∈ x.1.hands x.2, frame.command = commandReleaseAll ∨
    ∃ report ∈ frame.report, x.1.transmits x.2 = some (.command, report)
  soon : ∃ n ≤ 2, let b' := (fun c : Board => c.next (.command true true))^[n] b
    b'.firmware.waiting = b.firmware.waiting ∧
    b'.hands (.command true true) = b.firmware.waiting.head?

/-- In every run of the firmware, accepted frames are not lost if and only if, whenever a
`RELEASE_ALL` frame is executed, no other frame waits behind it. -/
theorem delivers_iff_of_run {h : List (Board × Event)} (hrun : Run Step Board.start h b) :
  Delivers h b ↔ ∀ x ∈ h, x.1.Executes x.2 → x.1.queued = 1
  := by
  constructor
  · intro hdelivers x hx
    obtain ⟨before, after, rfl⟩ := List.append_of_mem hx
    intro hexecutes
    have hreleases : ¬ x.1.Releases x.2 := by
      obtain ⟨frame, hframe, _⟩ := hexecutes
      rcases x with ⟨c, e⟩
      cases e with
      | command ready sent => exact not_false
      | _ => cases hframe
    have hstretch := hdelivers.conserved before [x] after x.1 (x.1.next x.2) (by simp)
      (Run.nil.snoc rfl) (by simpa using hreleases)
    rw [accepted_singleton, handed_singleton] at hstretch
    apply (conserved_iff (ringed_of_mem hrun hx).1 hreleases).mp hstretch hexecutes
  · intro halone
    constructor
    · constructor
      · intro x hx
        apply (ringed_of_mem hrun hx).1
      · apply (ringed_of_run hrun).1
    · rintro before stretch after b₁ b₂ rfl hstretch hreleases
      apply conserved_of_stretch hstretch _ hreleases
      · intro x hx
        apply halone
        simp [hx]
      · intro x hx
        apply (ringed_of_mem hrun _).1
        simp [hx]
    · intro x hx frame hframe
      obtain ⟨hringed, hvalid⟩ := ringed_of_mem hrun hx
      apply report_of_hands hringed hvalid hframe
    · apply hands_soon (ringed_of_run hrun).1

instance (b : Board) (e : Event) : Decidable (b.Executes e) :=
  inferInstanceAs (Decidable (∃ frame ∈ b.hands e, frame.command = commandReleaseAll))

theorem delivers_released :
  Delivers (Run.trace next Board.start sampleEvents) (sampleEvents.foldl next Board.start)
  := by
  apply (delivers_iff_of_run (run_next sampleEvents)).mpr
  decide +kernel

/-- The device is mounted and released, and a release is requested. -/
def sampleRequest : List Event :=
  [.mount, .command true true, .command true true,
    .setReport reportIdVendor .output sampleReleaseAll 0]

/-- A frame accepted while a `RELEASE_ALL` frame waits in front of it is lost: no release event
follows its acceptance, and it is neither handed over nor does it wait any more. -/
theorem not_delivers_behind :
  ∃ before x stretch b frame, Run Step Board.start (before ++ x :: stretch) b ∧
    frame ∈ x.1.accepts x.2 ∧ (∀ y ∈ stretch, ¬ y.1.Releases y.2) ∧
    frame ∉ handed (before ++ x :: stretch) ∧ frame ∉ b.firmware.waiting
  := by
  let drag : Event := .setReport reportIdVendor .output sampleDrag 1
  let requested : Board := sampleRequest.foldl next Board.start
  use Run.trace next Board.start sampleRequest, (requested, drag),
    [(requested.next drag, .command true true)], (requested.next drag).next (.command true true),
    ⟨sampleDrag⟩
  constructor
  · apply run_next (sampleRequest ++ [drag, .command true true])
  · constructor
    · decide +kernel
    · constructor
      · simp [Releases]
      · constructor
        · decide +kernel
        · decide +kernel

end Board

end VynxDesk.InputBridge
