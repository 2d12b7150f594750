import Mathlib.Data.Finset.Card
import VynxDesk.Connection.State
import VynxDesk.Lib.Run

/-!
# Pacing of video frames

Video services (`server/video_service.rs`) wait after each frame until the connections that it was
sent to have acknowledged it.  The acknowledgements of all services with one display index travel
through one queue, and the wait loop compares the number of connections that acknowledged with the
number that the frame was sent to.  No frame is passed over as long as what a service finds in the
queue comes from connections that have acknowledged its frame (`Pacing.paced_of_run`).
-/

namespace VynxDesk.VideoService

/-- A video service, which `get_service_name` names. -/
structure ServiceId where
  source : VideoSource
  idx : ℕ
  deriving DecidableEq

/-- An acknowledgement in a queue: the connection, the services it is meant for, and how many were
made before it. -/
structure Ack where
  conn : BitVec 32
  meant : List ServiceId
  nth : ℕ
  deriving DecidableEq

/-- `VideoFrameController`. -/
structure VideoFrameController where
  displayIdx : ℕ
  sendConnIds : Finset (BitVec 32) := ∅
  deriving DecidableEq

/-- Where a service is in the loop of `run`: before a frame, between sending it and `set_send`, or in
the wait loop. -/
inductive Phase where
  | idle
  | sent (connIds : Finset (BitVec 32))
  | waiting (fetchedConnIds : Finset (BitVec 32)) (waitBegin : ℕ)
  deriving DecidableEq

/-- The run of a service, and how many acknowledgements were made before its frame was sent. -/
structure Runner where
  frameController : VideoFrameController
  phase : Phase := .idle
  sentAt : ℕ := 0
  deriving DecidableEq

/-- `FRAME_FETCHED_NOTIFIERS`, `DISPLAY_CONN_IDS`, the services that run, all acknowledgements ever
made, and the clock in milliseconds. -/
structure Pacing where
  notifiers : ℕ → Option (List Ack) := fun _ => none
  displayConnIds : ℕ → Option (Finset (BitVec 32)) := fun _ => none
  runners : ServiceId → Option Runner := fun _ => none
  acked : List Ack := []
  now : ℕ := 0

/-- What services and connections do, and the passing of time.  The acknowledgements are those of a
connection that passes a frame on, and those of `VideoReceived` or of a connection that leaves. -/
inductive Event where
  | new (svc : ServiceId)
  | sendVideoFrame (svc : ServiceId) (connIds : Finset (BitVec 32))
  | setSend (svc : ServiceId)
  | notifyVideoFrameFetched (displayIdx : ℕ) (conn : BitVec 32) (meant : List ServiceId)
  | notifyVideoFrameFetchedByConnId (conn : BitVec 32) (meant : List ServiceId)
  | poll (svc : ServiceId)
  | timeout (svc : ServiceId)
  | bail (svc : ServiceId)
  | join (svc : ServiceId)
  | tick (passed : ℕ)
  deriving DecidableEq

namespace VideoFrameController

/-- `reset`. -/
def reset (c : VideoFrameController) : VideoFrameController := { c with sendConnIds := ∅ }

/-- `set_send`: the controller, and what is recorded in `DISPLAY_CONN_IDS`. -/
def setSend (c : VideoFrameController) (connIds : Finset (BitVec 32))
    (displayConnIds : ℕ → Option (Finset (BitVec 32))) :
    VideoFrameController × (ℕ → Option (Finset (BitVec 32))) :=
  if connIds ≠ ∅ then
    ({ c with sendConnIds := connIds },
      Function.update displayConnIds c.displayIdx (some connIds))
  else (c, displayConnIds)

/-- `try_wait_next`: the connections that have acknowledged, and the queues. -/
def tryWaitNext (c : VideoFrameController) (fetchedConnIds : Finset (BitVec 32))
    (notifiers : ℕ → Option (List Ack)) :
    Finset (BitVec 32) × (ℕ → Option (List Ack)) :=
  if c.sendConnIds = ∅ then (fetchedConnIds, notifiers)
  else
    match notifiers c.displayIdx with
    | none => (fetchedConnIds, notifiers)
    | some queue =>
        (fetchedConnIds ∪ (queue.map Ack.conn).toFinset,
          Function.update notifiers c.displayIdx (some []))

end VideoFrameController

namespace Pacing

/-- The timeout of the wait loop, `timeout_millis`. -/
def timeoutMillis : ℕ := 3000

/-- The run of a service changes. -/
def withRunner (s : Pacing) (svc : ServiceId) (r : Option Runner) : Pacing :=
  { s with runners := Function.update s.runners svc r }

/-- An acknowledgement is sent to the queues of the chosen display indexes that exist. -/
def acknowledge (s : Pacing) (chosen : ℕ → Bool) (conn : BitVec 32) (meant : List ServiceId) :
    Pacing :=
  let ack : Ack := ⟨conn, meant, s.acked.length⟩
  { s with
    notifiers := fun idx =>
      if chosen idx then (s.notifiers idx).map (· ++ [ack]) else s.notifiers idx
    acked := s.acked ++ [ack] }

/-- `notify_video_frame_fetched`. -/
def notifyVideoFrameFetched (s : Pacing) (displayIdx : ℕ) (conn : BitVec 32)
    (meant : List ServiceId) : Pacing :=
  s.acknowledge (· = displayIdx) conn meant

/-- `notify_video_frame_fetched_by_conn_id`. -/
def notifyVideoFrameFetchedByConnId (s : Pacing) (conn : BitVec 32) (meant : List ServiceId) :
    Pacing :=
  s.acknowledge (fun idx => conn ∈ (s.displayConnIds idx).getD ∅) conn meant

/-- `new`, with the start of `run`. -/
def new (s : Pacing) (svc : ServiceId) : Pacing :=
  { s with notifiers := Function.update s.notifiers svc.idx (some ((s.notifiers svc.idx).getD [])) }
    |>.withRunner svc (some { frameController := { displayIdx := svc.idx } })

/-- The entry of a display index in `DISPLAY_CONN_IDS` is removed. -/
def removeDisplay (s : Pacing) (idx : ℕ) : Pacing :=
  { s with displayConnIds := Function.update s.displayConnIds idx none }

/-- A turn of the wait loop. -/
def poll (s : Pacing) (svc : ServiceId) (r : Runner) (fetchedConnIds : Finset (BitVec 32))
    (waitBegin : ℕ) : Pacing :=
  let (fetchedConnIds, notifiers) := r.frameController.tryWaitNext fetchedConnIds s.notifiers
  let s := { s with notifiers := notifiers }
  if r.frameController.sendConnIds.card ≤ fetchedConnIds.card then
    (s.withRunner svc (some { r with phase := .idle })).removeDisplay svc.idx
  else s.withRunner svc (some { r with phase := .waiting fetchedConnIds waitBegin })

/-- A step of the services and connections. -/
inductive Step : Pacing → Event → Pacing → Prop where
  | new {s : Pacing} {svc : ServiceId} (hnew : s.runners svc = none) :
      Step s (.new svc) (s.new svc)
  | sendVideoFrame {s : Pacing} {svc : ServiceId} {r : Runner} (hr : s.runners svc = some r)
      (hphase : r.phase = .idle) (connIds : Finset (BitVec 32)) :
      Step s (.sendVideoFrame svc connIds) (s.withRunner svc (some
        { frameController := r.frameController.reset
          phase := .sent connIds
          sentAt := s.acked.length }))
  | setSend {s : Pacing} {svc : ServiceId} {r : Runner} {connIds : Finset (BitVec 32)}
      (hr : s.runners svc = some r) (hphase : r.phase = .sent connIds) :
      Step s (.setSend svc)
        ({ s with displayConnIds := (r.frameController.setSend connIds s.displayConnIds).2 }.withRunner
          svc (some { r with
            frameController := (r.frameController.setSend connIds s.displayConnIds).1
            phase := .waiting ∅ s.now }))
  | notifyVideoFrameFetched (s : Pacing) (displayIdx : ℕ) (conn : BitVec 32)
      (meant : List ServiceId) :
      Step s (.notifyVideoFrameFetched displayIdx conn meant)
        (s.notifyVideoFrameFetched displayIdx conn meant)
  | notifyVideoFrameFetchedByConnId (s : Pacing) (conn : BitVec 32) (meant : List ServiceId) :
      Step s (.notifyVideoFrameFetchedByConnId conn meant)
        (s.notifyVideoFrameFetchedByConnId conn meant)
  | poll {s : Pacing} {svc : ServiceId} {r : Runner} {fetchedConnIds : Finset (BitVec 32)}
      {waitBegin : ℕ} (hr : s.runners svc = some r)
      (hphase : r.phase = .waiting fetchedConnIds waitBegin) :
      Step s (.poll svc) (s.poll svc r fetchedConnIds waitBegin)
  | timeout {s : Pacing} {svc : ServiceId} {r : Runner} {fetchedConnIds : Finset (BitVec 32)}
      {waitBegin : ℕ} (hr : s.runners svc = some r)
      (hphase : r.phase = .waiting fetchedConnIds waitBegin)
      (hlate : waitBegin + timeoutMillis ≤ s.now) :
      Step s (.timeout svc)
        ((s.withRunner svc (some { r with phase := .idle })).removeDisplay svc.idx)
  | bail {s : Pacing} {svc : ServiceId} {r : Runner} (hr : s.runners svc = some r) :
      Step s (.bail svc)
        ((s.withRunner svc (some { frameController := { displayIdx := svc.idx } })).removeDisplay
          svc.idx)
  | join {s : Pacing} {svc : ServiceId} {r : Runner} (hr : s.runners svc = some r) :
      Step s (.join svc) ((s.withRunner svc none).removeDisplay svc.idx)
  | tick (s : Pacing) (passed : ℕ) : Step s (.tick passed) { s with now := s.now + passed }

/-- The connection has acknowledged the frame of the service, after it was sent and with an
acknowledgement meant for the service. -/
def Acknowledged (s : Pacing) (svc : ServiceId) (r : Runner) (conn : BitVec 32) : Prop :=
  ∃ ack ∈ s.acked, ack.conn = conn ∧ svc ∈ ack.meant ∧ r.sentAt ≤ ack.nth

/-- The service is in the wait loop. -/
def Waits (s : Pacing) (svc : ServiceId) : Prop :=
  ∃ r fetchedConnIds waitBegin, s.runners svc = some r
    ∧ r.phase = .waiting fetchedConnIds waitBegin

/-- Whoever leaves the wait loop by a poll before the deadline has the acknowledgements of all that
its frame was sent to. -/
def Paced (s : Pacing) (e : Event) : Prop :=
  ∀ svc r fetchedConnIds waitBegin s', e = .poll svc → Step s e s' → s.runners svc = some r →
    r.phase = .waiting fetchedConnIds waitBegin → s.now < waitBegin + timeoutMillis →
    ¬ s'.Waits svc → ∀ conn ∈ r.frameController.sendConnIds, s.Acknowledged svc r conn

/-- Whatever a poll finds in the queue comes from connections that the frame was sent to and that
have acknowledged it. -/
def Genuine (s : Pacing) (e : Event) : Prop :=
  ∀ svc r queue, e = .poll svc → s.runners svc = some r → r.frameController.sendConnIds ≠ ∅ →
    s.notifiers r.frameController.displayIdx = some queue →
    ∀ ack ∈ queue, ack.conn ∈ r.frameController.sendConnIds ∧ s.Acknowledged svc r ack.conn

/-- In the wait loop only connections are counted that the frame was sent to and that have
acknowledged it. -/
def Sound (s : Pacing) : Prop :=
  ∀ svc r fetchedConnIds waitBegin, s.runners svc = some r →
    r.phase = .waiting fetchedConnIds waitBegin →
    ∀ conn ∈ fetchedConnIds, conn ∈ r.frameController.sendConnIds ∧ s.Acknowledged svc r conn

variable {s s' : Pacing} {e : Event}

theorem runners_withRunner_self (svc : ServiceId) (r : Option Runner) :
  (s.withRunner svc r).runners svc = r
  := Function.update_self _ _ _

/-- Acknowledgements stay made. -/
theorem Acknowledged.mono {svc : ServiceId} {r r' : Runner} {conn : BitVec 32}
    (hacked : s.Acknowledged svc r conn) (hmore : s.acked ⊆ s'.acked)
    (hsent : r'.sentAt = r.sentAt) :
  s'.Acknowledged svc r' conn
  := by
  obtain ⟨ack, hack, hconn, hmeant, hafter⟩ := hacked
  use ack, hmore hack, hconn, hmeant
  rw [hsent]
  exact hafter

/-- What leaves the services alone keeps the counts sound. -/
theorem Sound.of_runners (hsound : Sound s) (hrunners : s'.runners = s.runners)
    (hmore : s.acked ⊆ s'.acked) :
  Sound s'
  := by
  intro svc r fetchedConnIds waitBegin hr hphase conn hconn
  rw [hrunners] at hr
  obtain ⟨hmem, hacked⟩ := hsound svc r fetchedConnIds waitBegin hr hphase conn hconn
  exact ⟨hmem, hacked.mono hmore rfl⟩

/-- What changes one service keeps the counts sound when those of the service are. -/
theorem Sound.of_runner {svc : ServiceId} {r : Option Runner} (hsound : Sound s)
    (hrunners : s'.runners = Function.update s.runners svc r) (hmore : s.acked ⊆ s'.acked)
    (hself : ∀ r', r = some r' → ∀ fetchedConnIds waitBegin,
      r'.phase = .waiting fetchedConnIds waitBegin →
      ∀ conn ∈ fetchedConnIds,
        conn ∈ r'.frameController.sendConnIds ∧ s'.Acknowledged svc r' conn) :
  Sound s'
  := by
  intro svc' r' fetchedConnIds waitBegin hr' hphase conn hconn
  rw [hrunners] at hr'
  by_cases hsvc : svc' = svc
  · subst hsvc
    rw [Function.update_self] at hr'
    apply hself r' hr' fetchedConnIds waitBegin hphase conn hconn
  · rw [Function.update_of_ne hsvc] at hr'
    obtain ⟨hmem, hacked⟩ := hsound svc' r' fetchedConnIds waitBegin hr' hphase conn hconn
    exact ⟨hmem, hacked.mono hmore rfl⟩

theorem subset_acked_acknowledge (chosen : ℕ → Bool) (conn : BitVec 32)
    (meant : List ServiceId) :
  s.acked ⊆ (s.acknowledge chosen conn meant).acked
  := by
  intro ack hack
  apply List.mem_append_left _ hack

/-- A poll counts connections that it had counted and those that it finds in the queue. -/
theorem mem_tryWaitNext {c : VideoFrameController} {fetchedConnIds : Finset (BitVec 32)}
    {notifiers : ℕ → Option (List Ack)} {conn : BitVec 32}
    (hconn : conn ∈ (c.tryWaitNext fetchedConnIds notifiers).1) :
  conn ∈ fetchedConnIds ∨ c.sendConnIds ≠ ∅ ∧
    ∃ queue, notifiers c.displayIdx = some queue ∧ ∃ ack ∈ queue, ack.conn = conn
  := by
  rw [VideoFrameController.tryWaitNext] at hconn
  split at hconn
  · exact .inl hconn
  · rename_i hsend
    split at hconn
    · exact .inl hconn
    · rename_i queue hqueue
      rcases Finset.mem_union.mp hconn with hconn | hconn
      · exact .inl hconn
      · rw [List.mem_toFinset, List.mem_map] at hconn
        exact .inr ⟨hsend, queue, hqueue, hconn⟩

/-- A poll of a genuine queue counts only who has acknowledged the frame. -/
theorem Sound.tryWaitNext {svc : ServiceId} {r : Runner} {fetchedConnIds : Finset (BitVec 32)}
    {waitBegin : ℕ} (hsound : Sound s) (hgenuine : s.Genuine (.poll svc))
    (hr : s.runners svc = some r) (hphase : r.phase = .waiting fetchedConnIds waitBegin) :
  ∀ conn ∈ (r.frameController.tryWaitNext fetchedConnIds s.notifiers).1,
    conn ∈ r.frameController.sendConnIds ∧ s.Acknowledged svc r conn
  := by
  intro conn hconn
  rcases mem_tryWaitNext hconn with hcounted | ⟨hsend, queue, hqueue, ack, hack, rfl⟩
  · apply hsound svc r fetchedConnIds waitBegin hr hphase conn hcounted
  · apply hgenuine svc r queue rfl hr hsend hqueue ack hack

/-- A service that does not wait counts nobody. -/
theorem Sound.of_idle {svc : ServiceId} {r : Option Runner} (hsound : Sound s)
    (hrunners : s'.runners = Function.update s.runners svc r) (hacked : s'.acked = s.acked)
    (hidle : ∀ r', r = some r' → ∀ fetchedConnIds waitBegin,
      r'.phase ≠ .waiting fetchedConnIds waitBegin) :
  Sound s'
  := by
  apply hsound.of_runner hrunners
  · rw [hacked]
    apply List.Subset.refl
  · intro r' hr' fetchedConnIds waitBegin hphase
    exact absurd hphase (hidle r' hr' fetchedConnIds waitBegin)

/-- A poll of a genuine queue keeps the counts sound. -/
theorem Sound.poll {svc : ServiceId} {r : Runner} {fetchedConnIds : Finset (BitVec 32)}
    {waitBegin : ℕ} (hsound : Sound s) (hgenuine : s.Genuine (.poll svc))
    (hr : s.runners svc = some r) (hphase : r.phase = .waiting fetchedConnIds waitBegin) :
  Sound (s.poll svc r fetchedConnIds waitBegin)
  := by
  have hcounted := hsound.tryWaitNext hgenuine hr hphase
  rw [Pacing.poll]
  dsimp only
  split
  · apply Sound.of_idle hsound
    · rfl
    · rfl
    · rintro _ ⟨⟩
      nofun
  · apply Sound.of_runner hsound
    · rfl
    · apply List.Subset.refl
    · rintro _ ⟨⟩ _ _ ⟨⟩ conn hconn
      apply hcounted conn hconn

/-- Every step, if a poll then of a genuine queue, keeps the counts sound. -/
theorem Sound.step (hsound : Sound s) (hgenuine : s.Genuine e) (hstep : Step s e s') :
  Sound s'
  := by
  cases hstep with
  | new hnew =>
      apply Sound.of_idle hsound
      · rfl
      · rfl
      · rintro _ ⟨⟩
        nofun
  | sendVideoFrame hr hphase connIds =>
      apply Sound.of_idle hsound
      · rfl
      · rfl
      · rintro _ ⟨⟩
        nofun
  | setSend hr hphase =>
      apply Sound.of_runner hsound
      · rfl
      · apply List.Subset.refl
      · rintro _ ⟨⟩ _ _ ⟨⟩ conn hconn
        simp at hconn
  | notifyVideoFrameFetched displayIdx conn meant =>
      apply Sound.of_runners hsound
      · rfl
      · apply subset_acked_acknowledge
  | notifyVideoFrameFetchedByConnId conn meant =>
      apply Sound.of_runners hsound
      · rfl
      · apply subset_acked_acknowledge
  | poll hr hphase => apply hsound.poll hgenuine hr hphase
  | timeout hr hphase hlate =>
      apply Sound.of_idle hsound
      · rfl
      · rfl
      · rintro _ ⟨⟩
        nofun
  | bail hr =>
      apply Sound.of_idle hsound
      · rfl
      · rfl
      · rintro _ ⟨⟩
        nofun
  | join hr =>
      apply Sound.of_idle hsound
      · rfl
      · rfl
      · nofun
  | tick passed =>
      apply Sound.of_runners hsound
      · rfl
      · apply List.Subset.refl

/-- A poll of a genuine queue leaves the wait loop only when all have acknowledged. -/
theorem Sound.paced (hsound : Sound s) (hgenuine : s.Genuine e) :
  s.Paced e
  := by
  rintro svc r fetchedConnIds waitBegin s' rfl hstep hr hphase - hleft conn hconn
  have hcounted := hsound.tryWaitNext hgenuine hr hphase
  have henough : r.frameController.sendConnIds.card
      ≤ (r.frameController.tryWaitNext fetchedConnIds s.notifiers).1.card := by
    by_contra hfew
    apply hleft
    cases hstep with
    | poll hr' hphase' =>
        obtain rfl := Option.some.inj (hr.symm.trans hr')
        obtain ⟨rfl, rfl⟩ := Phase.waiting.inj (hphase.symm.trans hphase')
        have hstays : (s.poll svc r fetchedConnIds waitBegin).runners svc
            = some { r with
              phase := .waiting (r.frameController.tryWaitNext fetchedConnIds s.notifiers).1
                waitBegin } := by
          rw [Pacing.poll]
          dsimp only
          rw [if_neg hfew, runners_withRunner_self]
        exact ⟨_, _, _, hstays, rfl⟩
  have hsubset : (r.frameController.tryWaitNext fetchedConnIds s.notifiers).1
      ⊆ r.frameController.sendConnIds := fun conn hconn => (hcounted conn hconn).1
  rw [← Finset.eq_of_subset_of_card_le hsubset henough] at hconn
  apply (hcounted conn hconn).2

/-- In a run whose polls find only genuine acknowledgements, no service leaves the wait loop before the
deadline without those of all that its frame was sent to. -/
theorem paced_of_run {h : List (Pacing × Event)} (hrun : Run Step {} h s)
    (hgenuine : ∀ x ∈ h, Genuine x.1 x.2) :
  ∀ x ∈ h, Paced x.1 x.2
  := by
  have hstart : Sound {} := by
    intro svc r fetchedConnIds waitBegin hr
    cases hr
  obtain ⟨hsound, -⟩ := hrun.forall_of Genuine Sound Sound hstart (fun _ hsound => hsound)
    (fun s e s' hsound hgenuine hstep => hsound.step hgenuine hstep) hgenuine
  intro x hx
  apply (hsound x hx).paced (hgenuine x hx)

/-- The first monitor, and the first camera. -/
def sampleMonitor : ServiceId := ⟨.monitor, 0⟩

/-- The camera that has the display index of the monitor. -/
def sampleCamera : ServiceId := ⟨.camera, 0⟩

/-- Both run. -/
def sampleRunning : Pacing := ({} : Pacing).new sampleMonitor |>.new sampleCamera

/-- The monitor has sent a frame to connection 1. -/
def sampleSent : Pacing :=
  sampleRunning.withRunner sampleMonitor
    (some { frameController := { displayIdx := 0 }, phase := .sent {1} })

/-- The monitor's run while it waits. -/
def sampleRunner : Runner :=
  { frameController := { displayIdx := 0, sendConnIds := {1} }, phase := .waiting ∅ 0 }

/-- The monitor waits. -/
def sampleWaits : Pacing :=
  { sampleSent with displayConnIds := Function.update sampleSent.displayConnIds 0 (some {1}) }
    |>.withRunner sampleMonitor (some sampleRunner)

/-- The steps that lead there. -/
def sampleHistory : List (Pacing × Event) :=
  [({}, .new sampleMonitor), (({} : Pacing).new sampleMonitor, .new sampleCamera),
    (sampleRunning, .sendVideoFrame sampleMonitor {1}), (sampleSent, .setSend sampleMonitor)]

theorem run_sampleWaits :
  Run Step {} sampleHistory sampleWaits
  := by
  have hmonitor : Step {} (.new sampleMonitor) _ := Step.new rfl
  have hcamera : Step (({} : Pacing).new sampleMonitor) (.new sampleCamera) sampleRunning :=
    Step.new rfl
  have hidle : sampleRunning.runners sampleMonitor
      = some { frameController := { displayIdx := 0 } } := rfl
  have hframe : Step sampleRunning (.sendVideoFrame sampleMonitor {1}) sampleSent :=
    Step.sendVideoFrame hidle rfl {1}
  have hsent : sampleSent.runners sampleMonitor
      = some { frameController := { displayIdx := 0 }, phase := .sent {1} } := rfl
  have hset : Step sampleSent (.setSend sampleMonitor) sampleWaits := Step.setSend hsent rfl
  exact (((Run.nil.snoc hmonitor).snoc hcamera).snoc hframe).snoc hset

/-- The connection acknowledges the frame of the monitor. -/
def sampleAcked : Pacing := sampleWaits.notifyVideoFrameFetched 0 1 [sampleMonitor]

/-- The steps up to the end of the wait. -/
def sampleAckedHistory : List (Pacing × Event) :=
  sampleHistory ++ [(sampleWaits, .notifyVideoFrameFetched 0 1 [sampleMonitor])]
    ++ [(sampleAcked, .poll sampleMonitor)]

theorem paced_acked :
  (∃ s, Run Step {} sampleAckedHistory s) ∧ ∀ x ∈ sampleAckedHistory, Paced x.1 x.2
  := by
  have hwaits : sampleAcked.runners sampleMonitor = some sampleRunner := rfl
  have hrun := (run_sampleWaits.snoc (Step.notifyVideoFrameFetched _ 0 1 [sampleMonitor])).snoc
    (Step.poll (s := sampleAcked) hwaits rfl)
  use ⟨_, hrun⟩
  apply paced_of_run hrun
  simp only [sampleHistory, List.cons_append, List.nil_append, List.forall_mem_cons]
  refine ⟨nofun, nofun, nofun, nofun, nofun, ?_, nofun⟩
  rintro svc r queue ⟨⟩ hr - hqueue ack hack
  obtain rfl := Option.some.inj (hwaits.symm.trans hr)
  obtain rfl : [⟨1, [sampleMonitor], 0⟩] = queue := Option.some.inj hqueue
  obtain rfl := List.mem_singleton.mp hack
  constructor
  · decide
  · use ⟨1, [sampleMonitor], 0⟩
    decide

/-- Another connection acknowledges a frame of the camera. -/
def sampleStolen : Pacing := sampleWaits.notifyVideoFrameFetched 0 2 [sampleCamera]

/-- An acknowledgement of the camera's frame ends the wait of the monitor. -/
theorem not_paced :
  ¬ ∀ (h : List (Pacing × Event)) (s : Pacing), Run Step {} h s → ∀ x ∈ h, Paced x.1 x.2
  := by
  intro h
  have hwaits : sampleStolen.runners sampleMonitor = some sampleRunner := rfl
  have hpoll := Step.poll hwaits rfl
  have hstolen := Step.notifyVideoFrameFetched sampleWaits 0 2 [sampleCamera]
  have hidle : (sampleStolen.poll sampleMonitor sampleRunner ∅ 0).runners sampleMonitor
      = some { sampleRunner with phase := .idle } := by decide
  have hleft : ¬ (sampleStolen.poll sampleMonitor sampleRunner ∅ 0).Waits sampleMonitor := by
    rintro ⟨r, fetchedConnIds, waitBegin, hr, hphase⟩
    obtain rfl := Option.some.inj (hidle.symm.trans hr)
    cases hphase
  obtain ⟨ack, hack, hconn, -⟩ := h _ _ ((run_sampleWaits.snoc hstolen).snoc hpoll) _
    List.mem_concat_self sampleMonitor _ _ _ _ rfl hpoll hwaits rfl (by decide) hleft 1 (by decide)
  obtain rfl : ack = ⟨2, [sampleCamera], 0⟩ := List.mem_singleton.mp hack
  exact absurd hconn (by decide)

end Pacing

end VynxDesk.VideoService
