import Mathlib.Data.List.Induction
import Mathlib.Data.List.TakeWhile
import VynxDesk.Lib.Run
import VynxDesk.Terminal.OutputBuffer

/-!
# Replaying a terminal session

One session of `server/terminal_service.rs`: its output channel, its output buffer and what it does
at a re-connection (`handle_open`), at the end of a connection (`reset_status`) and at a poll
(`read_outputs`).  What is sent from a re-connection on is a suffix of what was drained before,
followed by what is drained until the session is closed again (`Session.replay_of_run`).
-/

namespace VynxDesk.TerminalService

/-- `CHANNEL_BUFFER_SIZE`. -/
def channelBufferSize : ℕ := 500

/-- `COMPRESS_THRESHOLD`. -/
def compressThreshold : ℕ := 512

/-- `DEFAULT_RECONNECT_BUFFER_BYTES`. -/
def defaultReconnectBufferBytes : ℕ := 8 * 1024

/-- `MAX_SIGWINCH_PHASE_ATTEMPTS`. -/
def maxSigwinchPhaseAttempts : ℕ := 3

/-- The compression of `hbb_common`, which round-trips. -/
structure Compression where
  compress : Bytes → Bytes
  decompress : Bytes → Bytes
  decompress_compress : ∀ data, decompress (compress data) = data

/-- `SigwinchPhase`. -/
inductive SigwinchPhase where
  | idle
  | tempResize (retries : ℕ)
  | restore (retries : ℕ)
  deriving DecidableEq, Repr

/-- `SigwinchAction`. -/
inductive SigwinchAction where
  | tempResize
  | restore
  deriving DecidableEq, Repr

/-- `SessionState`. -/
inductive SessionState where
  | closed
  | active (pendingBuffer : Option Bytes) (sigwinch : SigwinchPhase)
  deriving DecidableEq, Repr

/-- `TerminalSession`, with the chunks that wait in its output channel, the oldest first. -/
structure Session where
  outputRx : List Bytes := []
  outputBuffer : OutputBuffer := {}
  state : SessionState := .closed
  closedMessageSent : Bool := false
  deriving DecidableEq, Repr

/-- `TerminalResponse`, as far as it carries output. -/
structure DataResponse where
  terminalId : BitVec 32
  data : Bytes
  compressed : Bool
  deriving DecidableEq, Repr

/-- What a client reads of a response. -/
def DataResponse.text (c : Compression) (response : DataResponse) : Bytes :=
  if response.compressed then c.decompress response.data else response.data

/-- `create_terminal_data_response`. -/
def createTerminalDataResponse (c : Compression) (terminalId : BitVec 32) (data : Bytes) :
    DataResponse :=
  if compressThreshold < data.length ∧ (c.compress data).length < data.length then
    { terminalId := terminalId, data := c.compress data, compressed := true }
  else { terminalId := terminalId, data := data, compressed := false }

namespace SigwinchPhase

/-- The resize that a poll is to do, and the phase with one attempt less. -/
def next : SigwinchPhase → Option SigwinchAction × SigwinchPhase
  | idle => (none, idle)
  | tempResize 0 => (none, idle)
  | tempResize (retries + 1) => (some .tempResize, tempResize retries)
  | restore 0 => (none, idle)
  | restore (retries + 1) => (some .restore, restore retries)

/-- The phase after a poll whose resize succeeds or not. -/
def poll (resizeOk : Bool) (sigwinch : SigwinchPhase) : SigwinchPhase :=
  match sigwinch.next, resizeOk with
  | (some .tempResize, _), true => restore maxSigwinchPhaseAttempts
  | (some .restore, _), true => idle
  | (_, sigwinch), _ => sigwinch

end SigwinchPhase

namespace Session

/-- `reset_status`, for one of the sessions. -/
def resetStatus (session : Session) : Session := { session with state := .closed }

/-- `handle_open`, where the terminal exists: the session, and `replay_terminal_output`. -/
def handleOpen (session : Session) : Session × Bool :=
  let reconnectBacklog := session.outputRx.take channelBufferSize
  let outputBuffer := reconnectBacklog.foldl (fun buffer data => buffer.append data)
    session.outputBuffer
  let buffer :=
    if reconnectBacklog ≠ [] then outputBuffer.getRecent defaultReconnectBufferBytes
    else session.outputBuffer.getRecent defaultReconnectBufferBytes
  let hasPending := buffer ≠ []
  ({ session with
      outputRx := session.outputRx.drop channelBufferSize
      outputBuffer := outputBuffer
      state := .active (if hasPending then some buffer else none)
        (.tempResize maxSigwinchPhaseAttempts) },
    hasPending)

/-- `read_outputs`, for one of the sessions: what is sent, whether the session is found to have
ended, and the session.  `ended` tells whether its reader or its child has ended, `resizeOk` whether
a resize succeeds. -/
def readOutputs (c : Compression) (terminalId : BitVec 32) (ended resizeOk : Bool)
    (session : Session) : List DataResponse × Bool × Session :=
  let shouldSendClosed := !session.closedMessageSent && ended
  let receivedData := session.outputRx
  let session := { session with
    closedMessageSent := session.closedMessageSent || shouldSendClosed
    outputRx := []
    outputBuffer := receivedData.foldl (fun buffer data => buffer.append data)
      session.outputBuffer }
  match session.state with
  | .closed => ([], shouldSendClosed, session)
  | .active pendingBuffer sigwinch =>
      let replay := (pendingBuffer.toList.filter (· ≠ [])).map
        (createTerminalDataResponse c terminalId)
      let realTime := receivedData.map (createTerminalDataResponse c terminalId)
      (replay ++ realTime, shouldSendClosed,
        { session with state := .active none (sigwinch.poll resizeOk) })

/-- What happens to a session. -/
inductive Event where
  | arrive (data : Bytes)
  | readOutputs (ended resizeOk : Bool)
  | resetStatus
  | handleOpen
  deriving DecidableEq, Repr

/-- The session after an event. -/
def step (c : Compression) (terminalId : BitVec 32) (session : Session) : Event → Session
  | .arrive data => { session with outputRx := session.outputRx ++ [data] }
  | .readOutputs ended resizeOk => (session.readOutputs c terminalId ended resizeOk).2.2
  | .resetStatus => session.resetStatus
  | .handleOpen => session.handleOpen.1

/-- What an event takes from the output channel. -/
def drained (session : Session) : Event → Bytes
  | .readOutputs _ _ => session.outputRx.flatten
  | .handleOpen => (session.outputRx.take channelBufferSize).flatten
  | _ => []

/-- What is sent at an event, as the client reads it. -/
def sent (c : Compression) (terminalId : BitVec 32) (session : Session) : Event → Bytes
  | .readOutputs ended resizeOk =>
      ((session.readOutputs c terminalId ended resizeOk).1.map (·.text c)).flatten
  | _ => []

/-- All that the events of a history take from the output channel. -/
def allDrained (h : List (Session × Event)) : Bytes := (h.map fun x => x.1.drained x.2).flatten

/-- All that is sent in a history. -/
def allSent (c : Compression) (terminalId : BitVec 32) (h : List (Session × Event)) : Bytes :=
  (h.map fun x => x.1.sent c terminalId x.2).flatten

/-- A step of a session. -/
def Steps (c : Compression) (terminalId : BitVec 32) (session : Session) (e : Event)
    (session' : Session) : Prop :=
  session' = session.step c terminalId e

/-- A session as `handle_open` creates it. -/
def opened : Session := { state := .active none .idle }

variable {c : Compression} {terminalId : BitVec 32} {session : Session}
  {h : List (Session × Event)}

/-! ### The history is a suffix of what was drained -/

/-- Chunks are appended to what a buffer holds, of which a suffix is kept. -/
theorem contents_foldl_append (chunks : List Bytes) (buffer : OutputBuffer) :
  (chunks.foldl (fun buffer data => buffer.append data) buffer).contents
    <:+ buffer.contents ++ chunks.flatten
  := by
  induction chunks generalizing buffer with
  | nil =>
      rw [List.flatten_nil, List.append_nil]
      exact List.suffix_rfl
  | cons data chunks ih =>
      obtain ⟨before, hbefore⟩ := buffer.append_suffix data
      apply (ih (buffer.append data)).trans
      use before
      rw [List.flatten_cons, ← List.append_assoc, hbefore, List.append_assoc]

/-- What a buffer holds after an event is a suffix of what it held and what is drained. -/
theorem contents_step (e : Event) :
  (session.step c terminalId e).outputBuffer.contents
    <:+ session.outputBuffer.contents ++ session.drained e
  := by
  cases e with
  | readOutputs ended resizeOk =>
      have hbuffer : (session.readOutputs c terminalId ended resizeOk).2.2.outputBuffer
          = session.outputRx.foldl (fun buffer data => buffer.append data)
            session.outputBuffer := by
        rw [readOutputs]
        dsimp only
        cases session.state <;> rfl
      change (session.readOutputs c terminalId ended resizeOk).2.2.outputBuffer.contents <:+ _
      rw [hbuffer]
      apply contents_foldl_append
  | handleOpen => apply contents_foldl_append
  | arrive data => simp [step, drained]
  | resetStatus => simp [step, drained, resetStatus]

theorem allDrained_concat (h : List (Session × Event)) (x : Session × Event) :
  allDrained (h ++ [x]) = allDrained h ++ x.1.drained x.2
  := by
  simp [allDrained]

theorem allSent_concat (h : List (Session × Event)) (x : Session × Event) :
  allSent c terminalId (h ++ [x]) = allSent c terminalId h ++ x.1.sent c terminalId x.2
  := by
  simp [allSent]

/-- In every run the buffer holds a suffix of what was drained. -/
theorem contents_of_run (hrun : Run (Steps c terminalId) opened h session) :
  session.outputBuffer.contents <:+ allDrained h
  := by
  apply Run.history_invariant (fun h session => session.outputBuffer.contents <:+ allDrained h)
    List.suffix_rfl _ hrun
  rintro h s e s' - ih rfl
  obtain ⟨before, hbefore⟩ := ih
  apply (contents_step e).trans
  use before
  rw [allDrained_concat, ← hbefore, List.append_assoc]

/-- What a re-connection is to replay is the recent part of what the buffer holds then. -/
theorem state_handleOpen (session : Session) :
  ∃ pending, session.handleOpen.1.state = .active pending (.tempResize maxSigwinchPhaseAttempts)
    ∧ pending.getD []
      = session.handleOpen.1.outputBuffer.getRecent defaultReconnectBufferBytes
  := by
  have hpending (buffer : Bytes) : (if buffer ≠ [] then some buffer else none).getD [] = buffer := by
    split_ifs with hempty
    · rfl
    · exact (not_not.mp hempty).symm
  refine ⟨_, rfl, (hpending _).trans ?_⟩
  rw [handleOpen]
  dsimp only
  split_ifs with hbacklog
  · rfl
  · rw [not_not.mp hbacklog, List.foldl_nil]

/-! ### What a poll sends -/

theorem text_createTerminalDataResponse (data : Bytes) :
  (createTerminalDataResponse c terminalId data).text c = data
  := by
  rw [createTerminalDataResponse]
  split_ifs
  · apply c.decompress_compress
  · rfl

/-- A poll of an active session sends what is to be replayed, and what it drains. -/
theorem sent_of_active {pending : Option Bytes} {sigwinch : SigwinchPhase}
    (hstate : session.state = .active pending sigwinch) (ended resizeOk : Bool) :
  session.sent c terminalId (.readOutputs ended resizeOk)
    = pending.getD [] ++ session.outputRx.flatten
  := by
  have htext (chunks : List Bytes) :
      (chunks.map (createTerminalDataResponse c terminalId)).map (·.text c) = chunks := by
    rw [List.map_map]
    apply List.map_id''
    apply text_createTerminalDataResponse
  have hreplay : (pending.toList.filter (· ≠ [])).flatten = pending.getD [] := by
    cases pending with
    | none => rfl
    | some buffer => by_cases hempty : buffer = [] <;> simp [hempty]
  rw [sent, readOutputs]
  dsimp only
  rw [hstate]
  dsimp only
  rw [List.map_append, htext, htext, List.flatten_append, hreplay]

/-- A poll leaves an active session active, with nothing to be replayed. -/
theorem state_of_active {pending : Option Bytes} {sigwinch : SigwinchPhase}
    (hstate : session.state = .active pending sigwinch) (ended resizeOk : Bool) :
  (session.step c terminalId (.readOutputs ended resizeOk)).state
    = .active none (sigwinch.poll resizeOk)
  := by
  rw [step, readOutputs]
  dsimp only
  rw [hstate]

/-- A closed session sends nothing. -/
theorem sent_of_closed (hstate : session.state = .closed) (e : Event) :
  session.sent c terminalId e = []
  := by
  cases e with
  | readOutputs ended resizeOk =>
      rw [sent, readOutputs]
      dsimp only
      rw [hstate]
      rfl
  | _ => rfl

/-! ### From a re-connection on -/

/-- The events before the session is closed. -/
def untilReset (h : List (Session × Event)) : List (Session × Event) :=
  h.takeWhile (·.2 ≠ .resetStatus)

theorem untilReset_eq_self (hopen : ∀ x ∈ h, x.2 ≠ .resetStatus) :
  untilReset h = h
  := by
  apply List.takeWhile_eq_self_iff.mpr
  simpa using hopen

theorem untilReset_concat_reset (hopen : ∀ x ∈ h, x.2 ≠ .resetStatus) :
  untilReset (h ++ [(session, .resetStatus)]) = h
  := by
  rw [untilReset]
  rw [List.takeWhile_append_of_pos (by simpa using hopen)]
  simp

theorem untilReset_concat_of_closed (hclosed : ∃ x ∈ h, x.2 = .resetStatus) (x : Session × Event) :
  untilReset (h ++ [x]) = untilReset h
  := by
  unfold untilReset
  rw [List.takeWhile_append, if_neg]
  intro hlength
  obtain ⟨y, hy, hreset⟩ := hclosed
  have hall := List.takeWhile_eq_self_iff.mp ((List.takeWhile_prefix _).eq_of_length hlength)
  simpa [hreset] using hall y hy

/-- Where a session is after a re-connection: the replay waits for the first poll, or was sent and
is followed by what is drained, or the session was closed. -/
inductive Replayed (c : Compression) (terminalId : BitVec 32) (before : Bytes)
    (h : List (Session × Event)) (session : Session) : Prop where
  | waiting {pending : Option Bytes} {sigwinch : SigwinchPhase}
      (hstate : session.state = .active pending sigwinch) (hold : pending.getD [] <:+ before)
      (hsent : allSent c terminalId h = []) (hdrained : allDrained h = [])
      (hopen : ∀ x ∈ h, x.2 ≠ .resetStatus)
  | live {old : Bytes} {sigwinch : SigwinchPhase}
      (hstate : session.state = .active none sigwinch) (hold : old <:+ before)
      (hsent : allSent c terminalId h = old ++ allDrained h)
      (hopen : ∀ x ∈ h, x.2 ≠ .resetStatus)
  | closed {old : Bytes} (hstate : session.state = .closed) (hold : old <:+ before)
      (hsent : allSent c terminalId h = old ++ allDrained (untilReset h))
      (hclosed : ∃ x ∈ h, x.2 = .resetStatus)

/-- What a session has sent since a re-connection. -/
theorem Replayed.allSent_eq {before : Bytes} (hreplayed : Replayed c terminalId before h session) :
  ∃ old, old <:+ before ∧ allSent c terminalId h = old ++ allDrained (untilReset h)
  := by
  cases hreplayed with
  | waiting hstate hold hsent hdrained hopen =>
      use [], List.nil_suffix
      rw [untilReset_eq_self hopen, hsent, hdrained]
      rfl
  | @live old _ hstate hold hsent hopen =>
      use old, hold
      rw [untilReset_eq_self hopen, hsent]
  | @closed old hstate hold hsent hclosed => use old, hold

theorem forall_ne_concat {x : Session × Event} (hopen : ∀ x ∈ h, x.2 ≠ .resetStatus)
    (hx : x.2 ≠ .resetStatus) :
  ∀ y ∈ h ++ [x], y.2 ≠ .resetStatus
  := by
  rw [List.forall_mem_append, List.forall_mem_singleton]
  exact ⟨hopen, hx⟩

/-- An event other than a re-connection keeps a session where it is, or moves it on. -/
theorem Replayed.step {before : Bytes} {e : Event}
    (hreplayed : Replayed c terminalId before h session) (he : e ≠ .handleOpen) :
  Replayed c terminalId before (h ++ [(session, e)]) (session.step c terminalId e)
  := by
  cases hreplayed with
  | @waiting pending sigwinch hstate hold hsent hdrained hopen =>
      cases e with
      | arrive data =>
          have hstate' : (session.step c terminalId (.arrive data)).state
              = .active pending sigwinch := hstate
          apply Replayed.waiting hstate' hold
          · rw [allSent_concat, hsent]
            rfl
          · rw [allDrained_concat, hdrained]
            rfl
          · apply forall_ne_concat hopen
            nofun
      | readOutputs ended resizeOk =>
          apply Replayed.live (state_of_active hstate ended resizeOk) hold
          · rw [allSent_concat, allDrained_concat, hsent, hdrained, sent_of_active hstate]
            rfl
          · apply forall_ne_concat hopen
            nofun
      | resetStatus =>
          apply Replayed.closed rfl List.nil_suffix
          · rw [allSent_concat, untilReset_concat_reset hopen, hsent, hdrained]
            rfl
          · use (session, .resetStatus)
            simp
      | handleOpen => exact (he rfl).elim
  | @live old sigwinch hstate hold hsent hopen =>
      cases e with
      | arrive data =>
          have hstate' : (session.step c terminalId (.arrive data)).state
              = .active none sigwinch := hstate
          apply Replayed.live hstate' hold
          · rw [allSent_concat, allDrained_concat, hsent, List.append_assoc]
            rfl
          · apply forall_ne_concat hopen
            nofun
      | readOutputs ended resizeOk =>
          apply Replayed.live (state_of_active hstate ended resizeOk) hold
          · rw [allSent_concat, allDrained_concat, hsent, sent_of_active hstate,
              List.append_assoc]
            rfl
          · apply forall_ne_concat hopen
            nofun
      | resetStatus =>
          apply Replayed.closed rfl hold
          · rw [allSent_concat, untilReset_concat_reset hopen, hsent]
            apply List.append_nil
          · use (session, .resetStatus)
            simp
      | handleOpen => exact (he rfl).elim
  | @closed old hstate hold hsent hclosed =>
      have hstate' : (session.step c terminalId e).state = .closed := by
        cases e with
        | arrive data => exact hstate
        | readOutputs ended resizeOk =>
            rw [Session.step, readOutputs]
            dsimp only
            rw [hstate]
        | resetStatus => rfl
        | handleOpen => exact (he rfl).elim
      apply Replayed.closed hstate' hold
      · rw [allSent_concat, untilReset_concat_of_closed hclosed, sent_of_closed hstate, hsent]
        apply List.append_nil
      · obtain ⟨x, hx, hreset⟩ := hclosed
        exact ⟨x, List.mem_append_left _ hx, hreset⟩

/-- Since the latest re-connection a suffix of what was drained before and at it is sent, followed
by exactly what is drained until the session is closed. -/
theorem replay_of_run {h h' : List (Session × Event)} {session' : Session}
    (hrun : Run (Steps c terminalId) opened (h ++ (session, .handleOpen) :: h') session')
    (hlatest : ∀ x ∈ h', x.2 ≠ .handleOpen) :
  ∃ old, old <:+ allDrained (h ++ [(session, .handleOpen)])
    ∧ allSent c terminalId h' = old ++ allDrained (untilReset h')
  := by
  suffices hreplayed : Replayed c terminalId (allDrained (h ++ [(session, .handleOpen)])) h'
      session' from hreplayed.allSent_eq
  induction h' using List.reverseRecOn generalizing session' with
  | nil =>
      have hheld := contents_of_run hrun
      obtain ⟨-, rfl⟩ := Run.of_concat hrun
      obtain ⟨pending, hstate, hpending⟩ := state_handleOpen session
      apply Replayed.waiting hstate _ rfl rfl
      · nofun
      · rw [hpending]
        apply (OutputBuffer.getRecent_suffix _ _).trans hheld
  | append_singleton h' x ih =>
      obtain ⟨session₁, e⟩ := x
      have hsplit : h ++ (session, Event.handleOpen) :: (h' ++ [(session₁, e)])
          = (h ++ (session, Event.handleOpen) :: h') ++ [(session₁, e)] := by
        simp
      rw [hsplit] at hrun
      obtain ⟨hbefore, rfl⟩ := Run.of_concat hrun
      rw [List.forall_mem_append, List.forall_mem_singleton] at hlatest
      apply (ih hbefore hlatest.1).step hlatest.2

/-- Every list of events is a run. -/
theorem run_step (session : Session) (events : List Event) :
  Run (Steps c terminalId) session (Run.trace (Session.step c terminalId) session events)
    (events.foldl (Session.step c terminalId) session)
  := by
  apply Run.of_next
  intro session e
  rfl

/-- A compression that leaves the data as it is. -/
def plain : Compression := ⟨id, id, fun _ => rfl⟩

/-- A session that puts something out while its connection is down, and is opened again. -/
def sampleOutage : List Event :=
  [.arrive [0x68], .readOutputs false true, .resetStatus, .arrive [0x69], .readOutputs false true]

/-- The session after the outage. -/
def sampleClosed : Session := sampleOutage.foldl (Session.step plain 1) opened

/-- What happens once it is opened again. -/
def sampleHistory : List (Session × Event) :=
  Run.trace (Session.step plain 1) sampleClosed.handleOpen.1
    [.arrive [0x6A], .readOutputs false true, .readOutputs false false]

theorem replay_outage :
  ∃ old, old <:+ allDrained
      (Run.trace (Session.step plain 1) opened sampleOutage ++ [(sampleClosed, .handleOpen)])
    ∧ allSent plain 1 sampleHistory = old ++ allDrained (untilReset sampleHistory)
  := by
  have hrun : Run (Steps plain 1) opened
      (Run.trace (Session.step plain 1) opened sampleOutage
        ++ (sampleClosed, .handleOpen) :: sampleHistory) _ :=
    run_step opened (sampleOutage ++ [.handleOpen, .arrive [0x6A], .readOutputs false true,
      .readOutputs false false])
  apply replay_of_run hrun
  decide

/-- What is drained while the session is closed is not sent. -/
theorem not_replay_closed :
  ¬ ∀ (c : Compression) (terminalId : BitVec 32) (h h' : List (Session × Event))
      (session session' : Session),
    Run (Steps c terminalId) opened (h ++ (session, .handleOpen) :: h') session' →
    (∀ x ∈ h', x.2 ≠ .handleOpen) →
    ∃ old, old <:+ allDrained (h ++ [(session, .handleOpen)])
      ∧ allSent c terminalId h' = old ++ allDrained h'
  := by
  intro h
  obtain ⟨old, -, hsent⟩ := h plain 1 []
    (Run.trace (Session.step plain 1) opened.handleOpen.1
      [.resetStatus, .arrive [0x68], .readOutputs false true]) opened _
    (run_step opened [.handleOpen, .resetStatus, .arrive [0x68], .readOutputs false true])
    (by decide)
  have hempty : [] = old ++ [0x68] := hsent
  simp at hempty

end Session

end VynxDesk.TerminalService
