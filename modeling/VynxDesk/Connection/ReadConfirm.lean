import VynxDesk.Lib.Run

/-!
# Confirmations of read jobs

A peer that receives files confirms each of them, by telling to skip it or from which block to send
it.  A job that the connection reads itself gets the request as it is (`on_message` of
`src/server/connection.rs`).  For a job that the connection manager reads, the connection sends a
message in place of the request, and `handle_fs` of `src/ui_cm_interface.rs` makes a request of it
again: one for the file that the job is at by then.  So a request that comes late, or twice, decides
about another file (`not_sameDecisions`).  The decisions are the same exactly when every request
that reaches a job is for its current file and carries a decision (`sameDecisions_iff`).
-/

namespace VynxDesk.ReadConfirm

/-- `file_transfer_send_confirm_request::Union`. -/
inductive Union where
  | skip (skip : Bool)
  | offsetBlk (offsetBlk : ℕ)
  deriving DecidableEq, Repr

structure FileTransferSendConfirmRequest where
  id : Int
  fileNum : Int
  union : Option Union
  deriving DecidableEq, Repr

/-- What a request decides about a file: to skip it, or to send it from a block on. -/
inductive Decision where
  | skip
  | offset (n : ℕ)
  deriving DecidableEq, Repr

namespace FileTransferSendConfirmRequest

/-- `r.skip()`. -/
def skip (r : FileTransferSendConfirmRequest) : Bool :=
  match r.union with
  | some (.skip b) => b
  | _ => false

/-- `r.offset_blk()`. -/
def offsetBlk (r : FileTransferSendConfirmRequest) : ℕ :=
  match r.union with
  | some (.offsetBlk n) => n
  | _ => 0

/-- A file that is not to be skipped is sent from the start. -/
def decision (r : FileTransferSendConfirmRequest) : Option Decision :=
  r.union.map fun
    | .skip true => .skip
    | .skip false => .offset 0
    | .offsetBlk n => .offset n

end FileTransferSendConfirmRequest

/-- `ipc::FS::SendConfirmForRead`. -/
structure SendConfirmForRead where
  id : Int
  fileNum : Int
  skip : Bool
  offsetBlk : ℕ
  connId : Int
  deriving DecidableEq, Repr

/-- What the connection sends in place of the request. -/
def FileTransferSendConfirmRequest.sendConfirmForRead (r : FileTransferSendConfirmRequest)
    (connId : Int) : SendConfirmForRead :=
  ⟨r.id, r.fileNum, r.skip, r.offsetBlk, connId⟩

/-- What the connection manager makes of it, for a job that is at `fileNum`. -/
def SendConfirmForRead.request (m : SendConfirmForRead) (fileNum : Int) :
    FileTransferSendConfirmRequest :=
  ⟨m.id, fileNum, some (if m.skip then .skip true else .offsetBlk m.offsetBlk)⟩

/-- `FileTransferBlock`. -/
structure Block where
  id : Int
  fileNum : Int
  data : List UInt8
  compressed : Bool
  deriving DecidableEq, Repr

/-- What the connection manager sends to the connection. -/
inductive Data where
  | fileReadError (id fileNum : Int) (err : String)
  | fileBlockFromCM (block : Block)
  | fileReadDone (id fileNum : Int)
  | fileDigestFromCM (id fileNum : Int) (lastModified fileSize : ℕ) (isResume : Bool)
  deriving DecidableEq, Repr

/-- The operations on the jobs `J` of another crate, which read an environment `E` of files.
`getJob` gives the place of the job with a number, and `confirm` the decision that it applies to the
current file. -/
structure TransferJob (J E : Type*) where
  id : J → Int
  fileNum : J → Int
  isLastJob : J → Bool
  isResume : J → Bool
  initDataStreamForCm : E → J → Except String (J × Option (ℕ × ℕ))
  read : E → J → Except String (J × Option Block)
  jobCompleted : J → Bool
  jobError : J → Option String
  confirm : J → FileTransferSendConfirmRequest → J × Option Decision
  getJob : Int → List J → Option ℕ
  removeJob : List J → Int → List J

/-- The crate, which takes the jobs of a connection further. -/
structure Fs (J E : Type*) extends TransferJob J E where
  handleReadJobs : E → List J → List J

/-- What waits for a path, the jobs, and the decisions that were applied: of which job, about which
of its files. -/
structure Path (Q J : Type*) where
  queue : List Q := []
  jobs : List J
  applied : List (Int × Int × Decision) := []

/-- A peer sends a request, one reaches the jobs, or the jobs are taken further. -/
inductive Event (E : Type*) where
  | request (r : FileTransferSendConfirmRequest)
  | deliver
  | tick (e : E)
  deriving DecidableEq, Repr

variable {J E : Type*}

namespace TransferJob

variable (api : TransferJob J E)

/-- The job that `get_job` finds. -/
def jobOf (id : Int) (jobs : List J) : Option J := (api.getJob id jobs).bind fun i => jobs[i]?

/-- The job with the number is asked to confirm a request. -/
def confirmJob (id : Int) (request : J → FileTransferSendConfirmRequest) (jobs : List J) :
    List J × List (Int × Int × Decision) :=
  match api.getJob id jobs with
  | none => (jobs, [])
  | some i =>
      match jobs[i]? with
      | none => (jobs, [])
      | some job =>
          let confirmed := api.confirm job (request job)
          (jobs.set i confirmed.1,
            (confirmed.2.map fun d => (api.id job, api.fileNum job, d)).toList)

/-- `init_read_job_for_cm`. -/
def initReadJobForCm (e : E) (job : J) : Except String (J × List Data) :=
  match api.initDataStreamForCm e job with
  | .error err => .error err
  | .ok (job, some (lastModified, fileSize)) => .ok (job,
      [.fileDigestFromCM (api.id job) (api.fileNum job) lastModified fileSize (api.isResume job)])
  | .ok (job, none) => .ok (job, [])

/-- The loop of `handle_read_jobs_tick`: the jobs, what is sent, and the numbers of those that are
finished. -/
def readJobs (e : E) : List J → List J × List Data × List Int
  | [] => ([], [], [])
  | job :: jobs =>
      if api.isLastJob job then
        let rest := readJobs e jobs
        (job :: rest.1, rest.2)
      else
        match api.initReadJobForCm e job with
        | .error err =>
            let rest := readJobs e jobs
            (job :: rest.1, .fileReadError (api.id job) (api.fileNum job) err :: rest.2.1,
              api.id job :: rest.2.2)
        | .ok (job, digest) =>
            match api.read e job with
            | .error err =>
                (job :: jobs, digest ++ [.fileReadError (api.id job) (api.fileNum job) err],
                  [api.id job])
            | .ok (job, some block) => (job :: jobs, digest ++ [.fileBlockFromCM block], [])
            | .ok (job, none) =>
                if api.jobCompleted job then
                  let last := match api.jobError job with
                    | some err => .fileReadError (api.id job) (api.fileNum job) err
                    | none => .fileReadDone (api.id job) (api.fileNum job)
                  (job :: jobs, digest ++ [last], [api.id job])
                else (job :: jobs, digest, [])

/-- `handle_read_jobs_tick`. -/
def handleReadJobsTick (e : E) (jobs : List J) : List J × List Data :=
  let r := api.readJobs e jobs
  (r.2.2.foldl api.removeJob r.1, r.2.1)

end TransferJob

/-- The path of a job that the connection reads. -/
def Fs.inConnection (api : Fs J E) (p : Path FileTransferSendConfirmRequest J) :
    Event E → Path FileTransferSendConfirmRequest J
  | .request r => { p with queue := p.queue ++ [r] }
  | .deliver =>
      match p.queue with
      | [] => p
      | r :: queue =>
          let confirmed := api.confirmJob r.id (fun _ => r) p.jobs
          ⟨queue, confirmed.1, p.applied ++ confirmed.2⟩
  | .tick e => { p with jobs := api.handleReadJobs e p.jobs }

/-- The path of a job that the connection manager reads. -/
def TransferJob.inCm (api : TransferJob J E) (connId : Int) (p : Path SendConfirmForRead J) :
    Event E → Path SendConfirmForRead J
  | .request r => { p with queue := p.queue ++ [r.sendConfirmForRead connId] }
  | .deliver =>
      match p.queue with
      | [] => p
      | m :: queue =>
          let confirmed := api.confirmJob m.id (fun job => m.request (api.fileNum job)) p.jobs
          ⟨queue, confirmed.1, p.applied ++ confirmed.2⟩
  | .tick e => { p with jobs := (api.handleReadJobsTick e p.jobs).1 }

/-- What is known of the other crate: a request for another file is ignored, one for the current
file applies its decision, there is nothing else to a request, and the jobs of a connection are read
like those of the connection manager. -/
structure Fs.Lawful (api : Fs J E) : Prop where
  ignores : ∀ job r, r.fileNum ≠ api.fileNum job → api.confirm job r = (job, none)
  applies : ∀ job r, r.fileNum = api.fileNum job → (api.confirm job r).2 = r.decision
  congr : ∀ job r r', r.id = r'.id → r.fileNum = r'.fileNum → r.decision = r'.decision →
    api.confirm job r = api.confirm job r'
  mirrors : ∀ e jobs, api.handleReadJobs e jobs = (api.handleReadJobsTick e jobs).1

/-- The decisions that were applied to a file of a job, the oldest first. -/
def Path.decisions {Q : Type*} (p : Path Q J) (id fileNum : Int) : List Decision :=
  p.applied.filterMap fun x => if x.1 = id ∧ x.2.1 = fileNum then some x.2.2 else none

/-- The same jobs on both paths. -/
structure Both (J : Type*) where
  connection : Path FileTransferSendConfirmRequest J
  cm : Path SendConfirmForRead J

namespace Both

/-- Nothing has come yet. -/
def start (jobs : List J) : Both J := ⟨{ jobs := jobs }, { jobs := jobs }⟩

/-- An event on both paths. -/
def next (api : Fs J E) (connId : Int) (b : Both J) (event : Event E) : Both J :=
  ⟨api.inConnection b.connection event, api.toTransferJob.inCm connId b.cm event⟩

def Step (api : Fs J E) (connId : Int) (b : Both J) (event : Event E) (b' : Both J) : Prop :=
  b' = b.next api connId event

/-- The same decisions were applied to every file. -/
def Same (b : Both J) : Prop :=
  ∀ id fileNum, b.connection.decisions id fileNum = b.cm.decisions id fileNum

/-- A request that reaches a job is for its current file, and carries a decision. -/
def Fit (api : Fs J E) (b : Both J) : Event E → Prop
  | .deliver => ∀ r ∈ b.connection.queue.head?, ∀ job ∈ api.jobOf r.id b.connection.jobs,
      r.fileNum = api.fileNum job ∧ r.decision.isSome
  | _ => True

end Both

section

variable {api : Fs J E} {connId : Int} {b b' : Both J} {event : Event E} {jobs : List J}
  {r : FileTransferSendConfirmRequest}

/-! ### Requests and messages -/

theorem decision_request (m : SendConfirmForRead) (fileNum : Int) :
  (m.request fileNum).decision = some (if m.skip then .skip else .offset m.offsetBlk)
  := by
  rw [SendConfirmForRead.request]
  cases m.skip <;> rfl

/-- A decision is what it was on the other side. -/
theorem decision_sendConfirmForRead (h : r.decision.isSome) (fileNum : Int) :
  ((r.sendConfirmForRead connId).request fileNum).decision = r.decision
  := by
  obtain ⟨id, fileNum', union⟩ := r
  cases union with
  | none => cases h
  | some union =>
      cases union with
      | skip skip => cases skip <;> rfl
      | offsetBlk n => rfl

/-! ### Jobs that confirm -/

theorem jobOf_eq_some {id : Int} {job : J} :
  api.jobOf id jobs = some job ↔ ∃ i, api.getJob id jobs = some i ∧ jobs[i]? = some job
  := Option.bind_eq_some_iff

/-- What is applied when there is such a job. -/
theorem applied_confirmJob {id : Int} {f : J → FileTransferSendConfirmRequest} {job : J}
    (h : api.jobOf id jobs = some job) :
  (api.confirmJob id f jobs).2
    = ((api.confirm job (f job)).2.map fun d => (api.id job, api.fileNum job, d)).toList
  := by
  obtain ⟨i, hi, hjob⟩ := jobOf_eq_some.mp h
  rw [TransferJob.confirmJob, hi]
  dsimp only
  rw [hjob]

/-- Requests that the job takes in one way are confirmed in one way. -/
theorem confirmJob_congr {id : Int} {f g : J → FileTransferSendConfirmRequest}
    (h : ∀ job, api.jobOf id jobs = some job → api.confirm job (f job) = api.confirm job (g job)) :
  api.confirmJob id f jobs = api.confirmJob id g jobs
  := by
  rw [TransferJob.confirmJob, TransferJob.confirmJob]
  cases hi : api.getJob id jobs with
  | none => rfl
  | some i =>
      dsimp only
      cases hjob : jobs[i]? with
      | none => rfl
      | some job =>
          dsimp only
          rw [h job (jobOf_eq_some.mpr ⟨i, hi, hjob⟩)]

/-! ### Both paths -/

/-- What holds of both paths as long as every request fits. -/
structure Inv (connId : Int) (b : Both J) : Prop where
  queue : b.cm.queue = b.connection.queue.map fun r => r.sendConfirmForRead connId
  jobs : b.cm.jobs = b.connection.jobs
  applied : b.cm.applied = b.connection.applied

theorem Inv.start : Inv connId (Both.start jobs) := ⟨rfl, rfl, rfl⟩

theorem Inv.same (hinv : Inv connId b) : b.Same
  := by
  intro id fileNum
  rw [Path.decisions, Path.decisions, hinv.applied]

theorem inConnection_deliver {p : Path FileTransferSendConfirmRequest J}
    {queue : List FileTransferSendConfirmRequest} (hqueue : p.queue = r :: queue) :
  api.inConnection p .deliver = ⟨queue, (api.confirmJob r.id (fun _ => r) p.jobs).1,
    p.applied ++ (api.confirmJob r.id (fun _ => r) p.jobs).2⟩
  := by
  rw [Fs.inConnection, hqueue]

theorem inCm_deliver {p : Path SendConfirmForRead J} {m : SendConfirmForRead}
    {queue : List SendConfirmForRead} (hqueue : p.queue = m :: queue) :
  api.toTransferJob.inCm connId p .deliver
    = ⟨queue, (api.confirmJob m.id (fun job => m.request (api.fileNum job)) p.jobs).1,
      p.applied ++ (api.confirmJob m.id (fun job => m.request (api.fileNum job)) p.jobs).2⟩
  := by
  rw [TransferJob.inCm, hqueue]

theorem Inv.queue_cons (hinv : Inv connId b) {queue : List FileTransferSendConfirmRequest}
    (hqueue : b.connection.queue = r :: queue) :
  b.cm.queue = r.sendConfirmForRead connId :: queue.map fun r => r.sendConfirmForRead connId
  := by
  rw [hinv.queue, hqueue, List.map_cons]

/-- A request that fits does the same on both paths. -/
theorem Inv.deliver (hinv : Inv connId b) (hapi : api.Lawful)
    {queue : List FileTransferSendConfirmRequest} (hqueue : b.connection.queue = r :: queue)
    (hfit : ∀ job, api.jobOf r.id b.connection.jobs = some job →
      r.fileNum = api.fileNum job ∧ r.decision.isSome) :
  Inv connId (b.next api connId .deliver)
  := by
  have hconfirmed : api.confirmJob (r.sendConfirmForRead connId).id
      (fun job => (r.sendConfirmForRead connId).request (api.fileNum job)) b.cm.jobs
      = api.confirmJob r.id (fun _ => r) b.connection.jobs := by
    rw [hinv.jobs]
    apply confirmJob_congr
    intro job hjob
    obtain ⟨hcurrent, hdecision⟩ := hfit job hjob
    exact hapi.congr _ _ _ rfl hcurrent.symm (decision_sendConfirmForRead hdecision _)
  rw [Both.next, inConnection_deliver hqueue, inCm_deliver (hinv.queue_cons hqueue), hconfirmed,
    hinv.applied]
  exact ⟨rfl, rfl, rfl⟩

theorem Inv.step (hinv : Inv connId b) (hapi : api.Lawful) (hfit : b.Fit api event) :
  Inv connId (b.next api connId event)
  := by
  cases event with
  | request r =>
      refine ⟨?_, hinv.jobs, hinv.applied⟩
      change b.cm.queue ++ [_] = (b.connection.queue ++ [r]).map _
      rw [hinv.queue, List.map_append]
      rfl
  | deliver =>
      cases hqueue : b.connection.queue with
      | nil =>
          have hcm : b.cm.queue = [] := by rw [hinv.queue, hqueue, List.map_nil]
          rw [Both.next, Fs.inConnection, TransferJob.inCm, hqueue, hcm]
          exact hinv
      | cons r queue =>
          apply hinv.deliver hapi hqueue
          exact hfit r (by rw [hqueue]; rfl)
  | tick e =>
      refine ⟨hinv.queue, ?_, hinv.applied⟩
      change (api.handleReadJobsTick e b.cm.jobs).1 = api.handleReadJobs e b.connection.jobs
      rw [hapi.mirrors, hinv.jobs]

theorem decisions_append {Q : Type*} (queue : List Q) (jobs : List J)
    (before after : List (Int × Int × Decision)) (id fileNum : Int) :
  Path.decisions ⟨queue, jobs, before ++ after⟩ id fileNum
    = Path.decisions ⟨queue, jobs, before⟩ id fileNum
      ++ Path.decisions ⟨queue, jobs, after⟩ id fileNum
  := List.filterMap_append

/-- A request that reaches a job fits when the decisions are the same behind it. -/
theorem Inv.fit (hinv : Inv connId b) (hapi : api.Lawful)
    (hsame : (b.next api connId event).Same) :
  b.Fit api event
  := by
  cases event with
  | request r => trivial
  | tick e => trivial
  | deliver =>
      intro r hr job hjob
      obtain ⟨queue, hqueue⟩ : ∃ queue, b.connection.queue = r :: queue := by
        cases hcons : b.connection.queue with
        | nil =>
            rw [hcons] at hr
            cases hr
        | cons first queue =>
            rw [hcons] at hr
            cases hr
            exact ⟨queue, rfl⟩
      -- the connection manager applies a decision to the current file
      have hcm : (api.confirm job ((r.sendConfirmForRead connId).request (api.fileNum job))).2
          = some (if r.skip then .skip else .offset r.offsetBlk) := by
        rw [hapi.applies _ _ rfl, decision_request]
        rfl
      have hjobCm : api.jobOf (r.sendConfirmForRead connId).id b.cm.jobs = some job := by
        rw [hinv.jobs]
        exact hjob
      have hdecisions := hsame (api.id job) (api.fileNum job)
      rw [Both.next, inConnection_deliver hqueue,
        inCm_deliver (hinv.queue_cons hqueue)] at hdecisions
      dsimp only at hdecisions
      rw [decisions_append, decisions_append, hinv.applied] at hdecisions
      have hnew := List.append_cancel_left hdecisions
      rw [applied_confirmJob hjob, applied_confirmJob hjobCm, hcm] at hnew
      -- and so does the connection
      cases hconnection : (api.confirm job r).2 with
      | none =>
          rw [hconnection] at hnew
          simp [Path.decisions] at hnew
      | some d =>
          have hcurrent : r.fileNum = api.fileNum job := by
            by_contra hother
            rw [hapi.ignores _ _ hother] at hconnection
            cases hconnection
          refine ⟨hcurrent, ?_⟩
          rw [← hapi.applies _ _ hcurrent, hconnection]
          rfl

/-- In every run the same decisions are applied to every file on both paths, in every state, exactly
when every request that reaches a job is for its current file and carries a decision. -/
theorem sameDecisions_iff (hapi : api.Lawful) {h : List (Both J × Event E)}
    (hrun : Run (Both.Step api connId) (Both.start jobs) h b) :
  ((∀ x ∈ h, x.1.Same) ∧ b.Same) ↔ ∀ x ∈ h, x.1.Fit api x.2
  := by
  apply hrun.forall_iff (Both.Fit api) (Inv connId) Both.Same Inv.start (fun _ => Inv.same)
  · rintro b event _ hinv hfit rfl
    exact hinv.step hapi hfit
  · rintro b event _ hinv rfl hsame
    exact hinv.fit hapi hsame

end

/-! ### A small job -/

/-- A job with files of one block each, and what was decided about the one that it is at. -/
structure Sample where
  id : Int
  fileNum : Int
  files : Int
  decided : Option Decision := none
  deriving DecidableEq, Repr

namespace Sample

def nextFile (job : Sample) : Sample := { job with fileNum := job.fileNum + 1, decided := none }

/-- The job waits until a file is confirmed; then it sends the file or skips it. -/
def read (job : Sample) : Sample × Option Block :=
  match job.decided with
  | none => (job, none)
  | some .skip => (job.nextFile, none)
  | some (.offset _) => (job.nextFile, some ⟨job.id, job.fileNum, [0], false⟩)

def confirm (job : Sample) (r : FileTransferSendConfirmRequest) : Sample × Option Decision :=
  if r.fileNum = job.fileNum ∧ r.decision.isSome then
    ({ job with decided := r.decision }, r.decision)
  else (job, none)

/-- The operations on the job. -/
def cm : TransferJob Sample Unit where
  id := Sample.id
  fileNum := Sample.fileNum
  isLastJob _ := false
  isResume _ := false
  initDataStreamForCm _ job := .ok (job, if job.decided = none then some (0, 1) else none)
  read _ job := .ok job.read
  jobCompleted job := job.files ≤ job.fileNum
  jobError _ := none
  confirm := confirm
  getJob id jobs := jobs.findIdx? fun job => job.id = id
  removeJob jobs id := jobs.eraseP fun job => job.id = id

/-- The job, which a connection reads in the same way. -/
def api : Fs Sample Unit :=
  { cm with handleReadJobs := fun e jobs => (cm.handleReadJobsTick e jobs).1 }

theorem lawful : api.Lawful
  := by
  constructor
  · intro job r hother
    change confirm job r = _
    rw [confirm, if_neg fun h => hother h.1]
  · intro job r hcurrent
    change (confirm job r).2 = _
    rw [confirm]
    split
    · rfl
    · rename_i hnone
      have hdecision : r.decision = none := by
        rw [← Option.not_isSome_iff_eq_none]
        exact fun hsome => hnone ⟨hcurrent, hsome⟩
      exact hdecision.symm
  · intro job r r' _ hfile hdecision
    change confirm job r = confirm job r'
    rw [confirm, confirm, hfile, hdecision]
  · intro e jobs
    rfl

end Sample

instance (b : Both J) (event : Event E) (api : Fs J E) : Decidable (b.Fit api event) :=
  match event with
  | .deliver => inferInstanceAs (Decidable
      (∀ r ∈ b.connection.queue.head?, ∀ job ∈ api.jobOf r.id b.connection.jobs, _ ∧ _))
  | .request _ | .tick _ => inferInstanceAs (Decidable True)

/-- A job with two files. -/
def twoFiles : Both Sample := Both.start [{ id := 7, fileNum := 0, files := 2 }]

/-- The run of a list of events. -/
theorem run_twoFiles (events : List (Event Unit)) :
  Run (Both.Step Sample.api 0) twoFiles (Run.trace (Both.next Sample.api 0) twoFiles events)
    (events.foldl (Both.next Sample.api 0) twoFiles)
  := by
  have hnext (b : Both Sample) (event : Event Unit) :
      Both.Step Sample.api 0 b event (b.next Sample.api 0 event) := rfl
  exact Run.of_next hnext events twoFiles

/-- Both files are confirmed in time: one is skipped, and the other one is sent. -/
theorem sameDecisions_sample :
  ∃ h b, Run (Both.Step Sample.api 0) twoFiles h b
    ∧ b.cm.decisions 7 0 = [.skip] ∧ b.cm.decisions 7 1 = [.offset 0]
    ∧ (∀ x ∈ h, x.1.Same) ∧ b.Same
  := by
  have hrun := run_twoFiles [.tick (), .request ⟨7, 0, some (.skip true)⟩, .deliver, .tick (),
    .request ⟨7, 1, some (.offsetBlk 0)⟩, .tick (), .deliver, .tick (), .tick ()]
  have hall := (sameDecisions_iff Sample.lawful hrun).mpr (by decide)
  exact ⟨_, _, hrun, by decide, by decide, hall⟩

/-- The first file is confirmed twice.  The second request comes when the job is at the next file,
which is skipped. -/
theorem not_sameDecisions :
  ¬ ∀ (J E : Type) (api : Fs J E) (connId : Int) (jobs : List J) (h : List (Both J × Event E))
    (b : Both J), api.Lawful → Run (Both.Step api connId) (Both.start jobs) h b →
    (∀ x ∈ h, x.1.Same) ∧ b.Same
  := by
  intro hall
  have hrun := run_twoFiles [.tick (), .request ⟨7, 0, some (.skip true)⟩,
    .request ⟨7, 0, some (.skip true)⟩, .deliver, .tick (), .deliver]
  have hsame := (hall Sample Unit Sample.api 0 _ _ _ Sample.lawful hrun).2 7 1
  exact absurd hsame (by decide)

end VynxDesk.ReadConfirm
