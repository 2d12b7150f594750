import VynxDesk.Lib.Patch
import VynxDesk.Lib.Run

/-!
# Downloads

`download_file` of `src/hbbs_http/downloader.rs` enters a download into a map under its URL and
starts a thread, which finds its entry by the URL at every step.  When a caller removes the entry
and downloads the same URL again, the thread finds the entry of the new download instead, and
removes it (`not_separate`).  In runs where a download is entered only when no thread of another one
with its URL is running, and none has its path, no thread touches the entry of another, and every
entry has what was downloaded for it (`separate_of_run`).

A step is one access of a call or of a thread to the map, to a file or to the server, but that a
chunk is one step: it is received, written to the file and counted in the map.  The task that is to
delete an entry later ends with the runtime of its thread, before it has slept.
-/

namespace VynxDesk.Downloads

open Patch

abbrev Bytes : Type := List UInt8

abbrev Url : Type := String

/-- A path stands for the place it leads to. -/
abbrev Path : Type := String

/-- `Downloader`.  The sender `tx_cancel` is that of a channel, which has the number of the call of
`download_file` that made it. -/
structure Downloader where
  data : Bytes := []
  path : Option Path
  totalSize : Option ℕ := none
  downloadedSize : ℕ := 0
  error : Option String := none
  finished : Bool := false
  txCancel : ℕ
  deriving DecidableEq, Repr

/-- `DownloadData`. -/
structure DownloadData where
  data : Bytes
  path : Option Path
  totalSize : Option ℕ
  downloadedSize : ℕ
  error : Option String
  deriving DecidableEq, Repr

/-- A file.  Its number tells it from one that was at the same path before. -/
structure File where
  id : ℕ
  bytes : Bytes
  deriving DecidableEq, Repr

/-- Where a call of `download_file` is, or the thread it has spawned.  The thread has `dest` open,
and has written up to `position`. -/
inductive Pc where
  | first
  | removeStale (stale : Path)
  | check
  | second
  | removeStaleAfter (stale : Path)
  | spawn
  | client
  | head
  | get
  | create
  | chunk (dest : Option (Path × ℕ)) (position : ℕ)
  | flush (isAllDownloaded : Bool)
  | finish (isAllDownloaded : Bool)
  | report (isAllDownloaded : Bool)
  | clean
  | fail (error : String)
  | ended
  deriving DecidableEq, Repr

/-- A call of `download_file` and its thread; `cancelled` when its channel has a message. -/
structure Job where
  url : Url
  path : Option Path
  pc : Pc := .first
  cancelled : Bool := false
  deriving DecidableEq, Repr

/-- What a step of a job meets: nothing in its way, a response, a chunk of at most `n + 1` bytes, an
error when at most `n + 1` bytes of a chunk are written, another error, or what `rx_cancel`
receives. -/
inductive Event where
  | go
  | contentLength (length : Option ℕ)
  | status (status : String)
  | chunk (n : ℕ)
  | partly (n : ℕ) (error : String)
  | error (error : String)
  | cancelled
  deriving DecidableEq, Repr

/-- A call begins, or goes on, or is one that takes a single step. -/
inductive Label where
  | downloadFile (url : Url) (path : Option Path)
  | job (n : ℕ) (event : Event)
  | cancel (id : Url)
  | remove (id : Url)
  | getDownloadData (id : Url)
  deriving DecidableEq, Repr

/-- `DOWNLOADERS`, the files, and the calls with their threads.  Files and calls are numbered as
they come. -/
structure State where
  downloaders : Url → Option Downloader := fun _ => none
  files : Path → Option File := fun _ => none
  nextFile : ℕ := 0
  jobs : ℕ → Option Job := fun _ => none
  nextJob : ℕ := 0

namespace State

/-- The job is there, or has changed. -/
def setJob (s : State) (n : ℕ) (job : Job) : State :=
  { s with jobs := Function.update s.jobs n (some job) }

/-- The job is at `pc` now. -/
def goTo (s : State) (n : ℕ) (job : Job) (pc : Pc) : State := s.setJob n { job with pc := pc }

/-- The entry is changed, if there is one. -/
def modify (s : State) (id : Url) (f : Downloader → Downloader) : State :=
  { s with downloaders := Function.update s.downloaders id ((s.downloaders id).map f) }

/-- The entry is removed, if there is one. -/
def erase (s : State) (id : Url) : State :=
  { s with downloaders := Function.update s.downloaders id none }

/-- The entry of a new download replaces one that may be there. -/
def insert (s : State) (n : ℕ) (job : Job) : State :=
  let downloader : Downloader := { path := job.path, txCancel := n }
  { s with downloaders := Function.update s.downloaders job.url (some downloader) }

/-- `std::fs::remove_file`. -/
def removeFile (s : State) (path : Path) : State :=
  { s with files := Function.update s.files path none }

/-- `File::create`, which truncates a file that exists. -/
def createFile (s : State) (path : Path) : State × ℕ :=
  match s.files path with
  | some f => ({ s with files := Function.update s.files path (some { f with bytes := [] }) }, f.id)
  | none => ({ s with
      files := Function.update s.files path (some ⟨s.nextFile, []⟩)
      nextFile := s.nextFile + 1 }, s.nextFile)

/-- Bytes are written to an open file.  No one sees those of a file that was removed. -/
def writeFile (s : State) (dest : Path × ℕ) (position : ℕ) (bytes : Bytes) : State :=
  let write (f : File) : File :=
    if f.id = dest.2 then { f with bytes := overwrite 0 position bytes f.bytes } else f
  { s with files := Function.update s.files dest.1 ((s.files dest.1).map write) }

/-- An entry without an error is there. -/
def taken (s : State) (id : Url) : Bool := (s.downloaders id).any fun e => e.error.isNone

/-- The path of the entry. -/
def stalePath (s : State) (id : Url) : Option Path := (s.downloaders id).bind Downloader.path

/-- A step of `download_file`. -/
def callStep (s : State) (n : ℕ) (job : Job) : Event → Option State
  | .go =>
      match job.pc with
      | .first => some (
          if s.taken job.url then s.goTo n job .ended
          else (s.erase job.url).goTo n job (
            match s.stalePath job.url with
            | some stale => .removeStale stale
            | none => .check))
      | .removeStale stale => some ((s.removeFile stale).goTo n job .check)
      | .check => some (
          if job.path.any fun path => (s.files path).isSome then s.goTo n job .ended
          else s.goTo n job .second)
      | .second => some (
          if s.taken job.url then s.goTo n job .ended
          else (s.insert n job).goTo n job (
            match s.stalePath job.url with
            | some stale => .removeStaleAfter stale
            | none => .spawn))
      | .removeStaleAfter stale => some ((s.removeFile stale).goTo n job .spawn)
      | .spawn => some (s.goTo n job .client)
      | _ => none
  | .error _ =>
      match job.pc with
      | .removeStale _ => some (s.goTo n job .check)
      | .check => if job.path.isSome then some (s.goTo n job .ended) else none
      | .removeStaleAfter _ => some (s.goTo n job .spawn)
      | _ => none
  | _ => none

/-- `rx_cancel` receives a message, or that the sender is gone. -/
def cancelSeen (s : State) (n : ℕ) (job : Job) : Bool :=
  job.cancelled || (s.downloaders job.url).map Downloader.txCancel ≠ some n

/-- A chunk is added to what was downloaded, and counted. -/
def addChunk (s : State) (job : Job) (dest : Option (Path × ℕ)) (position : ℕ) (chunk : Bytes) :
    State :=
  match dest with
  | some dest => (s.writeFile dest position chunk).modify job.url fun e =>
      { e with downloadedSize := e.downloadedSize + chunk.length }
  | none => s.modify job.url fun e =>
      { e with data := e.data ++ chunk, downloadedSize := e.downloadedSize + chunk.length }

/-- A step of the thread: of `do_download`, where `body` is what the server sends for the download,
or of what follows it. -/
def threadStep (body : Bytes) (s : State) (n : ℕ) (job : Job) (event : Event) : Option State :=
  match job.pc, event with
  | .client, .go => some (s.goTo n job .head)
  | .head, .contentLength (some totalSize) => some (
      (s.modify job.url fun e => { e with totalSize := some totalSize }).goTo n job .get)
  | .head, .contentLength none => some (s.goTo n job (.fail "Failed to get content length"))
  | .head, .status status =>
      some (s.goTo n job (.fail s!"Failed to get content length: {status}"))
  | .head, .cancelled | .get, .cancelled =>
      if s.cancelSeen n job then some (s.goTo n job (.report false)) else none
  | .get, .go => some (s.goTo n job .create)
  | .create, .go => some (
      match job.path with
      | some path =>
          let file := s.createFile path
          file.1.goTo n job (.chunk (some (path, file.2)) 0)
      | none => s.goTo n job (.chunk none 0))
  | .chunk dest position, .chunk m =>
      let chunk := (body.drop position).take (m + 1)
      if chunk = [] then none
      else some ((s.addChunk job dest position chunk).goTo n job
        (.chunk dest (position + chunk.length)))
  | .chunk (some dest) position, .partly m error =>
      let part := (body.drop position).take (m + 1)
      if part = [] then none
      else some ((s.writeFile dest position part).goTo n job (.fail error))
  | .chunk _ position, .go =>
      if body.length ≤ position then some (s.goTo n job (.flush true)) else none
  | .chunk _ _, .cancelled =>
      if s.cancelSeen n job then some (s.goTo n job (.flush false)) else none
  | .flush isAllDownloaded, .go => some (s.goTo n job (.finish isAllDownloaded))
  | .client, .error error | .head, .error error | .get, .error error | .chunk _ _, .error error =>
      some (s.goTo n job (.fail error))
  | .create, .error error | .flush _, .error error =>
      if job.path.isSome then some (s.goTo n job (.fail error)) else none
  | .finish isAllDownloaded, .go => some (
      (s.modify job.url fun e => { e with finished := true }).goTo n job (.report isAllDownloaded))
  | .report isAllDownloaded, .go =>
      some (s.goTo n job (if isAllDownloaded then .ended else .clean))
  | .clean, .go => some (
      match s.stalePath job.url with
      | some path => ((s.erase job.url).removeFile path).goTo n job .ended
      | none => (s.erase job.url).goTo n job .ended)
  | .clean, .error _ => some ((s.erase job.url).goTo n job .ended)
  | .fail error, .go => some (
      (s.modify job.url fun e => { e with error := some error }).goTo n job .ended)
  | _, _ => none

/-- `get_download_data`. -/
def getDownloadData (s : State) (id : Url) : Except String DownloadData :=
  match s.downloaders id with
  | some e =>
      let data := if e.totalSize.getD 0 = e.downloadedSize ∧ e.path = none then e.data else []
      .ok ⟨data, e.path, e.totalSize, e.downloadedSize, e.error⟩
  | none => .error "Downloader not found"

/-- `cancel`. -/
def cancel (s : State) (id : Url) : State :=
  match s.downloaders id with
  | some e =>
      match s.jobs e.txCancel with
      | some job => s.setJob e.txCancel { job with cancelled := true }
      | none => s
  | none => s

/-- What a step leads to, where `body n` is what the server sends for the download of the number
`n`. -/
def next (body : ℕ → Bytes) (s : State) : Label → Option State
  | .downloadFile url path =>
      some { s.setJob s.nextJob { url := url, path := path } with nextJob := s.nextJob + 1 }
  | .job n event => (s.jobs n).bind fun job =>
      (s.callStep n job event).or (s.threadStep (body n) n job event)
  | .cancel id => some (s.cancel id)
  | .remove id => some (s.erase id)
  | .getDownloadData _ => some s

end State

section

variable {s : State} {n : ℕ} {job : Job} {pc : Pc} {id id' : Url} {f : Downloader → Downloader}

theorem jobs_setJob_self (s : State) (n : ℕ) (job : Job) : (s.setJob n job).jobs n = some job
  := Function.update_self _ _ _

theorem jobs_setJob_of_ne {m : ℕ} (hm : m ≠ n) : (s.setJob n job).jobs m = s.jobs m
  := Function.update_of_ne hm _ _

theorem jobs_goTo_self (s : State) (n : ℕ) (job : Job) (pc : Pc) :
  (s.goTo n job pc).jobs n = some { job with pc := pc }
  := jobs_setJob_self _ _ _

theorem downloaders_modify_self : (s.modify id f).downloaders id = (s.downloaders id).map f
  := Function.update_self _ _ _

theorem downloaders_modify_of_ne (h : id' ≠ id) :
  (s.modify id f).downloaders id' = s.downloaders id'
  := Function.update_of_ne h _ _

theorem downloaders_erase_self : (s.erase id).downloaders id = none
  := Function.update_self _ _ _

theorem downloaders_erase_of_ne (h : id' ≠ id) : (s.erase id).downloaders id' = s.downloaders id'
  := Function.update_of_ne h _ _

end

/-! ### What is claimed -/

/-- The thread runs. -/
def Pc.isThread : Pc → Bool
  | .first | .removeStale _ | .check | .second | .removeStaleAfter _ | .spawn | .ended => false
  | _ => true

/-- The file of a failed download, which the call removes next. -/
def Pc.stale : Pc → Option Path
  | .removeStale stale | .removeStaleAfter stale => some stale
  | _ => none

/-- A write fails when part of a chunk is written. -/
def Event.isPartly : Event → Bool
  | .partly _ _ => true
  | _ => false

/-- The download was entered, and its thread is not done. -/
def Pc.running : Pc → Bool
  | .first | .removeStale _ | .check | .second | .ended => false
  | _ => true

namespace State

/-- What was downloaded for an entry. -/
def downloaded (s : State) (e : Downloader) : Bytes :=
  match e.path with
  | some path => ((s.files path).map File.bytes).getD []
  | none => e.data

/-- What was downloaded for an entry is the start of what the server sends for it. -/
structure Right (body : ℕ → Bytes) (s : State) (e : Downloader) : Prop where
  size : e.downloadedSize ≤ (body e.txCancel).length
  downloaded : s.downloaded e = (body e.txCancel).take e.downloadedSize

/-- Every entry has what was downloaded for it. -/
def Own (body : ℕ → Bytes) (s : State) : Prop :=
  ∀ id e, s.downloaders id = some e → s.Right body e

/-- A step of a thread leaves the entries of others as they are. -/
def OnlyOwn (s : State) (label : Label) (s' : State) : Prop :=
  ∀ n event job, label = .job n event → s.jobs n = some job → job.pc.isThread →
    ∀ id e, s.downloaders id = some e → e.txCancel ≠ n → s'.downloaders id = some e

/-- An entry disappears only when its caller has cancelled it or removes it, or when its download
has finished or failed. -/
def Kept (s : State) (label : Label) (s' : State) : Prop :=
  ∀ id e, s.downloaders id = some e →
    (∃ e', s'.downloaders id = some e' ∧ e'.txCancel = e.txCancel)
      ∨ label = .remove id ∨ (s.jobs e.txCancel).any Job.cancelled ∨ e.finished ∨ e.error.isSome

/-- The download of the job is in the map or running. -/
def Live (s : State) (n : ℕ) (job : Job) : Prop :=
  s.jobs n = some job
    ∧ (job.pc.running ∨ (s.downloaders job.url).map Downloader.txCancel = some n)

instance (s : State) (n : ℕ) (job : Job) : Decidable (s.Live n job) :=
  inferInstanceAs (Decidable (_ ∧ (_ ∨ _)))

/-- No other download that is in the map or running has the path. -/
def Free (s : State) (n : ℕ) (path : Path) : Prop :=
  ∀ m < s.nextJob, ∀ job ∈ s.jobs m, m ≠ n → s.Live m job → job.path ≠ some path

instance (s : State) (n : ℕ) (path : Path) : Decidable (s.Free n path) :=
  inferInstanceAs (Decidable (∀ m < s.nextJob, ∀ job ∈ s.jobs m, _ → _ → _))

/-- No thread of another download with the URL is running, and the path is free, but for the entry
that is replaced. -/
def Vacant (s : State) (n : ℕ) (job : Job) : Prop :=
  (∀ m < s.nextJob, ∀ job' ∈ s.jobs m, m ≠ n → job'.pc.running → job'.url ≠ job.url)
    ∧ ∀ path ∈ job.path, s.files path = none
      ∧ ∀ m < s.nextJob, ∀ job' ∈ s.jobs m, s.Live m job' → job'.url ≠ job.url →
        job'.path ≠ some path

instance (s : State) (n : ℕ) (job : Job) : Decidable (s.Vacant n job) :=
  inferInstanceAs (Decidable (
    (∀ m < s.nextJob, ∀ job' ∈ s.jobs m, _ → _ → _)
      ∧ ∀ path ∈ job.path, _ ∧ ∀ m < s.nextJob, ∀ job' ∈ s.jobs m, _ → _ → _))

/-- A download is entered only where it is vacant, a file of a failed download is removed only when
no other has its path, and no write fails when part of a chunk is written. -/
def JobApart (s : State) (n : ℕ) (job : Job) (event : Event) : Prop :=
  (job.pc = .second → event = .go → ¬ s.taken job.url → s.Vacant n job)
    ∧ (event = .go → ∀ stale ∈ job.pc.stale, s.Free n stale) ∧ event.isPartly = false

instance (s : State) (n : ℕ) (job : Job) (event : Event) : Decidable (s.JobApart n job event) :=
  inferInstanceAs (Decidable
    ((_ → _ → _ → s.Vacant n job) ∧ (_ → ∀ stale ∈ job.pc.stale, s.Free n stale) ∧ _))

/-- The step keeps downloads apart. -/
def Apart (s : State) : Label → Prop
  | .job n event => ∀ job ∈ s.jobs n, s.JobApart n job event
  | _ => True

instance (s : State) (label : Label) : Decidable (s.Apart label) :=
  match label with
  | .job n event => inferInstanceAs (Decidable (∀ job ∈ s.jobs n, s.JobApart n job event))
  | .downloadFile _ _ | .cancel _ | .remove _ | .getDownloadData _ =>
      inferInstanceAs (Decidable True)

end State

/-! ### The invariant -/

/-- The download was entered. -/
def Pc.entered : Pc → Bool
  | .first | .removeStale _ | .check | .second => false
  | _ => true

/-- The download was entered, and its thread does not go on to write. -/
def Pc.closed : Pc → Bool
  | .first | .removeStale _ | .check | .second | .chunk _ _ => false
  | _ => true

/-- Two jobs are about the same URL, or the same path. -/
def Job.Meets (job job' : Job) : Prop :=
  job.url = job'.url ∨ ∃ path, job.path = some path ∧ job'.path = some path

/-- What is known of the entry of a job: nothing was downloaded before the thread has the response;
then the thread is where it has written up to, in the file; and it stops early when it is told
to. -/
def State.Knows (s : State) (e : Downloader) (cancelled : Bool) : Pc → Prop
  | .removeStaleAfter _ | .spawn | .client | .head | .get | .create => e.downloadedSize = 0
  | .chunk dest position => e.downloadedSize = position ∧ e.path = dest.map Prod.fst
      ∧ ∀ path id, dest = some (path, id) → (s.files path).map File.id = some id
  | .flush false | .finish false | .report false | .clean => cancelled = true
  | _ => True

/-- An entry is that of the job with its number. -/
structure Entry (body : ℕ → Bytes) (s : State) (id : Url) (e : Downloader) (job : Job) : Prop where
  found : s.jobs e.txCancel = some job
  url : job.url = id
  path : job.path = e.path
  entered : job.pc.entered
  knows : s.Knows e job.cancelled job.pc
  right : s.Right body e

/-- What holds in runs where downloads stay apart. -/
structure Inv (body : ℕ → Bytes) (s : State) : Prop where
  numbered : ∀ n job, s.jobs n = some job → n < s.nextJob
  alone : ∀ n m job job', s.Live n job → s.Live m job' → job.Meets job' → n = m
  entry : ∀ id e, s.downloaders id = some e → ∃ job, Entry body s id e job
  dest : ∀ n job path id position, s.jobs n = some job →
    job.pc = .chunk (some (path, id)) position → job.path = some path

section

variable {body : ℕ → Bytes} {s s₁ s' : State} {n : ℕ} {job : Job} {id : Url} {e e' : Downloader}
  {event : Event} {label : Label} {pc : Pc}

theorem Inv.start : Inv body {} := by
  refine ⟨nofun, ?_, nofun, nofun⟩
  intro n m job job' hn
  cases hn.1

/-- The downloaded bytes are the same when the file is. -/
theorem downloaded_congr (hdata : e'.data = e.data) (hpath : e'.path = e.path)
    (hfiles : ∀ path, e.path = some path → s'.files path = s.files path) :
  s'.downloaded e' = s.downloaded e
  := by
  rw [State.downloaded, State.downloaded, hpath]
  split
  · rename_i path hp
    rw [hfiles path hp]
  · exact hdata

theorem knows_congr {cancelled cancelled' : Bool} (hsize : e'.downloadedSize = e.downloadedSize)
    (hpath : e'.path = e.path) (hfiles : ∀ path, e.path = some path → s'.files path = s.files path)
    (hcancelled : cancelled = true → cancelled' = true) (h : s.Knows e cancelled pc) :
  s'.Knows e' cancelled' pc
  := by
  cases pc with
  | chunk dest position =>
      obtain ⟨hposition, hdest, hfile⟩ := h
      refine ⟨hsize.trans hposition, hpath.trans hdest, ?_⟩
      intro path id hd
      rw [hfiles path (by rw [hdest, hd]; rfl)]
      exact hfile path id hd
  | flush all | finish all | report all =>
      cases all with
      | false => exact hcancelled h
      | true => trivial
  | clean => exact hcancelled h
  | removeStaleAfter stale => exact hsize.trans h
  | spawn | client | head | get | create => exact hsize.trans h
  | _ => trivial

/-- An entry stays as it is when its job and its file do. -/
theorem Entry.congr (h : Entry body s id e job) {job' : Job}
    (hjob : s'.jobs e.txCancel = some job') (hurl : job'.url = job.url)
    (hpath : job'.path = job.path) (hpc : job'.pc = job.pc)
    (hcancelled : job.cancelled = true → job'.cancelled = true)
    (hfiles : ∀ path, e.path = some path → s'.files path = s.files path) :
  Entry body s' id e job'
  := by
  refine ⟨hjob, hurl.trans h.url, hpath.trans h.path, ?_, ?_, ?_, ?_⟩
  · rw [hpc]
    exact h.entered
  · rw [hpc]
    exact knows_congr rfl rfl hfiles hcancelled h.knows
  · exact h.right.size
  · rw [downloaded_congr rfl rfl hfiles]
    exact h.right.downloaded

/-- The job of an entry is live. -/
theorem Entry.live (h : Entry body s id e job) (he : s.downloaders id = some e) :
  s.Live e.txCancel job
  := by
  refine ⟨h.found, .inr ?_⟩
  rw [h.url, he]
  rfl

/-- Nothing is downloaded before the file is there. -/
theorem Entry.downloadedSize_eq (h : Entry body s id e job)
    (hpc : job.pc = .create ∨ ∃ stale, job.pc = .removeStaleAfter stale) :
  e.downloadedSize = 0
  := by
  have hknows := h.knows
  rcases hpc with hpc | ⟨stale, hpc⟩
  · rw [hpc] at hknows
    exact hknows
  · rw [hpc] at hknows
    exact hknows

/-- The entry under the URL of a live job is its own. -/
theorem Inv.own (hinv : Inv body s) (hlive : s.Live n job) (he : s.downloaders job.url = some e) :
  e.txCancel = n ∧ Entry body s job.url e job
  := by
  obtain ⟨job', hentry⟩ := hinv.entry _ e he
  have hown := hinv.alone _ _ _ _ (hentry.live he) hlive (.inl hentry.url)
  refine ⟨hown, ?_⟩
  have hsame := hentry.found
  rw [hown, hlive.1] at hsame
  obtain rfl := Option.some.inj hsame
  exact hentry

/-- Other live jobs have other paths. -/
theorem Inv.apart (hinv : Inv body s) (hlive : s.Live n job) {path : Path}
    (hpath : job.path = some path) :
  s.Free n path
  := by
  intro m _ job' _ hm hother hpath'
  exact hm (hinv.alone _ _ _ _ hother hlive (.inr ⟨path, hpath', hpath⟩))

/-- What is done to a file that no other live job has leaves the files of those. -/
theorem State.Free.update {path : Path} (hfree : s.Free n path) {file : Option File}
    (path' : Path) :
  Function.update s.files path file path' = s.files path' ∨ s.Free n path'
  := by
  by_cases h : path' = path
  · subst h
    exact .inr hfree
  · exact .inl (Function.update_of_ne h _ _)

theorem Job.Meets.symm {job job' : Job} (h : job.Meets job') : job'.Meets job
  := by
  rcases h with hsame | ⟨path, hp, hp'⟩
  · exact .inl hsame.symm
  · exact .inr ⟨path, hp', hp⟩

/-- A step of one job: what it enters is about nothing that is live, the entries of others stay or
are removed, and files that live jobs have stay. -/
theorem Inv.frame (hinv : Inv body s) (s' : State) {job' : Job} (hself : s'.jobs n = some job')
    (hnumber : n < s'.nextJob) (hnext : s.nextJob ≤ s'.nextJob)
    (hrest : ∀ m, m ≠ n → s'.jobs m = s.jobs m)
    (hothers : ∀ id e, s'.downloaders id = some e → e.txCancel ≠ n → s.downloaders id = some e)
    (hfiles : ∀ path, s'.files path = s.files path ∨ s.Free n path)
    (hmeets : ∀ m job₁, m ≠ n → s.Live m job₁ → s'.Live m job₁ → s'.Live n job' →
      ¬ job₁.Meets job')
    (hown : ∀ id e, s'.downloaders id = some e → e.txCancel = n → Entry body s' id e job')
    (hdest : ∀ path id position, job'.pc = .chunk (some (path, id)) position →
      job'.path = some path) :
  Inv body s'
  := by
  have hlive (m : ℕ) (job₁ : Job) (hm : m ≠ n) (h : s'.Live m job₁) : s.Live m job₁ := by
    refine ⟨(hrest m hm).symm.trans h.1, ?_⟩
    rcases h.2 with hrun | hentry
    · exact .inl hrun
    · obtain ⟨e, he, htx⟩ := Option.map_eq_some_iff.mp hentry
      right
      rw [hothers _ e he (by rwa [htx]), Option.map_some, htx]
  constructor
  · intro m job₁ hfound
    by_cases hm : m = n
    · rwa [hm]
    · rw [hrest m hm] at hfound
      exact Nat.lt_of_lt_of_le (hinv.numbered m job₁ hfound) hnext
  · intro m k job₁ job₂ h₁ h₂ hmeet
    by_cases hm : m = n
    · subst hm
      by_contra hk
      obtain rfl := Option.some.inj (hself.symm.trans h₁.1)
      exact hmeets k job₂ (Ne.symm hk) (hlive k job₂ (Ne.symm hk) h₂) h₂ h₁ hmeet.symm
    · by_cases hk : k = n
      · subst hk
        obtain rfl := Option.some.inj (hself.symm.trans h₂.1)
        exact absurd hmeet (hmeets m job₁ hm (hlive m job₁ hm h₁) h₁ h₂)
      · exact hinv.alone m k job₁ job₂ (hlive m job₁ hm h₁) (hlive k job₂ hk h₂) hmeet
  · intro id e he
    by_cases hm : e.txCancel = n
    · exact ⟨job', hown id e he hm⟩
    · have hbefore := hothers id e he hm
      obtain ⟨job₁, hentry⟩ := hinv.entry id e hbefore
      refine ⟨job₁, hentry.congr ((hrest _ hm).trans hentry.found) rfl rfl rfl (fun h => h) ?_⟩
      intro path hpath
      rcases hfiles path with hsame | hfree
      · exact hsame
      · have hm' := hinv.numbered _ _ hentry.found
        exact absurd (hentry.path.trans hpath) (hfree _ hm' _ hentry.found hm (hentry.live hbefore))
  · intro m job₁ path id position hfound hpc
    by_cases hm : m = n
    · subst hm
      obtain rfl := Option.some.inj (hself.symm.trans hfound)
      exact hdest path id position hpc
    · rw [hrest m hm] at hfound
      exact hinv.dest m job₁ path id position hfound hpc

theorem jobs_goTo_of_ne (hjobs : s₁.jobs = s.jobs) {m : ℕ} (hm : m ≠ n) :
  (s₁.goTo n job pc).jobs m = s.jobs m
  := by
  rw [← hjobs]
  exact jobs_setJob_of_ne hm

/-- A live job goes on, and does what it does to its own entry, and to files that no other live job
has. -/
theorem Inv.goTo (hinv : Inv body s) (hlive : s.Live n job) (s₁ : State)
    (hjobs : s₁.jobs = s.jobs ∧ s₁.nextJob = s.nextJob)
    (hothers : ∀ id, id ≠ job.url → s₁.downloaders id = s.downloaders id)
    (hfiles : ∀ path, s₁.files path = s.files path ∨ s.Free n path) (hpc : pc.entered)
    (hdest : ∀ path id position, pc = .chunk (some (path, id)) position → job.path = some path)
    (hown : ∀ e', s₁.downloaders job.url = some e' → e'.txCancel = n ∧ e'.path = job.path
      ∧ s₁.Knows e' job.cancelled pc ∧ s₁.Right body e') :
  Inv body (s₁.goTo n job pc)
  := by
  have hnext : s.nextJob ≤ s₁.nextJob := Nat.le_of_eq hjobs.2.symm
  apply hinv.frame (s₁.goTo n job pc) (jobs_goTo_self _ _ _ _)
    (Nat.lt_of_lt_of_le (hinv.numbered _ _ hlive.1) hnext) hnext
    (fun m => jobs_goTo_of_ne hjobs.1) _ hfiles _ _ hdest
  · intro id e he hm
    rw [← hothers id]
    · exact he
    · rintro rfl
      exact hm (hown e he).1
  · intro m job₁ hm hlive₁ _ _ hmeets
    exact hm (hinv.alone _ _ _ _ hlive₁ hlive hmeets)
  · intro id e he hm
    by_cases hid : id = job.url
    · subst hid
      obtain ⟨rfl, hpath, hknows, hright⟩ := hown e he
      exact ⟨jobs_goTo_self _ _ _ _, rfl, hpath.symm, hpc, hknows, hright.size, hright.downloaded⟩
    · -- an entry of the job under another URL
      obtain ⟨job₁, hentry⟩ := hinv.entry id e ((hothers id hid).symm.trans he)
      have hfound := hentry.found
      rw [hm, hlive.1] at hfound
      obtain rfl := Option.some.inj hfound
      exact absurd hentry.url.symm hid

/-- The number of a job that was not entered is that of no entry. -/
theorem Inv.txCancel_ne (hinv : Inv body s)
    (hjob : ∀ job, s.jobs n = some job → job.pc.entered = false) (he : s.downloaders id = some e) :
  e.txCancel ≠ n
  := by
  rintro rfl
  obtain ⟨job, hentry⟩ := hinv.entry id e he
  have hentered := hentry.entered
  rw [hjob job hentry.found] at hentered
  cases hentered

theorem entered_of_found (hjob : s.jobs n = some job) (hbefore : job.pc.entered = false) :
  ∀ job, s.jobs n = some job → job.pc.entered = false
  := by
  intro job' hjob'
  obtain rfl := Option.some.inj (hjob.symm.trans hjob')
  exact hbefore

/-- A job goes on that is not entered: entries may be removed, and files that no live job has. -/
theorem Inv.goToIdle (hinv : Inv body s) (s₁ : State)
    (hjobs : s₁.jobs = s.jobs ∧ s₁.nextJob = s.nextJob) (hjob : s.jobs n = some job)
    (hbefore : job.pc.entered = false) (hpc : pc.running = false)
    (hkept : ∀ id e, s₁.downloaders id = some e → s.downloaders id = some e)
    (hfiles : ∀ path, s₁.files path = s.files path ∨ s.Free n path) :
  Inv body (s₁.goTo n job pc)
  := by
  have hnone (id : Url) (e : Downloader) (he : s₁.downloaders id = some e) : e.txCancel ≠ n :=
    hinv.txCancel_ne (entered_of_found hjob hbefore) (hkept id e he)
  have hnext : s.nextJob ≤ s₁.nextJob := Nat.le_of_eq hjobs.2.symm
  apply hinv.frame (s₁.goTo n job pc) (jobs_goTo_self _ _ _ _)
    (Nat.lt_of_lt_of_le (hinv.numbered _ _ hjob) hnext) hnext
    (fun m => jobs_goTo_of_ne hjobs.1) _ hfiles
  · intro m job₁ _ _ _ hlive
    rcases hlive.2 with hrun | hentry
    · rw [hpc] at hrun
      cases hrun
    · obtain ⟨e, he, htx⟩ := Option.map_eq_some_iff.mp hentry
      exact absurd htx (hnone _ e he)
  · intro id e he hm
    exact absurd hm (hnone id e he)
  · rintro path id position rfl
    cases hpc
  · intro id e he _
    exact hkept id e he

/-- A job goes on that is not entered, and does nothing else. -/
theorem Inv.wait (hinv : Inv body s) (hjob : s.jobs n = some job)
    (hbefore : job.pc.entered = false) (hpc : pc.running = false) :
  Inv body (s.goTo n job pc)
  := hinv.goToIdle s ⟨rfl, rfl⟩ hjob hbefore hpc (fun _ _ he => he) fun _ => .inl rfl

/-- A download is entered. -/
theorem Inv.insert (hinv : Inv body s) (hjob : s.jobs n = some job)
    (hbefore : job.pc.entered = false)
    (hpc : (∃ stale, pc = .removeStaleAfter stale) ∨ pc = .spawn) (hvacant : s.Vacant n job) :
  Inv body ((s.insert n job).goTo n job pc)
  := by
  have hnew : ((s.insert n job).goTo n job pc).downloaders job.url
      = some { path := job.path, txCancel := n } := Function.update_self _ _ _
  have hold (id : Url) (hid : id ≠ job.url) :
      ((s.insert n job).goTo n job pc).downloaders id = s.downloaders id :=
    Function.update_of_ne hid _ _
  have hjobs : (s.insert n job).jobs = s.jobs := rfl
  obtain ⟨hurl, hpath⟩ := hvacant
  apply hinv.frame ((s.insert n job).goTo n job pc) (jobs_goTo_self _ _ _ _)
    (hinv.numbered _ _ hjob) (Nat.le_refl _)
    (fun m => jobs_goTo_of_ne hjobs) _ fun _ => .inl rfl
  · -- what else is live is about another URL, and another path
    intro m job₁ hm hbefore₁ hlive₁ _ hmeets
    have hnumber := hinv.numbered m job₁ hbefore₁.1
    have hid : job₁.url ≠ job.url := by
      intro hsame
      rcases hbefore₁.2 with hrun | _
      · exact hurl m hnumber job₁ hbefore₁.1 hm hrun hsame
      · rcases hlive₁.2 with hrun | hentry
        · exact hurl m hnumber job₁ hbefore₁.1 hm hrun hsame
        · rw [hsame, hnew] at hentry
          exact hm (Option.some.inj hentry).symm
    rcases hmeets with hsame | ⟨path, hpath', hp⟩
    · exact hid hsame
    · exact (hpath path hp).2 m hnumber job₁ hbefore₁.1 hbefore₁ hid hpath'
  · intro id e he hm
    by_cases hid : id = job.url
    · subst hid
      obtain rfl := Option.some.inj (hnew.symm.trans he)
      refine ⟨jobs_goTo_self _ _ _ _, rfl, rfl, ?_, ?_, Nat.zero_le _, ?_⟩
      · rcases hpc with ⟨stale, rfl⟩ | rfl <;> rfl
      · rcases hpc with ⟨stale, rfl⟩ | rfl <;> exact rfl
      · rw [State.downloaded, List.take_zero]
        split
        · rename_i path hp
          change ((s.files path).map File.bytes).getD [] = []
          rw [(hpath path hp).1]
          rfl
        · rfl
    · rw [hold id hid] at he
      exact absurd hm (hinv.txCancel_ne (entered_of_found hjob hbefore) he)
  · rintro path id position rfl
    rcases hpc with ⟨stale, hpc⟩ | hpc <;> cases hpc
  · intro id e he hm
    rw [← hold id]
    · exact he
    · rintro rfl
      obtain rfl := Option.some.inj (hnew.symm.trans he)
      exact hm rfl

theorem entered_of_closed (h : pc.closed = true) : pc.entered = true
  := by
  cases pc <;> first | rfl | cases h

/-- A live job goes on, and does nothing else. -/
theorem Inv.stay (hinv : Inv body s) (hlive : s.Live n job) (hpc : pc.closed)
    (hknows : ∀ e, s.downloaders job.url = some e → e.txCancel = n →
      s.Knows e job.cancelled job.pc → s.Knows e job.cancelled pc) :
  Inv body (s.goTo n job pc)
  := by
  apply hinv.goTo hlive s ⟨rfl, rfl⟩ (fun _ _ => rfl) (fun _ => .inl rfl) (entered_of_closed hpc)
  · rintro path id position rfl
    cases hpc
  · intro e he
    obtain ⟨htx, hentry⟩ := hinv.own hlive he
    exact ⟨htx, hentry.path.symm, hknows e he htx hentry.knows, hentry.right⟩

/-- A live job goes on, and changes what its entry says, but not what was downloaded. -/
theorem Inv.modify (hinv : Inv body s) (hlive : s.Live n job) (hpc : pc.closed)
    {f : Downloader → Downloader}
    (hf : ∀ e, (f e).txCancel = e.txCancel ∧ (f e).path = e.path ∧ (f e).data = e.data
      ∧ (f e).downloadedSize = e.downloadedSize)
    (hknows : ∀ e, s.Knows e job.cancelled job.pc → s.Knows e job.cancelled pc) :
  Inv body ((s.modify job.url f).goTo n job pc)
  := by
  apply hinv.goTo hlive (s.modify job.url f) ⟨rfl, rfl⟩
    (fun id hid => downloaders_modify_of_ne hid) (fun _ => .inl rfl) (entered_of_closed hpc)
  · rintro path id position rfl
    cases hpc
  · intro e' he'
    rw [downloaders_modify_self] at he'
    obtain ⟨e, he, rfl⟩ := Option.map_eq_some_iff.mp he'
    obtain ⟨htx, hentry⟩ := hinv.own hlive he
    obtain ⟨hftx, hfpath, hfdata, hfsize⟩ := hf e
    refine ⟨hftx.trans htx, hfpath.trans hentry.path.symm, ?_, ?_, ?_⟩
    · exact knows_congr hfsize hfpath (fun _ _ => rfl) (fun h => h) (hknows e hentry.knows)
    · rw [hfsize, hftx]
      exact hentry.right.size
    · rw [hfsize, hftx, ← hentry.right.downloaded]
      exact downloaded_congr hfdata hfpath fun _ _ => rfl

/-- What is told to stop has a message, when its entry is there. -/
theorem cancelled_of_seen (hseen : s.cancelSeen n job = true) (he : s.downloaders job.url = some e)
    (htx : e.txCancel = n) :
  job.cancelled = true
  := by
  rw [State.cancelSeen, Bool.or_eq_true, decide_eq_true_iff, he, Option.map_some, htx] at hseen
  rcases hseen with hcancelled | hgone
  · exact hcancelled
  · exact absurd rfl hgone

/-- The thread opens its file. -/
theorem Inv.createFile (hinv : Inv body s) (hlive : s.Live n job) (hpc : job.pc = .create)
    {path : Path} (hpath : job.path = some path) :
  Inv body ((s.createFile path).1.goTo n job (.chunk (some (path, (s.createFile path).2)) 0))
  := by
  have hfile : ∃ id nextFile, s.createFile path = ({ s with
      files := Function.update s.files path (some ⟨id, []⟩), nextFile := nextFile }, id) := by
    rw [State.createFile]
    split
    · exact ⟨_, s.nextFile, rfl⟩
    · exact ⟨_, _, rfl⟩
  obtain ⟨id, nextFile, heq⟩ := hfile
  rw [heq]
  apply hinv.goTo hlive { s with files := _, nextFile := nextFile } ⟨rfl, rfl⟩ (fun _ _ => rfl)
    (hinv.apart hlive hpath).update rfl
  · intro path' id' position h
    cases h
    exact hpath
  · intro e he
    obtain ⟨htx, hentry⟩ := hinv.own hlive he
    have hsize := hentry.downloadedSize_eq (.inl hpc)
    have hepath : e.path = some path := hentry.path.symm.trans hpath
    refine ⟨htx, hentry.path.symm, ⟨hsize, hepath, ?_⟩, hentry.right.size, ?_⟩
    · intro path' id' hdest
      cases hdest
      change (Function.update s.files path _ path).map _ = _
      rw [Function.update_self]
      rfl
    · rw [State.downloaded, hepath, hsize, List.take_zero]
      change ((Function.update s.files path _ path).map File.bytes).getD [] = []
      rw [Function.update_self]
      rfl

/-- What is written behind the end of a file is added to it. -/
theorem file_writeFile {path : Path} {id : ℕ} {bytes : Bytes}
    (hid : (s.files path).map File.id = some id) {position : ℕ}
    (hposition : position = (((s.files path).map File.bytes).getD []).length) :
  (s.writeFile (path, id) position bytes).files path
    = some ⟨id, ((s.files path).map File.bytes).getD [] ++ bytes⟩
  := by
  obtain ⟨file, hfile, rfl⟩ := Option.map_eq_some_iff.mp hid
  rw [hfile, Option.map_some, Option.getD_some] at hposition ⊢
  rw [State.writeFile]
  dsimp only
  rw [Function.update_self, hfile, Option.map_some, if_pos rfl, hposition, overwrite_length]

/-- A chunk comes. -/
theorem Inv.addChunk (hinv : Inv body s) (hlive : s.Live n job) {dest : Option (Path × ℕ)}
    {position : ℕ} (hpc : job.pc = .chunk dest position) (m : ℕ) {chunk : Bytes}
    (hchunk : chunk = ((body n).drop position).take m) :
  Inv body ((s.addChunk job dest position chunk).goTo n job (.chunk dest (position + chunk.length)))
  := by
  have hdest : ∀ path id, dest = some (path, id) → job.path = some path := by
    rintro path id rfl
    exact hinv.dest _ _ _ _ _ hlive.1 hpc
  -- what the thread knows of its entry, when it is there
  have hbefore (e : Downloader) (he : s.downloaders job.url = some e) :
      e.txCancel = n ∧ e.path = job.path ∧ e.downloadedSize = position ∧ e.path = dest.map Prod.fst
        ∧ (∀ path id, dest = some (path, id) → (s.files path).map File.id = some id)
        ∧ s.downloaded e = (body n).take position ∧ position ≤ (body n).length := by
    obtain ⟨htx, hentry⟩ := hinv.own hlive he
    have hknows := hentry.knows
    rw [hpc] at hknows
    obtain ⟨hsize, hpath, hfile⟩ := hknows
    refine ⟨htx, hentry.path.symm, hsize, hpath, hfile, ?_, ?_⟩
    · rw [hentry.right.downloaded, hsize, htx]
    · rw [← hsize, ← htx]
      exact hentry.right.size
  have hsize : position ≤ (body n).length → position + chunk.length ≤ (body n).length := by
    intro hposition
    rw [hchunk, List.length_take, List.length_drop]
    omega
  have hnext (hposition : position ≤ (body n).length) :
      (body n).take position ++ chunk = (body n).take (position + chunk.length) := by
    rw [List.take_add, hchunk, List.length_take, ← List.take_eq_take_min]
  cases dest with
  | none =>
      apply hinv.goTo hlive (s.addChunk job none position chunk) ⟨rfl, rfl⟩
        (fun id hid => downloaders_modify_of_ne hid) (fun _ => .inl rfl) rfl
      · intro path id position h
        cases h
      · intro e' he'
        obtain ⟨e, he, rfl⟩ := Option.map_eq_some_iff.mp (downloaders_modify_self.symm.trans he')
        obtain ⟨htx, hjobPath, hposition, hpath, -, hdownloaded, hwithin⟩ := hbefore e he
        have hnone : e.path = none := hpath
        have hdata : e.data = (body n).take position := by
          rw [← hdownloaded, State.downloaded, hnone]
        refine ⟨htx, hjobPath, ⟨congrArg (· + chunk.length) hposition, hpath, nofun⟩, ?_, ?_⟩
        · change e.downloadedSize + chunk.length ≤ (body e.txCancel).length
          rw [hposition, htx]
          exact hsize hwithin
        · rw [State.downloaded, hnone]
          change e.data ++ chunk = (body e.txCancel).take (e.downloadedSize + chunk.length)
          rw [hdata, htx, hposition, hnext hwithin]
  | some dest =>
      obtain ⟨path, id⟩ := dest
      apply hinv.goTo hlive (s.addChunk job (some (path, id)) position chunk) ⟨rfl, rfl⟩
        (fun id hid => downloaders_modify_of_ne hid)
        (hinv.apart hlive (hdest path id rfl)).update rfl
      · intro path' id' position' h
        cases h
        exact hdest path id rfl
      · intro e' he'
        obtain ⟨e, he, rfl⟩ := Option.map_eq_some_iff.mp (downloaders_modify_self.symm.trans he')
        obtain ⟨htx, hjobPath, hposition, hpath, hfile, hdownloaded, hwithin⟩ := hbefore e he
        have hepath : e.path = some path := hpath
        have hbytes : ((s.files path).map File.bytes).getD [] = (body n).take position := by
          rw [← hdownloaded, State.downloaded, hepath]
        have hwritten : (s.addChunk job (some (path, id)) position chunk).files path
            = some ⟨id, (body n).take (position + chunk.length)⟩ := by
          rw [← hnext hwithin, ← hbytes]
          apply file_writeFile (hfile path id rfl)
          rw [hbytes, List.length_take_of_le hwithin]
        refine ⟨htx, hjobPath, ⟨congrArg (· + chunk.length) hposition, hpath, ?_⟩, ?_, ?_⟩
        · rintro path' id' ⟨⟩
          rw [hwritten]
          rfl
        · change e.downloadedSize + chunk.length ≤ (body e.txCancel).length
          rw [hposition, htx]
          exact hsize hwithin
        · rw [State.downloaded, hepath]
          change (((s.addChunk job (some (path, id)) position chunk).files path).map _).getD [] = _
          rw [hwritten, htx]
          change _ = (body n).take (e.downloadedSize + chunk.length)
          rw [hposition]
          rfl

/-- The thread removes its entry, and may remove its file. -/
theorem Inv.clean (hinv : Inv body s) (hlive : s.Live n job) {files : Path → Option File}
    (hfiles : ∀ path, files path = s.files path ∨ s.stalePath job.url = some path) :
  Inv body ({ s.erase job.url with files := files }.goTo n job .ended)
  := by
  apply hinv.goTo hlive { s.erase job.url with files := files } ⟨rfl, rfl⟩
    (fun id hid => downloaders_erase_of_ne hid) _ rfl
  · nofun
  · intro e he
    cases downloaders_erase_self.symm.trans he
  · intro path
    rcases hfiles path with hsame | hstale
    · exact .inl hsame
    · obtain ⟨e, he, hpath⟩ := Option.bind_eq_some_iff.mp hstale
      obtain ⟨-, hentry⟩ := hinv.own hlive he
      exact .inr (hinv.apart hlive (hentry.path.trans hpath))

end

/-! ### The steps of a thread -/

/-- What a step of a thread may do: go on, change what its entry says, begin to download, download a
chunk, fail when part of one is written, or remove its entry. -/
inductive Turn (body : Bytes) (s : State) (n : ℕ) (job : Job) : Event → State → Prop where
  | stay {event : Event} {pc : Pc} (hpc : pc.closed)
      (hknows : ∀ e, s.downloaders job.url = some e → e.txCancel = n →
        s.Knows e job.cancelled job.pc → s.Knows e job.cancelled pc) :
      Turn body s n job event (s.goTo n job pc)
  | modify {event : Event} {pc : Pc} {f : Downloader → Downloader} (hpc : pc.closed)
      (hf : ∀ e, (f e).txCancel = e.txCancel ∧ (f e).path = e.path ∧ (f e).data = e.data
        ∧ (f e).downloadedSize = e.downloadedSize)
      (hknows : ∀ e, s.Knows e job.cancelled job.pc → s.Knows e job.cancelled pc) :
      Turn body s n job event ((s.modify job.url f).goTo n job pc)
  | create {path : Path} (hpc : job.pc = .create) (hpath : job.path = some path) :
      Turn body s n job .go
        ((s.createFile path).1.goTo n job (.chunk (some (path, (s.createFile path).2)) 0))
  | noFile (hpc : job.pc = .create) (hpath : job.path = none) :
      Turn body s n job .go (s.goTo n job (.chunk none 0))
  | chunk {m : ℕ} {dest : Option (Path × ℕ)} {position : ℕ} {chunk : Bytes}
      (hpc : job.pc = .chunk dest position) (hchunk : chunk = (body.drop position).take (m + 1)) :
      Turn body s n job (.chunk m)
        ((s.addChunk job dest position chunk).goTo n job (.chunk dest (position + chunk.length)))
  | partly {m : ℕ} {error : String} {dest : Path × ℕ} {position : ℕ} {part : Bytes}
      (hpc : job.pc = .chunk (some dest) position) :
      Turn body s n job (.partly m error)
        ((s.writeFile dest position part).goTo n job (.fail error))
  | clean {event : Event} {files : Path → Option File} (hpc : job.pc = .clean)
      (hfiles : ∀ path, files path = s.files path ∨ s.stalePath job.url = some path) :
      Turn body s n job event ({ s.erase job.url with files := files }.goTo n job .ended)

section

variable {body : ℕ → Bytes} {s s₁ s' : State} {n : ℕ} {job : Job} {id : Url} {e e' : Downloader}
  {event : Event} {label : Label} {pc : Pc}

/-- A thread may fail anywhere. -/
theorem Turn.fail {body : Bytes} (error : String) :
  Turn body s n job event (s.goTo n job (.fail error))
  := .stay rfl fun _ _ _ _ => trivial

/-- A thread that is told to stop goes where it knows that it was. -/
theorem Turn.stop {body : Bytes} (hseen : s.cancelSeen n job = true) (hpc : pc.closed)
    (hknows : ∀ e, s.Knows e true pc) :
  Turn body s n job event (s.goTo n job pc)
  := by
  apply Turn.stay hpc
  intro e he htx _
  rw [cancelled_of_seen hseen he htx]
  exact hknows e

theorem turn_of_threadStep {body : Bytes} (hstep : s.threadStep body n job event = some s') :
  Turn body s n job event s'
  := by
  rw [State.threadStep.eq_def] at hstep
  split at hstep
  case h_1 hpc =>
      cases hstep
      apply Turn.stay rfl
      intro e _ _ h
      rw [hpc] at h
      exact h
  case h_2 totalSize hpc =>
      cases hstep
      refine .modify rfl (fun _ => ⟨rfl, rfl, rfl, rfl⟩) ?_
      intro e h
      rw [hpc] at h
      exact h
  case h_3 | h_4 | h_14 | h_15 | h_16 | h_17 =>
      cases hstep
      exact .fail _
  case h_5 | h_6 | h_12 =>
      split_ifs at hstep with hseen
      cases hstep
      exact .stop hseen rfl fun _ => rfl
  case h_7 hpc =>
      cases hstep
      apply Turn.stay rfl
      intro e _ _ h
      rw [hpc] at h
      exact h
  case h_8 hpc =>
      cases hstep
      split
      · rename_i path hpath
        exact .create hpc hpath
      · rename_i hpath
        exact .noFile hpc hpath
  case h_9 dest position m hpc =>
      dsimp only at hstep
      split_ifs at hstep
      cases hstep
      exact .chunk hpc rfl
  case h_10 dest position m error hpc =>
      dsimp only at hstep
      split_ifs at hstep
      cases hstep
      exact .partly hpc
  case h_11 =>
      split_ifs at hstep
      cases hstep
      exact .stay rfl fun _ _ _ _ => trivial
  case h_13 all hpc =>
      cases hstep
      apply Turn.stay rfl
      intro e _ _ h
      rw [hpc] at h
      cases all <;> exact h
  case h_18 | h_19 =>
      split_ifs at hstep
      cases hstep
      exact .fail _
  case h_20 all hpc =>
      cases hstep
      refine .modify rfl (fun _ => ⟨rfl, rfl, rfl, rfl⟩) ?_
      intro e h
      rw [hpc] at h
      cases all <;> exact h
  case h_21 all hpc =>
      cases hstep
      cases all with
      | true => exact .stay rfl fun _ _ _ _ => trivial
      | false =>
          apply Turn.stay rfl
          intro e _ _ h
          rw [hpc] at h
          exact h
  case h_22 hpc =>
      cases hstep
      split
      · rename_i path hstale
        apply Turn.clean hpc
        intro path'
        by_cases h : path' = path
        · subst h
          exact .inr hstale
        · exact .inl (Function.update_of_ne h _ _)
      · exact .clean hpc fun _ => .inl rfl
  case h_23 hpc =>
      cases hstep
      exact .clean hpc fun _ => .inl rfl
  case h_24 hpc =>
      cases hstep
      exact .modify rfl (fun _ => ⟨rfl, rfl, rfl, rfl⟩) fun _ _ => trivial
  case h_25 => cases hstep

/-- Nothing but what is called a thread takes the steps of one. -/
theorem isThread_of_threadStep {body : Bytes} (hstep : s.threadStep body n job event = some s') :
  job.pc.isThread
  := by
  cases hpc : job.pc
  case first | removeStale | check | second | removeStaleAfter | spawn | ended =>
    rw [State.threadStep.eq_def, hpc] at hstep
    cases event <;> cases hstep
  all_goals rfl

theorem running_of_isThread (h : pc.isThread = true) : pc.running
  := by
  cases pc <;> first | rfl | cases h

/-- A step of a thread leaves what is under other URLs. -/
theorem Turn.others {body : Bytes} (h : Turn body s n job event s') (hid : id ≠ job.url) :
  s'.downloaders id = s.downloaders id
  := by
  cases h with
  | stay => rfl
  | modify => exact downloaders_modify_of_ne hid
  | @create path hpc hpath =>
      change (s.createFile path).1.downloaders id = _
      rw [State.createFile]
      split <;> rfl
  | noFile => rfl
  | @chunk m dest =>
      cases dest with
      | none => exact downloaders_modify_of_ne hid
      | some dest => exact downloaders_modify_of_ne hid
  | partly => rfl
  | clean => exact downloaders_erase_of_ne hid

/-- A step of a thread leaves an entry under its URL, unless it cleans up. -/
theorem Turn.kept {body : Bytes} (h : Turn body s n job event s')
    (he : s.downloaders job.url = some e) :
  (∃ e', s'.downloaders job.url = some e' ∧ e'.txCancel = e.txCancel) ∨ job.pc = .clean
  := by
  cases h with
  | stay => exact .inl ⟨e, he, rfl⟩
  | @modify _ _ f _ hf =>
      left
      refine ⟨f e, ?_, (hf e).1⟩
      rw [← Option.map_some, ← he]
      exact downloaders_modify_self
  | @create path hpc hpath =>
      left
      refine ⟨e, ?_, rfl⟩
      rw [← he]
      change (s.createFile path).1.downloaders job.url = _
      rw [State.createFile]
      split <;> rfl
  | noFile => exact .inl ⟨e, he, rfl⟩
  | @chunk m dest =>
      left
      cases dest with
      | none => exact ⟨_, downloaders_modify_self.trans (congrArg _ he), rfl⟩
      | some dest => exact ⟨_, downloaders_modify_self.trans (congrArg _ he), rfl⟩
  | partly => exact .inl ⟨e, he, rfl⟩
  | clean hpc => exact .inr hpc

/-- A step of a thread keeps the invariant. -/
theorem Inv.turn (hinv : Inv body s) (hjob : s.jobs n = some job) (hthread : job.pc.isThread)
    (hapart : s.Apart (.job n event)) (hturn : Turn (body n) s n job event s') :
  Inv body s'
  := by
  have hlive : s.Live n job := ⟨hjob, .inl (running_of_isThread hthread)⟩
  cases hturn with
  | stay hpc hknows => exact hinv.stay hlive hpc hknows
  | modify hpc hf hknows => exact hinv.modify hlive hpc hf hknows
  | create hpc hpath => exact hinv.createFile hlive hpc hpath
  | noFile hpc hpath =>
      apply hinv.goTo hlive s ⟨rfl, rfl⟩ (fun _ _ => rfl) (fun _ => .inl rfl) rfl
        (by rintro _ _ _ ⟨⟩)
      intro e he
      obtain ⟨htx, hentry⟩ := hinv.own hlive he
      have hsize := hentry.downloadedSize_eq (.inl hpc)
      exact ⟨htx, hentry.path.symm, ⟨hsize, hentry.path.symm.trans hpath, nofun⟩, hentry.right⟩
  | chunk hpc hchunk => exact hinv.addChunk hlive hpc _ hchunk
  | partly hpc =>
      cases (hapart job hjob).2.2
  | clean hpc hfiles => exact hinv.clean hlive hfiles

/-! ### The steps of a call -/

/-- An entry that is not in the way has an error. -/
theorem isSome_error_of_not_taken (htaken : ¬ s.taken id) (he : s.downloaders id = some e) :
  e.error.isSome
  := by
  rw [State.taken, he, Option.any_some] at htaken
  cases herror : e.error with
  | none =>
      rw [herror] at htaken
      exact absurd rfl htaken
  | some error => rfl

/-- The file of the failed download that was replaced is removed. -/
theorem Inv.removeStaleAfter (hinv : Inv body s) (hlive : s.Live n job) {stale : Path}
    (hpc : job.pc = .removeStaleAfter stale) (hfree : s.Free n stale) :
  Inv body ((s.removeFile stale).goTo n job .spawn)
  := by
  apply hinv.goTo hlive (s.removeFile stale) ⟨rfl, rfl⟩ (fun _ _ => rfl) hfree.update rfl
  · rintro _ _ _ ⟨⟩
  · intro e he
    obtain ⟨htx, hentry⟩ := hinv.own hlive he
    have hsize := hentry.downloadedSize_eq (.inr ⟨stale, hpc⟩)
    refine ⟨htx, hentry.path.symm, hsize, hentry.right.size, ?_⟩
    -- nothing was downloaded, so that there is nothing to lose
    have hdownloaded := hentry.right.downloaded
    rw [hsize, List.take_zero] at hdownloaded ⊢
    rw [State.downloaded] at hdownloaded ⊢
    split
    · rename_i path hpath
      rw [hpath] at hdownloaded
      by_cases h : path = stale
      · subst h
        change ((Function.update s.files path none path).map File.bytes).getD [] = []
        rw [Function.update_self]
        rfl
      · change ((Function.update s.files stale none path).map File.bytes).getD [] = []
        rw [Function.update_of_ne h]
        exact hdownloaded
    · rename_i hpath
      rw [hpath] at hdownloaded
      exact hdownloaded

/-- A step of a call keeps the invariant. -/
theorem Inv.callStep (hinv : Inv body s) (hjob : s.jobs n = some job)
    (hapart : s.Apart (.job n event)) (hstep : s.callStep n job event = some s') :
  Inv body s'
  := by
  obtain ⟨hvacant, hfree, -⟩ := hapart job hjob
  rw [State.callStep.eq_def] at hstep
  split at hstep
  · split at hstep
    case h_1 hpc =>
        have hbefore : job.pc.entered = false := by rw [hpc]; rfl
        cases hstep
        split
        · exact hinv.wait hjob hbefore rfl
        · have hkept (id : Url) (e : Downloader) (he : (s.erase job.url).downloaders id = some e) :
              s.downloaders id = some e := by
            by_cases hid : id = job.url
            · subst hid
              cases downloaders_erase_self.symm.trans he
            · rwa [downloaders_erase_of_ne hid] at he
          split
          · exact hinv.goToIdle (s.erase job.url) ⟨rfl, rfl⟩ hjob hbefore rfl hkept
              fun _ => .inl rfl
          · exact hinv.goToIdle (s.erase job.url) ⟨rfl, rfl⟩ hjob hbefore rfl hkept
              fun _ => .inl rfl
    case h_2 stale hpc =>
        have hbefore : job.pc.entered = false := by rw [hpc]; rfl
        have hfree := hfree rfl stale (by rw [hpc]; rfl)
        cases hstep
        exact hinv.goToIdle (s.removeFile stale) ⟨rfl, rfl⟩ hjob hbefore rfl (fun _ _ he => he)
          hfree.update
    case h_3 hpc =>
        have hbefore : job.pc.entered = false := by rw [hpc]; rfl
        cases hstep
        split
        · exact hinv.wait hjob hbefore rfl
        · exact hinv.wait hjob hbefore rfl
    case h_4 hpc =>
        have hbefore : job.pc.entered = false := by rw [hpc]; rfl
        cases hstep
        split
        · exact hinv.wait hjob hbefore rfl
        · rename_i htaken
          have hvacant := hvacant hpc rfl htaken
          split
          · rename_i stale _
            exact hinv.insert hjob hbefore (.inl ⟨stale, rfl⟩) hvacant
          · exact hinv.insert hjob hbefore (.inr rfl) hvacant
    case h_5 stale hpc =>
        have hfree := hfree rfl stale (by rw [hpc]; rfl)
        cases hstep
        exact hinv.removeStaleAfter ⟨hjob, .inl (by rw [hpc]; rfl)⟩ hpc hfree
    case h_6 hpc =>
        cases hstep
        apply hinv.stay ⟨hjob, .inl (by rw [hpc]; rfl)⟩ rfl
        intro e _ _ h
        rw [hpc] at h
        exact h
    case h_7 => cases hstep
  · split at hstep
    case h_1 hpc =>
        cases hstep
        exact hinv.wait hjob (by rw [hpc]; rfl) rfl
    case h_2 hpc =>
        split_ifs at hstep
        cases hstep
        exact hinv.wait hjob (by rw [hpc]; rfl) rfl
    case h_3 stale hpc =>
        cases hstep
        apply hinv.stay ⟨hjob, .inl (by rw [hpc]; rfl)⟩ rfl
        intro e _ _ h
        rw [hpc] at h
        exact h
    case h_4 => cases hstep
  · cases hstep

/-- A step of a call leaves an entry, unless it has an error. -/
theorem callStep_kept (hstep : s.callStep n job event = some s') (he : s.downloaders id = some e) :
  s'.downloaders id = some e ∨ e.error.isSome
  := by
  rw [State.callStep.eq_def] at hstep
  split at hstep
  · split at hstep
    case h_1 =>
        cases hstep
        split
        · exact .inl he
        · rename_i htaken
          by_cases hid : id = job.url
          · subst hid
            exact .inr (isSome_error_of_not_taken htaken he)
          · exact .inl ((downloaders_erase_of_ne hid).trans he)
    case h_4 =>
        cases hstep
        split
        · exact .inl he
        · rename_i htaken
          by_cases hid : id = job.url
          · subst hid
            exact .inr (isSome_error_of_not_taken htaken he)
          · exact .inl ((Function.update_of_ne hid _ _).trans he)
    case h_7 => cases hstep
    all_goals
      cases hstep
      first
        | exact .inl he
        | (split <;> exact .inl he)
  · split at hstep
    case h_2 =>
        split_ifs at hstep
        cases hstep
        exact .inl he
    case h_4 => cases hstep
    all_goals
      cases hstep
      exact .inl he
  · cases hstep

/-- A thread is not in its call any more. -/
theorem callStep_of_isThread (h : job.pc.isThread = true) : s.callStep n job event = none
  := by
  rw [State.callStep.eq_def]
  cases hpc : job.pc
  case first | removeStale | check | second | removeStaleAfter | spawn | ended =>
    rw [hpc] at h
    cases h
  all_goals cases event <;> rfl

/-! ### All steps -/

/-- A step of a job is one of its call, or one of its thread. -/
theorem next_job (hstep : s.next body (.job n event) = some s') :
  ∃ job, s.jobs n = some job ∧ (s.callStep n job event = some s'
    ∨ job.pc.isThread ∧ Turn (body n) s n job event s')
  := by
  obtain ⟨job, hjob, hor⟩ := Option.bind_eq_some_iff.mp hstep
  refine ⟨job, hjob, ?_⟩
  rcases Option.or_eq_some_iff.mp hor with hcall | ⟨-, hthread⟩
  · exact .inl hcall
  · exact .inr ⟨isThread_of_threadStep hthread, turn_of_threadStep hthread⟩

/-- A message is sent to the thread of an entry. -/
theorem Inv.cancel (hinv : Inv body s) (id : Url) :
  Inv body (s.cancel id)
  := by
  rw [State.cancel]
  split
  · rename_i e he
    obtain ⟨job, hentry⟩ := hinv.entry id e he
    rw [hentry.found]
    apply hinv.frame (s.setJob e.txCancel { job with cancelled := true }) (jobs_setJob_self _ _ _)
      (hinv.numbered _ _ hentry.found) (Nat.le_refl _)
      (fun m => jobs_setJob_of_ne) (fun _ _ h _ => h) fun _ => .inl rfl
    · intro m job' hm hlive _ _ hmeets
      exact hm (hinv.alone _ _ _ _ hlive (hentry.live he) hmeets)
    · intro id' e' he' hm
      obtain ⟨job', hentry'⟩ := hinv.entry id' e' he'
      have hfound := hentry'.found
      rw [hm, hentry.found] at hfound
      obtain rfl := Option.some.inj hfound
      have htold : (s.setJob e.txCancel { job with cancelled := true }).jobs e'.txCancel
          = some { job with cancelled := true } := by
        rw [hm]
        exact jobs_setJob_self _ _ _
      exact hentry'.congr htold rfl rfl rfl (fun _ => rfl) fun _ _ => rfl
    · intro path id' position hpc
      exact hinv.dest _ job path id' position hentry.found hpc
  · exact hinv

/-- An entry is removed. -/
theorem Inv.erase (hinv : Inv body s) (id : Url) :
  Inv body (s.erase id)
  := by
  have hkept (id' : Url) (e : Downloader) (he : (s.erase id).downloaders id' = some e) :
      s.downloaders id' = some e := by
    by_cases hid : id' = id
    · subst hid
      cases downloaders_erase_self.symm.trans he
    · rwa [downloaders_erase_of_ne hid] at he
  have hlive (m : ℕ) (job : Job) (h : (s.erase id).Live m job) : s.Live m job := by
    refine ⟨h.1, ?_⟩
    rcases h.2 with hrun | hentry
    · exact .inl hrun
    · obtain ⟨e, he, htx⟩ := Option.map_eq_some_iff.mp hentry
      right
      rw [hkept _ e he, Option.map_some, htx]
  constructor
  · exact hinv.numbered
  · intro n m job job' hn hm
    exact hinv.alone n m job job' (hlive n job hn) (hlive m job' hm)
  · intro id' e he
    obtain ⟨job, hentry⟩ := hinv.entry id' e (hkept id' e he)
    exact ⟨job, hentry.congr hentry.found rfl rfl rfl (fun h => h) fun _ _ => rfl⟩
  · exact hinv.dest

/-- A call begins. -/
theorem Inv.downloadFile (hinv : Inv body s) (url : Url) (path : Option Path) :
  Inv body { s.setJob s.nextJob { url := url, path := path } with nextJob := s.nextJob + 1 }
  := by
  have hnone (id : Url) (e : Downloader) (he : s.downloaders id = some e) :
      e.txCancel ≠ s.nextJob := by
    apply hinv.txCancel_ne _ he
    intro job hjob
    exact absurd (hinv.numbered _ _ hjob) (Nat.lt_irrefl _)
  apply hinv.frame
    { s.setJob s.nextJob { url := url, path := path } with nextJob := s.nextJob + 1 }
    (jobs_setJob_self s _ _) (Nat.lt_succ_self _) (Nat.le_succ _)
    (fun m => jobs_setJob_of_ne) (fun _ _ h _ => h) fun _ => .inl rfl
  · intro m job' _ _ _ hlive
    rcases hlive.2 with hrun | hentry
    · cases hrun
    · obtain ⟨e, he, htx⟩ := Option.map_eq_some_iff.mp hentry
      exact absurd htx (hnone _ e he)
  · intro id e he hm
    exact absurd hm (hnone id e he)
  · intro path' id position hpc
    cases hpc

theorem Inv.step (hinv : Inv body s) (hapart : s.Apart label)
    (hstep : s.next body label = some s') :
  Inv body s'
  := by
  cases label with
  | downloadFile url path =>
      cases hstep
      exact hinv.downloadFile url path
  | job n event =>
      obtain ⟨job, hjob, hcall | ⟨hthread, hturn⟩⟩ := next_job hstep
      · exact hinv.callStep hjob hapart hcall
      · exact hinv.turn hjob hthread hapart hturn
  | cancel id =>
      cases hstep
      exact hinv.cancel id
  | remove id =>
      cases hstep
      exact hinv.erase id
  | getDownloadData id =>
      cases hstep
      exact hinv

theorem Inv.own_all (hinv : Inv body s) : s.Own body
  := by
  intro id e he
  obtain ⟨job, hentry⟩ := hinv.entry id e he
  exact hentry.right

/-- A thread finds no entry but its own. -/
theorem Inv.onlyOwn (hinv : Inv body s) (hstep : s.next body label = some s') :
  s.OnlyOwn label s'
  := by
  rintro n event job rfl hjob hthread id e he hother
  obtain ⟨job', hjob', hcall | ⟨-, hturn⟩⟩ := next_job hstep
  · obtain rfl := Option.some.inj (hjob.symm.trans hjob')
    rw [callStep_of_isThread hthread] at hcall
    cases hcall
  · obtain rfl := Option.some.inj (hjob.symm.trans hjob')
    rw [hturn.others]
    · exact he
    · rintro rfl
      exact hother (hinv.own ⟨hjob, .inl (running_of_isThread hthread)⟩ he).1

/-- An entry disappears for a reason. -/
theorem Inv.kept (hinv : Inv body s) (hstep : s.next body label = some s') :
  s.Kept label s'
  := by
  intro id e he
  cases label with
  | downloadFile url path =>
      cases hstep
      exact .inl ⟨e, he, rfl⟩
  | job n event =>
      obtain ⟨job, hjob, hcall | ⟨hthread, hturn⟩⟩ := next_job hstep
      · rcases callStep_kept hcall he with hsame | herror
        · exact .inl ⟨e, hsame, rfl⟩
        · exact .inr (.inr (.inr (.inr herror)))
      · by_cases hid : id = job.url
        · subst hid
          rcases hturn.kept he with hkept | hpc
          · exact .inl hkept
          · obtain ⟨rfl, hentry⟩ := hinv.own ⟨hjob, .inl (running_of_isThread hthread)⟩ he
            have hcancelled := hentry.knows
            rw [hpc] at hcancelled
            right
            right
            left
            rw [hjob, Option.any_some]
            exact hcancelled
        · exact .inl ⟨e, (hturn.others hid).trans he, rfl⟩
  | cancel id' =>
      cases hstep
      left
      refine ⟨e, ?_, rfl⟩
      rw [State.cancel]
      split
      · split <;> exact he
      · exact he
  | remove id' =>
      cases hstep
      by_cases hid : id = id'
      · subst hid
        exact .inr (.inl rfl)
      · exact .inl ⟨e, (downloaders_erase_of_ne hid).trans he, rfl⟩
  | getDownloadData id' =>
      cases hstep
      exact .inl ⟨e, he, rfl⟩

/-- In every run where downloads stay apart, every entry has the start of what the server sends for
it, as long as its size says, no thread touches the entry of another, and an entry disappears only
when its caller wants it to or when its download is over. -/
theorem separate_of_run {h : List (State × Label)}
    (hrun : Run (fun s label s' => s.next body label = some s') {} h s)
    (hapart : ∀ x ∈ h, x.1.Apart x.2) :
  (∀ x ∈ h, x.1.Own body ∧ ∀ s', x.1.next body x.2 = some s' → x.1.OnlyOwn x.2 s' ∧ x.1.Kept x.2 s')
    ∧ s.Own body
  := by
  have hinv := hrun.forall_of State.Apart (Inv body) (Inv body) Inv.start (fun _ => fun h => h)
    (fun _ _ _ hinv hapart => hinv.step hapart) hapart
  refine ⟨fun x hx => ?_, hinv.2.own_all⟩
  have hx := hinv.1 x hx
  exact ⟨hx.own_all, fun s' hstep => ⟨hx.onlyOwn hstep, hx.kept hstep⟩⟩

/-- What `get_download_data` gives is of the entry's own download. -/
theorem data_getDownloadData (hown : s.Own body) {data : DownloadData}
    (hget : s.getDownloadData id = .ok data) :
  ∃ e, s.downloaders id = some e ∧ data.downloadedSize = e.downloadedSize
    ∧ (data.data = [] ∨ data.data = (body e.txCancel).take data.downloadedSize)
  := by
  rw [State.getDownloadData] at hget
  split at hget
  · rename_i e he
    cases hget
    refine ⟨e, he, rfl, ?_⟩
    dsimp only
    split
    · rename_i hall
      right
      rw [← (hown id e he).downloaded, State.downloaded, hall.2]
    · left
      rfl
  · cases hget

end

/-- What a thread meets that downloads a file. -/
def sampleEvents : List Event :=
  [.go, .go, .go, .go, .go, .contentLength (some 3), .go, .go, .chunk 1]

/-- A download is cancelled, and the same file is downloaded again. -/
theorem separate_sample :
  ∃ h s, Run (fun s label s' => State.next (fun _ => [1, 2, 3]) s label = some s') {} h s
    ∧ (s.downloaders "url").map s.downloaded = some [1, 2] ∧ s.Own (fun _ => [1, 2, 3])
  := by
  obtain ⟨h, s, hrun, htest⟩ := Run.exists_of_traceM (State.next fun _ => [1, 2, 3]) {}
    (.downloadFile "url" (some "file") :: sampleEvents.map (.job 0)
      ++ [.cancel "url", .job 0 .cancelled] ++ List.replicate 4 (.job 0 .go)
      ++ .downloadFile "url" (some "file") :: sampleEvents.map (.job 1))
    (fun h s => (s.downloaders "url").map s.downloaded = some [1, 2] ∧ ∀ x ∈ h, x.1.Apart x.2)
    (by decide +kernel)
  obtain ⟨hdownloaded, hapart⟩ := of_decide_eq_true htest
  exact ⟨h, s, hrun, hdownloaded, (separate_of_run hrun hapart).2⟩

/-- An entry is removed, its URL is downloaded again, and the thread of the first download removes
the entry of the second. -/
theorem not_separate :
  ¬ ∀ (body : ℕ → Bytes) (h : List (State × Label)) (s : State),
    Run (fun s label s' => s.next body label = some s') {} h s →
      (∀ x ∈ h, x.1.Own body
        ∧ ∀ s', x.1.next body x.2 = some s' → x.1.OnlyOwn x.2 s' ∧ x.1.Kept x.2 s')
      ∧ s.Own body
  := by
  intro hall
  let body : ℕ → Bytes := fun _ => [1, 2, 3]
  obtain ⟨h, s, hrun, htest⟩ := Run.exists_of_traceM (State.next body) {}
    (.downloadFile "url" none :: List.replicate 5 (.job 0 .go)
      ++ .remove "url" :: .downloadFile "url" none :: List.replicate 5 (.job 1 .go)
      ++ [.job 0 .cancelled, .job 0 .go, .job 0 .go])
    (fun h _ => ∃ x ∈ h, x.2 = .job 0 .go
      ∧ x.1.downloaders "url" = some { path := none, txCancel := 1 }
      ∧ (x.1.jobs 1).any Job.cancelled = false
      ∧ (x.1.next body x.2).map (fun s' => s'.downloaders "url") = some none)
    (by decide)
  obtain ⟨x, hx, hlabel, hentry, hcancelled, hgone⟩ := of_decide_eq_true htest
  obtain ⟨s', hstep, hnone⟩ := Option.map_eq_some_iff.mp hgone
  obtain ⟨-, hkept⟩ := ((hall body h s hrun).1 x hx).2 s' hstep
  rcases hkept "url" _ hentry with ⟨e', he', -⟩ | hremove | hcancel | hfinished | herror
  · cases hnone.symm.trans he'
  · cases hlabel.symm.trans hremove
  · rw [hcancelled] at hcancel
    cases hcancel
  · cases hfinished
  · cases herror

end VynxDesk.Downloads
