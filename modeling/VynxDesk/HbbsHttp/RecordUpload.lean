import VynxDesk.Lib.HostPath
import VynxDesk.Lib.Patch
import VynxDesk.Lib.Run

/-!
# The upload of a recording

A recorder writes a file, and tells an upload thread of `src/hbbs_http/record_upload.rs` over a
channel what it does.  The thread sends to a server what the file has grown by, and the start of the
file when the recorder is done with it, as a recorder rewrites its header.  The steps of the thread
and those of the recorder come in any order.  The file of the server agrees with the local one from
the header on (`Inv`), so that nothing is skipped, and the two are equal at the end
(`reconstructs`).

The one `read` of the tail fills its buffer as far as the file goes; a shorter read is left out.
-/

namespace VynxDesk.RecordUpload

open Patch

abbrev Bytes : Type := List UInt8

/-- `MAX_HEADER_LEN`. -/
def maxHeaderLen : ℕ := 1024

/-- `SHOULD_SEND_TIME`, in nanoseconds. -/
def shouldSendTime : ℕ := 1000000000

/-- `SHOULD_SEND_SIZE`. -/
def shouldSendSize : ℕ := 1024 * 1024

/-- `RecordState`. -/
inductive RecordState where
  | newFile (filepath : String)
  | newFrame
  | writeTail
  | removeFile
  deriving DecidableEq, Repr

/-- What the thread sends. -/
inductive Request where
  | new (file : String)
  | part (file : String) (offset length : ℕ) (body : Bytes)
  | tail (file : String) (offset length : ℕ) (body : Bytes)
  | remove (file : String)
  deriving DecidableEq, Repr

/-- The files of the server. -/
abbrev Server : Type := String → Option Bytes

/-- What the server does with a request. -/
def Server.accept (server : Server) : Request → Server
  | .new file => Function.update server file (some [])
  | .part file offset _ body | .tail file offset _ body =>
      Function.update server file ((server file).map (overwrite 0 offset body))
  | .remove file => Function.update server file none

/-- `RecordUploader`. -/
structure RecordUploader where
  filepath : String := ""
  filename : String := ""
  uploadSize : ℕ := 0
  running : Bool := false
  lastSend : ℕ := 0
  deriving DecidableEq, Repr

/-- Where the thread is.  `handle_frame` opens the file, asks for its length, seeks, reads, and
sends; `handle_tail` flushes a frame, and then opens the file, reads, and sends. -/
inductive Pc where
  | recv
  | frameOpen (flush : Bool)
  | metadata (flush : Bool)
  | seek (flush : Bool) (len : ℕ)
  | read (flush : Bool) (len length : ℕ) (buf : Bytes)
  | sendPart (flush : Bool) (len length : ℕ) (buf : Bytes)
  | tailOpen
  | tailRead
  | sendTail (length : ℕ) (buf : Bytes)
  deriving DecidableEq, Repr

/-- A local file.  What is open can be read even when the file was removed. -/
structure LocalFile where
  bytes : Bytes
  removed : Bool := false
  deriving DecidableEq, Repr

/-- The local files, the file that the recorder writes, the channel, the thread and the server, and
what the thread has sent, the newest first. -/
structure State where
  files : String → Option LocalFile := fun _ => none
  writing : Option String := none
  channel : List RecordState := []
  uploader : RecordUploader := {}
  pc : Pc := .recv
  server : Server := fun _ => none
  sent : List Request := []

/-- A step of the recorder, or of the thread, which reads the clock and at most `n + 1` bytes. -/
inductive Label where
  | create (filepath : String) (bytes : Bytes)
  | write (bytes : Bytes)
  | frame
  | finish
  | discard (removed : Bool)
  | upload (now n : ℕ)
  deriving DecidableEq, Repr

namespace State

/-- The bytes of a file, which are there as long as someone has it open. -/
def bytesOf (s : State) (filepath : String) : Bytes :=
  ((s.files filepath).map LocalFile.bytes).getD []

/-- `File::open` finds the file. -/
def Opens (s : State) (filepath : String) : Prop :=
  (s.files filepath).map LocalFile.removed = some false

instance (s : State) (filepath : String) : Decidable (s.Opens filepath) :=
  inferInstanceAs (Decidable (_ = _))

/-- The request is sent. -/
def send (s : State) (request : Request) : State :=
  { s with server := s.server.accept request, sent := request :: s.sent }

/-- The thread stops the upload after an error. -/
def stop (s : State) : State :=
  { s with uploader := { s.uploader with running := false }, pc := .recv }

/-- What follows `handle_frame` when it is done. -/
def afterFrame (flush : Bool) : Pc := if flush then .tailOpen else .recv

section

variable (host : HostPath.Host)

/-- `handle_new_file`. -/
def handleNewFile (s : State) (filepath : String) (now : ℕ) : State :=
  match HostPath.fileName (HostPath.components host filepath) with
  | some filename =>
      { s with uploader := ⟨filepath, filename, 0, true, now⟩ }.send (.new filename)
  | none => s.stop

/-- The start of `handle_frame`. -/
def handleFrame (s : State) (flush : Bool) (now : ℕ) : State :=
  if !flush ∧ now - s.uploader.lastSend < shouldSendTime then s
  else { s with pc := .frameOpen flush }

/-- The round of the thread for a message. -/
def handle (s : State) (now : ℕ) : RecordState → State
  | .newFile filepath => s.handleNewFile host filepath now
  | .newFrame => if s.uploader.running then s.handleFrame false now else s
  | .writeTail => if s.uploader.running then s.handleFrame true now else s
  | .removeFile => if s.uploader.running then s.send (.remove s.uploader.filename) else s

/-- A step of the thread. -/
def upload (s : State) (now n : ℕ) : Option State :=
  let u := s.uploader
  match s.pc with
  | .recv =>
      match s.channel with
      | [] => none
      | state :: channel => some ({ s with channel := channel }.handle host now state)
  | .frameOpen flush =>
      some (if s.Opens u.filepath then { s with pc := .metadata flush } else s.stop)
  | .metadata flush =>
      let len := (s.bytesOf u.filepath).length
      if len ≤ u.uploadSize then some { s with pc := afterFrame flush }
      else if !flush ∧ len - u.uploadSize < shouldSendSize then
        some { s with pc := afterFrame flush }
      else some { s with pc := .seek flush len }
  | .seek flush len => some { s with pc := .read flush len 0 [] }
  | .read flush len length buf =>
      let more := ((s.bytesOf u.filepath).drop (u.uploadSize + length)).take (n + 1)
      if more = [] then some { s with pc := .sendPart flush len length buf }
      else some { s with pc := .read flush len (length + more.length) (buf ++ more) }
  | .sendPart flush len length buf =>
      some { s.send (.part u.filename u.uploadSize length buf) with
        uploader := { u with uploadSize := len, lastSend := now }
        pc := afterFrame flush }
  | .tailOpen => some (if s.Opens u.filepath then { s with pc := .tailRead } else s.stop)
  | .tailRead =>
      let buf := (s.bytesOf u.filepath).take maxHeaderLen
      some { s with pc := .sendTail buf.length buf }
  | .sendTail length buf => some { s.send (.tail u.filename 0 length buf) with pc := .recv }

/-- The recorder changes its files, goes on with `writing`, and tells the thread. -/
def record (s : State) (files : String → Option LocalFile) (writing : Option String)
    (states : List RecordState) : State :=
  { s with files := files, writing := writing, channel := s.channel ++ states }

/-- A step of the recorder, which appends to its file, or rewrites the header; or of the thread. -/
def Step (s : State) (label : Label) (s' : State) : Prop :=
  match label with
  | .create filepath bytes =>
      s.writing = none ∧ s.files filepath = none
        ∧ s' = s.record (Function.update s.files filepath (some ⟨bytes, false⟩)) (some filepath)
            [.newFile filepath]
  | .write bytes =>
      ∃ filepath f, s.writing = some filepath ∧ s.files filepath = some f
        ∧ Agree maxHeaderLen 0 f.bytes bytes
        ∧ s' = s.record (Function.update s.files filepath (some { f with bytes := bytes }))
            (some filepath) []
  | .frame => s.writing.isSome ∧ s' = s.record s.files s.writing [.newFrame]
  | .finish => s.writing.isSome ∧ s' = s.record s.files none [.writeTail]
  | .discard removed =>
      ∃ filepath f, s.writing = some filepath ∧ s.files filepath = some f
        ∧ s' = s.record (Function.update s.files filepath (some { f with removed := removed })) none
            [.removeFile]
  | .upload now n => s.upload host now n = some s'

end

/-- The recorder is done with the file. -/
def Closed (s : State) (filepath : String) : Prop :=
  (s.files filepath).isSome ∧ s.writing ≠ some filepath

/-- What a step sends is right: a part is as long as it says, and starts within what the server has;
and behind a tail the file of the server is the local one, which does not change any more. -/
structure Right (s s' : State) : Prop where
  part : ∀ file offset length body, s'.sent = .part file offset length body :: s.sent →
    length = body.length ∧ ∃ bytes, s.server file = some bytes ∧ offset ≤ bytes.length
  tail : ∀ file offset length body, s'.sent = .tail file offset length body :: s.sent →
    length = body.length ∧ s'.Closed s'.uploader.filepath
      ∧ s'.server file = some (s'.bytesOf s'.uploader.filepath)

end State

/-! ### The channel -/

/-- What the thread is about: nothing, a file, or one that the server has removed. -/
inductive Status where
  | idle
  | file (filepath : String)
  | orphan
  deriving DecidableEq, Repr

/-- What the thread is about behind a message. -/
def Status.after : Status → RecordState → Status
  | _, .newFile filepath => .file filepath
  | .idle, .removeFile => .idle
  | _, .removeFile => .orphan
  | status, _ => status

/-- What the thread is about behind the channel. -/
def target (status : Status) (channel : List RecordState) : Status :=
  channel.foldl Status.after status

/-- A message that may come: nothing but a new file comes behind a removed one, and the recorder is
done with a file when its `WriteTail` comes. -/
def Allowed (closed : String → Prop) (status : Status) : RecordState → Prop
  | .newFile _ => True
  | .newFrame | .removeFile => status ≠ .orphan
  | .writeTail => status ≠ .orphan ∧ ∀ t, status = .file t → closed t

/-- The messages of the channel may come. -/
def Settled (closed : String → Prop) : Status → List RecordState → Prop
  | _, [] => True
  | status, state :: channel =>
      Allowed closed status state ∧ Settled closed (status.after state) channel

section

variable {closed closed' : String → Prop} {status : Status} {channel : List RecordState}
  {state : RecordState}

theorem target_concat :
  target status (channel ++ [state]) = (target status channel).after state
  := List.foldl_concat _ _ _ _

theorem settled_concat :
  Settled closed status (channel ++ [state])
    ↔ Settled closed status channel ∧ Allowed closed (target status channel) state
  := by
  induction channel generalizing status with
  | nil => simp [Settled, target]
  | cons first channel ih => rw [List.cons_append, Settled, Settled, ih, target, and_assoc]; rfl

theorem Settled.mono (h : Settled closed status channel) (hclosed : ∀ t, closed t → closed' t) :
  Settled closed' status channel
  := by
  induction channel generalizing status with
  | nil => trivial
  | cons first channel ih =>
      refine ⟨?_, ih h.2⟩
      cases first with
      | newFile filepath => trivial
      | newFrame => exact h.1
      | writeTail => exact ⟨h.1.1, fun t ht => hclosed t (h.1.2 t ht)⟩
      | removeFile => exact h.1

/-- When the upload stops, every message may come that may come otherwise. -/
theorem Settled.stop (h : Settled closed status channel) :
  Settled closed .idle channel
  := by
  induction channel generalizing status with
  | nil => trivial
  | cons first channel ih =>
      cases first with
      | newFile filepath => exact ⟨trivial, h.2⟩
      | newFrame => exact ⟨nofun, ih h.2⟩
      | writeTail => exact ⟨⟨nofun, nofun⟩, ih h.2⟩
      | removeFile => exact ⟨nofun, ih h.2⟩

theorem target_stop (status : Status) (channel : List RecordState) :
  target .idle channel = .idle ∨ target .idle channel = target status channel
  := by
  induction channel generalizing status with
  | nil =>
      left
      rfl
  | cons first channel ih =>
      cases first with
      | newFile filepath =>
          right
          cases status <;> rfl
      | newFrame => exact ih _
      | writeTail => exact ih _
      | removeFile => exact ih _

end

/-! ### The invariant -/

/-- What the thread knows where it is: `copy` is the file of the server and `bytes` the local
one. -/
def PcInv (uploadSize : ℕ) (closed : Prop) (copy bytes : Bytes) : Pc → Prop
  | .recv => True
  | .frameOpen flush | .metadata flush => flush = true → closed
  | .seek flush len => (flush = true → closed) ∧ len ≤ bytes.length
  | .read flush len length buf =>
      (flush = true → closed) ∧ len ≤ bytes.length ∧ length = buf.length
        ∧ Agree maxHeaderLen uploadSize buf bytes
  | .sendPart flush len length buf =>
      (flush = true → closed ∧ bytes.length ≤ uploadSize + buf.length)
        ∧ len ≤ uploadSize + buf.length ∧ length = buf.length
        ∧ Agree maxHeaderLen uploadSize buf bytes
  | .tailOpen | .tailRead => closed ∧ copy.length = bytes.length
  | .sendTail length buf =>
      closed ∧ copy.length = bytes.length ∧ length = buf.length ∧ buf = bytes.take maxHeaderLen

/-- The copy of the file that is uploaded. -/
structure CopyInv (s : State) (copy : Bytes) : Prop where
  server : s.server s.uploader.filename = some copy
  uploadSize : s.uploader.uploadSize ≤ copy.length
  agree : Agree maxHeaderLen 0 copy (s.bytesOf s.uploader.filepath)
  pc : PcInv s.uploader.uploadSize (s.Closed s.uploader.filepath) copy
    (s.bytesOf s.uploader.filepath) s.pc

/-- What the thread is about. -/
def State.status (s : State) : Status :=
  if s.uploader.running then
    if (s.server s.uploader.filename).isSome then .file s.uploader.filepath else .orphan
  else .idle

/-- What holds in every state. -/
structure Inv (s : State) : Prop where
  writing : ∀ filepath, s.writing = some filepath → (s.files filepath).isSome
    ∧ (target s.status s.channel = .idle ∨ target s.status s.channel = .file filepath)
  settled : Settled s.Closed s.status s.channel
  busy : s.pc ≠ .recv → ∃ filepath, s.status = .file filepath
  copy : ∀ filepath, s.status = .file filepath → ∃ copy, CopyInv s copy

theorem Inv.start : Inv {}
  := by
  refine ⟨nofun, trivial, fun h => absurd rfl h, ?_⟩
  intro filepath h
  cases h

theorem status_eq_file {s : State} {filepath : String} (h : s.status = .file filepath) :
  s.uploader.running = true ∧ filepath = s.uploader.filepath
  := by
  rw [State.status] at h
  split_ifs at h with hrunning hserver
  exact ⟨hrunning, (Status.file.inj h).symm⟩

/-- What the thread knows stays true when the file grows, unless the recorder is done with it. -/
theorem PcInv.mono {uploadSize : ℕ} {closed closed' : Prop} {copy bytes bytes' : Bytes} {pc : Pc}
    (h : PcInv uploadSize closed copy bytes pc) (hgrow : Agree maxHeaderLen 0 bytes bytes')
    (hclosed : closed → closed' ∧ bytes' = bytes) :
  PcInv uploadSize closed' copy bytes' pc
  := by
  have hlength : bytes.length ≤ bytes'.length := by
    have hwithin := hgrow.within
    omega
  cases pc with
  | recv => trivial
  | frameOpen flush => exact fun hflush => (hclosed (h hflush)).1
  | metadata flush => exact fun hflush => (hclosed (h hflush)).1
  | seek flush len => exact ⟨fun hflush => (hclosed (h.1 hflush)).1, h.2.trans hlength⟩
  | read flush len length buf =>
      obtain ⟨hflush, hlen, hbuf, hagree⟩ := h
      exact ⟨fun hf => (hclosed (hflush hf)).1, hlen.trans hlength, hbuf, hagree.trans hgrow⟩
  | sendPart flush len length buf =>
      obtain ⟨hflush, hlen, hbuf, hagree⟩ := h
      refine ⟨?_, hlen, hbuf, hagree.trans hgrow⟩
      intro hf
      obtain ⟨hdone, hend⟩ := hflush hf
      obtain ⟨hdone', hsame⟩ := hclosed hdone
      rw [hsame]
      exact ⟨hdone', hend⟩
  | tailOpen =>
      obtain ⟨hdone, hsame⟩ := hclosed h.1
      rw [hsame]
      exact ⟨hdone, h.2⟩
  | tailRead =>
      obtain ⟨hdone, hsame⟩ := hclosed h.1
      rw [hsame]
      exact ⟨hdone, h.2⟩
  | sendTail length buf =>
      obtain ⟨hdone, hsame⟩ := hclosed h.1
      rw [hsame]
      exact ⟨hdone, h.2⟩

/-! ### Steps of the recorder -/

variable {host : HostPath.Host} {s s' : State} {label : Label}

/-- A step of the recorder keeps the invariant when files only grow, and those that it is done with
stay as they are. -/
theorem Inv.record (hinv : Inv s) {files : String → Option LocalFile} {writing : Option String}
    {states : List RecordState}
    (hgrow : ∀ t, Agree maxHeaderLen 0 (s.bytesOf t) ((s.record files writing states).bytesOf t))
    (hclosed : ∀ t, s.Closed t → files t = s.files t ∧ writing ≠ some t)
    (hwriting : ∀ filepath, writing = some filepath → (files filepath).isSome
      ∧ (target s.status (s.channel ++ states) = .idle
        ∨ target s.status (s.channel ++ states) = .file filepath))
    (hstates : states = [] ∨ ∃ state, states = [state]
      ∧ Allowed (s.record files writing states).Closed (target s.status s.channel) state) :
  Inv (s.record files writing states)
  := by
  have hdone (t : String) (ht : s.Closed t) : (s.record files writing states).Closed t := by
    obtain ⟨hsame, hne⟩ := hclosed t ht
    refine ⟨?_, hne⟩
    change (files t).isSome
    rw [hsame]
    exact ht.1
  constructor
  · exact hwriting
  · have hsettled := hinv.settled.mono hdone
    change Settled _ s.status (s.channel ++ states)
    rcases hstates with hnil | ⟨state, hone, hallowed⟩
    · rwa [hnil, List.append_nil] at *
    · rw [hone, settled_concat, ← hone]
      exact ⟨hsettled, hallowed⟩
  · exact hinv.busy
  · intro filepath hstatus
    obtain ⟨copy, hcopy⟩ := hinv.copy filepath hstatus
    refine ⟨copy, hcopy.server, hcopy.uploadSize, hcopy.agree.trans (hgrow _), ?_⟩
    apply hcopy.pc.mono (hgrow _)
    intro hdoneCurrent
    refine ⟨hdone _ hdoneCurrent, ?_⟩
    change ((files _).map LocalFile.bytes).getD [] = _
    rw [(hclosed _ hdoneCurrent).1]
    rfl

/-- A file is changed that the recorder is not done with. -/
theorem Inv.record_update (hinv : Inv s) {filepath : String} {f : LocalFile}
    {writing : Option String} {states : List RecordState}
    (hgrow : Agree maxHeaderLen 0 (s.bytesOf filepath) f.bytes) (hopen : ¬ s.Closed filepath)
    (hwriting : writing = none ∨ (writing = some filepath
      ∧ (target s.status (s.channel ++ states) = .idle
        ∨ target s.status (s.channel ++ states) = .file filepath)))
    (hstates : states = [] ∨ ∃ state, states = [state]
      ∧ Allowed (fun _ => False) (target s.status s.channel) state) :
  Inv (s.record (Function.update s.files filepath (some f)) writing states)
  := by
  apply hinv.record
  · intro t
    by_cases ht : t = filepath
    · rw [ht]
      change Agree _ _ _ (((Function.update s.files filepath (some f)) filepath).map _ |>.getD [])
      rw [Function.update_self]
      exact hgrow
    · change Agree _ _ _ (((Function.update s.files filepath (some f)) t).map _ |>.getD [])
      rw [Function.update_of_ne ht]
      exact Agree.refl _ _
  · intro t ht
    have hne : t ≠ filepath := by
      rintro rfl
      exact hopen ht
    refine ⟨Function.update_of_ne hne _ _, ?_⟩
    rcases hwriting with rfl | ⟨rfl, -⟩
    · nofun
    · exact fun hsame => hne (Option.some.inj hsame).symm
  · intro other hother
    rcases hwriting with rfl | ⟨rfl, htarget⟩
    · cases hother
    · obtain rfl := Option.some.inj hother
      refine ⟨?_, htarget⟩
      rw [Function.update_self]
      rfl
  · rcases hstates with hnil | ⟨state, hone, hallowed⟩
    · left
      exact hnil
    · right
      refine ⟨state, hone, ?_⟩
      cases state with
      | newFile filepath => trivial
      | newFrame => exact hallowed
      | writeTail => exact ⟨hallowed.1, fun t ht => absurd ht (fun h => hallowed.2 t h)⟩
      | removeFile => exact hallowed

/-- While the recorder writes, the thread is about no removed file behind the channel. -/
theorem Inv.target_ne_orphan (hinv : Inv s) {filepath : String} (h : s.writing = some filepath) :
  target s.status s.channel ≠ .orphan
  := by
  rcases (hinv.writing filepath h).2 with htarget | htarget
  · rw [htarget]
    nofun
  · rw [htarget]
    nofun

/-- A step of the recorder keeps the invariant. -/
theorem Inv.recorder (hinv : Inv s) (hstep : s.Step host label s')
    (hlabel : ∀ now n, label ≠ .upload now n) :
  Inv s'
  := by
  have hopen {filepath : String} (h : s.writing = some filepath) : ¬ s.Closed filepath :=
    fun hclosed => hclosed.2 h
  cases label with
  | create filepath bytes =>
      obtain ⟨-, hfresh, rfl⟩ := hstep
      apply hinv.record_update
      · rw [State.bytesOf, hfresh]
        exact Agree.nil (Nat.zero_le _)
      · intro hclosed
        have hexists := hclosed.1
        rw [hfresh] at hexists
        cases hexists
      · right
        rw [target_concat]
        exact ⟨rfl, .inr (by cases target s.status s.channel <;> rfl)⟩
      · right
        exact ⟨_, rfl, trivial⟩
  | write bytes =>
      obtain ⟨filepath, f, hwriting, hfile, hgrow, rfl⟩ := hstep
      apply hinv.record_update
      · rw [State.bytesOf, hfile]
        exact hgrow
      · exact hopen hwriting
      · right
        rw [List.append_nil]
        exact ⟨rfl, (hinv.writing filepath hwriting).2⟩
      · left
        rfl
  | frame =>
      obtain ⟨hwriting, rfl⟩ := hstep
      obtain ⟨filepath, hwriting⟩ := Option.isSome_iff_exists.mp hwriting
      apply hinv.record
      · intro t
        exact Agree.refl _ _
      · intro t ht
        exact ⟨rfl, ht.2⟩
      · intro other hother
        obtain ⟨hexists, htarget⟩ := hinv.writing other hother
        refine ⟨hexists, ?_⟩
        rw [target_concat]
        rcases htarget with htarget | htarget
        · left
          rw [htarget]
          rfl
        · right
          rw [htarget]
          rfl
      · right
        exact ⟨_, rfl, hinv.target_ne_orphan hwriting⟩
  | finish =>
      obtain ⟨hwriting, rfl⟩ := hstep
      obtain ⟨filepath, hwriting⟩ := Option.isSome_iff_exists.mp hwriting
      obtain ⟨hexists, htarget⟩ := hinv.writing filepath hwriting
      apply hinv.record
      · intro t
        exact Agree.refl _ _
      · intro t ht
        exact ⟨rfl, nofun⟩
      · intro _ hnone
        cases hnone
      · right
        refine ⟨_, rfl, hinv.target_ne_orphan hwriting, ?_⟩
        intro t ht
        rcases htarget with htarget | htarget
        · rw [htarget] at ht
          cases ht
        · rw [htarget] at ht
          cases ht
          exact ⟨hexists, nofun⟩
  | discard removed =>
      obtain ⟨filepath, f, hwriting, hfile, rfl⟩ := hstep
      apply hinv.record_update
      · rw [State.bytesOf, hfile]
        exact Agree.refl _ _
      · exact hopen hwriting
      · left
        rfl
      · right
        exact ⟨_, rfl, hinv.target_ne_orphan hwriting⟩
  | upload now n => exact absurd rfl (hlabel now n)

/-! ### Steps of the thread -/

/-- The upload stops. -/
theorem Inv.stop_of (hwriting : ∀ filepath, s.writing = some filepath → (s.files filepath).isSome
      ∧ (target .idle s.channel = .idle ∨ target .idle s.channel = .file filepath))
    (hsettled : Settled s.Closed .idle s.channel) :
  Inv s.stop
  := by
  refine ⟨hwriting, hsettled, fun h => absurd rfl h, ?_⟩
  intro filepath h
  cases h

theorem Inv.stop (hinv : Inv s) :
  Inv s.stop
  := by
  apply Inv.stop_of _ hinv.settled.stop
  intro filepath hwriting
  obtain ⟨hexists, htarget⟩ := hinv.writing filepath hwriting
  refine ⟨hexists, ?_⟩
  rcases target_stop s.status s.channel with hidle | hsame
  · left
    exact hidle
  · rw [hsame]
    exact htarget

/-- The thread goes on with the same file. -/
theorem Inv.of_copy (hinv : Inv s) {copy : Bytes} (hstatus : s.status = .file s.uploader.filepath)
    (hrecorder : s'.files = s.files ∧ s'.writing = s.writing ∧ s'.channel = s.channel)
    (huploader : s'.uploader.filepath = s.uploader.filepath ∧ s'.uploader.running = true)
    (hcopy : CopyInv s' copy) :
  Inv s'
  := by
  obtain ⟨hfiles, hwriting, hchannel⟩ := hrecorder
  have hsame : s'.status = s.status := by
    rw [hstatus, State.status, if_pos huploader.2, hcopy.server, huploader.1]
    rfl
  have hclosed : s'.Closed = s.Closed := by
    funext t
    rw [State.Closed, State.Closed, hfiles, hwriting]
  constructor
  · rw [hwriting, hfiles, hsame, hchannel]
    exact hinv.writing
  · rw [hclosed, hsame, hchannel]
    exact hinv.settled
  · exact fun _ => ⟨_, hsame.trans hstatus⟩
  · exact fun _ _ => ⟨copy, hcopy⟩

/-- The thread goes on to another place. -/
theorem Inv.goOn (hinv : Inv s) {pc : Pc} {copy : Bytes}
    (hstatus : s.status = .file s.uploader.filepath) (hcopy : CopyInv s copy)
    (hpc : PcInv s.uploader.uploadSize (s.Closed s.uploader.filepath) copy
      (s.bytesOf s.uploader.filepath) pc) :
  Inv { s with pc := pc }
  := by
  have hgone : CopyInv { s with pc := pc } copy :=
    ⟨hcopy.server, hcopy.uploadSize, hcopy.agree, hpc⟩
  exact hinv.of_copy hstatus ⟨rfl, rfl, rfl⟩ ⟨rfl, (status_eq_file hstatus).1⟩ hgone

/-- A frame is flushed when the whole file is there. -/
theorem PcInv.afterFrame {uploadSize : ℕ} {closed : Prop} {copy bytes : Bytes} {flush : Bool}
    (h : flush = true → closed ∧ copy.length = bytes.length) :
  PcInv uploadSize closed copy bytes (State.afterFrame flush)
  := by
  rw [State.afterFrame]
  split
  · rename_i hflush
    exact h hflush
  · trivial

/-- A message other than a new file is taken from the channel, and nothing is done. -/
theorem Inv.pop (hinv : Inv s) {state : RecordState} {channel : List RecordState}
    (hchannel : s.channel = state :: channel) (hstatus : s.status.after state = s.status) :
  Inv { s with channel := channel }
  := by
  have hwriting := hinv.writing
  have hsettled := hinv.settled
  rw [hchannel, target, List.foldl_cons, hstatus] at hwriting
  rw [hchannel, Settled, hstatus] at hsettled
  refine ⟨hwriting, hsettled.2, hinv.busy, ?_⟩
  intro filepath h
  obtain ⟨copy, hcopy⟩ := hinv.copy filepath h
  exact ⟨copy, hcopy.server, hcopy.uploadSize, hcopy.agree, hcopy.pc⟩

theorem status_of_running (h : s.uploader.running = true) (hne : s.status ≠ .orphan) :
  s.status = .file s.uploader.filepath
  := by
  rw [State.status, if_pos h] at hne ⊢
  split_ifs at hne ⊢
  · rfl
  · exact absurd rfl hne

theorem status_of_not_running (h : ¬ s.uploader.running = true) :
  s.status = .idle
  := by
  rw [State.status, if_neg h]

/-- The upload of a new file starts. -/
theorem Inv.handleNewFile (hinv : Inv s) {filepath : String} {channel : List RecordState} {now : ℕ}
    (hpc : s.pc = .recv) (hchannel : s.channel = .newFile filepath :: channel) :
  Inv ({ s with channel := channel }.handleNewFile host filepath now)
  := by
  have hwriting := hinv.writing
  have hsettled := hinv.settled
  have hafter : s.status.after (.newFile filepath) = .file filepath := by
    cases s.status <;> rfl
  rw [hchannel, target, List.foldl_cons, hafter] at hwriting
  rw [hchannel, Settled, hafter] at hsettled
  rw [State.handleNewFile]
  split
  · rename_i filename _
    have hstatus : ({ s with
        channel := channel
        uploader := ⟨filepath, filename, 0, true, now⟩ }.send (.new filename)).status
        = .file filepath := by
      simp [State.status, State.send, Server.accept]
    constructor
    · rw [hstatus]
      exact hwriting
    · rw [hstatus]
      exact hsettled.2
    · intro h
      exact absurd hpc h
    · intro _ _
      refine ⟨[], ?_, Nat.le_refl _, Agree.nil (Nat.zero_le _), ?_⟩
      · exact Function.update_self _ _ _
      · change PcInv _ _ _ _ s.pc
        rw [hpc]
        trivial
  · apply Inv.stop_of _ hsettled.2.stop
    intro other hother
    obtain ⟨hexists, htarget⟩ := hwriting other hother
    refine ⟨hexists, ?_⟩
    rcases target_stop (.file filepath) channel with hidle | hsame
    · left
      exact hidle
    · change target .idle channel = .idle ∨ target .idle channel = .file other
      rw [hsame]
      exact htarget

/-- The file of a frame is opened next, unless it is too early. -/
theorem Inv.handleFrame (hinv : Inv s) {flush : Bool} {now : ℕ}
    (hstatus : s.status = .file s.uploader.filepath)
    (hflush : flush = true → s.Closed s.uploader.filepath) :
  Inv (s.handleFrame flush now)
  := by
  rw [State.handleFrame]
  split
  · exact hinv
  · obtain ⟨copy, hcopy⟩ := hinv.copy _ hstatus
    exact hinv.goOn hstatus hcopy hflush

/-- A message is taken from the channel. -/
theorem Inv.handle (hinv : Inv s) {state : RecordState} {channel : List RecordState} {now : ℕ}
    (hpc : s.pc = .recv) (hchannel : s.channel = state :: channel) :
  Inv ({ s with channel := channel }.handle host now state)
  := by
  have hallowed : Allowed s.Closed s.status state := by
    have hsettled := hinv.settled
    rw [hchannel] at hsettled
    exact hsettled.1
  cases state with
  | newFile filepath => exact hinv.handleNewFile hpc hchannel
  | newFrame =>
      have hpop := hinv.pop hchannel (by cases s.status <;> rfl)
      rw [State.handle]
      split
      · rename_i hrunning
        exact hpop.handleFrame (status_of_running hrunning hallowed) nofun
      · exact hpop
  | writeTail =>
      have hpop := hinv.pop hchannel (by cases s.status <;> rfl)
      rw [State.handle]
      split
      · rename_i hrunning
        have hstatus := status_of_running hrunning hallowed.1
        exact hpop.handleFrame hstatus fun _ => hallowed.2 _ hstatus
      · exact hpop
  | removeFile =>
      rw [State.handle]
      by_cases hrunning : s.uploader.running = true
      · have hafter : s.status.after .removeFile = .orphan := by
          rw [status_of_running hrunning hallowed]
          rfl
        have hstatus : ({ s with channel := channel }.send (.remove s.uploader.filename)).status
            = .orphan := by
          simp [State.status, State.send, Server.accept, hrunning]
        have hwriting := hinv.writing
        have hsettled := hinv.settled
        rw [hchannel, target, List.foldl_cons, hafter] at hwriting
        rw [hchannel, Settled, hafter] at hsettled
        rw [if_pos hrunning]
        constructor
        · rw [hstatus]
          exact hwriting
        · rw [hstatus]
          exact hsettled.2
        · intro h
          exact absurd hpc h
        · intro filepath h
          rw [hstatus] at h
          cases h
      · rw [if_neg hrunning]
        apply hinv.pop hchannel
        rw [status_of_not_running hrunning]
        rfl

/-- A part is sent. -/
theorem CopyInv.sendPart {copy : Bytes} {flush : Bool} {len length now : ℕ} {buf : Bytes}
    (hcopy : CopyInv s copy) (hpc : s.pc = .sendPart flush len length buf) :
  CopyInv { s.send (.part s.uploader.filename s.uploader.uploadSize length buf) with
      uploader := { s.uploader with uploadSize := len, lastSend := now }
      pc := State.afterFrame flush }
    (overwrite 0 s.uploader.uploadSize buf copy)
  := by
  obtain ⟨hserver, hsize, hagree, hsend⟩ := hcopy
  rw [hpc] at hsend
  obtain ⟨hflush, hlen, -, hbuf⟩ := hsend
  have hcopyLength := hagree.within
  have hbufLength := hbuf.within
  have hlength : (overwrite 0 s.uploader.uploadSize buf copy).length
      = max copy.length (s.uploader.uploadSize + buf.length) := length_overwrite hsize
  constructor
  · change Function.update s.server _ _ _ = _
    rw [Function.update_self, hserver]
    rfl
  · change len ≤ _
    rw [hlength]
    omega
  · exact hagree.overwrite hbuf hsize
  · apply PcInv.afterFrame
    intro hf
    obtain ⟨hclosed, hend⟩ := hflush hf
    refine ⟨hclosed, ?_⟩
    change _ = (s.bytesOf s.uploader.filepath).length
    rw [hlength]
    omega

/-- The tail is sent. -/
theorem CopyInv.sendTail {copy : Bytes} {length : ℕ} {buf : Bytes} (hcopy : CopyInv s copy)
    (hpc : s.pc = .sendTail length buf) :
  overwrite 0 0 buf copy = s.bytesOf s.uploader.filepath
  := by
  have hsend := hcopy.pc
  rw [hpc] at hsend
  obtain ⟨-, hlength, -, rfl⟩ := hsend
  exact overwrite_take hcopy.agree hlength

/-- The file is read on, or its end is reached. -/
theorem Inv.read (hinv : Inv s) {flush : Bool} {len length n : ℕ} {buf : Bytes}
    (hpc : s.pc = .read flush len length buf) (hstatus : s.status = .file s.uploader.filepath) :
  Inv (
    let more := ((s.bytesOf s.uploader.filepath).drop (s.uploader.uploadSize + length)).take (n + 1)
    if more = [] then { s with pc := .sendPart flush len length buf }
    else { s with pc := .read flush len (length + more.length) (buf ++ more) })
  := by
  obtain ⟨copy, hcopy⟩ := hinv.copy _ hstatus
  have hread := hcopy.pc
  rw [hpc] at hread
  obtain ⟨hflush, hlen, rfl, hbuf⟩ := hread
  dsimp only
  split
  · rename_i hend
    apply hinv.goOn hstatus hcopy
    rw [List.take_eq_nil_iff, List.drop_eq_nil_iff] at hend
    have hend := hend.resolve_left (Nat.succ_ne_zero n)
    exact ⟨fun hf => ⟨hflush hf, hend⟩, hlen.trans hend, rfl, hbuf⟩
  · apply hinv.goOn hstatus hcopy
    exact ⟨hflush, hlen, List.length_append.symm, hbuf.append_take (n + 1)⟩

/-- A step of the thread keeps the invariant. -/
theorem Inv.upload (hinv : Inv s) {now n : ℕ} (hstep : s.upload host now n = some s') :
  Inv s'
  := by
  rw [State.upload] at hstep
  dsimp only at hstep
  by_cases hrecv : s.pc = .recv
  · rw [hrecv] at hstep
    dsimp only at hstep
    split at hstep
    · cases hstep
    · rename_i state channel hchannel
      cases hstep
      have hhandled := @Inv.handle host s hinv state channel now hrecv hchannel
      rwa [hrecv] at hhandled
  obtain ⟨_, hfile⟩ := hinv.busy hrecv
  obtain ⟨hrunning, rfl⟩ := status_eq_file hfile
  obtain ⟨copy, hcopy⟩ := hinv.copy _ hfile
  have hplace := hcopy.pc
  have hsize := hcopy.uploadSize
  have hagree := hcopy.agree.within
  cases hpc : s.pc with
  | recv => exact absurd hpc hrecv
  | frameOpen flush =>
      rw [hpc] at hstep hplace
      cases hstep
      split
      · exact hinv.goOn hfile hcopy hplace
      · exact hinv.stop
  | metadata flush =>
      rw [hpc] at hstep hplace
      dsimp only at hstep
      split at hstep
      · rename_i hnothing
        cases hstep
        apply hinv.goOn hfile hcopy
        exact PcInv.afterFrame fun hf => ⟨hplace hf, by omega⟩
      · split at hstep
        · rename_i hlittle
          cases hstep
          apply hinv.goOn hfile hcopy
          apply PcInv.afterFrame
          intro hf
          rw [hf] at hlittle
          cases hlittle.1
        · cases hstep
          exact hinv.goOn hfile hcopy ⟨hplace, Nat.le_refl _⟩
  | seek flush len =>
      rw [hpc] at hstep hplace
      cases hstep
      exact hinv.goOn hfile hcopy ⟨hplace.1, hplace.2, rfl, Agree.nil (by omega)⟩
  | read flush len length buf =>
      rw [hpc] at hstep
      have hread := @Inv.read s hinv flush len length n buf hpc hfile
      dsimp only at hstep hread
      split at hstep
      · rename_i hend
        cases hstep
        rwa [if_pos hend] at hread
      · rename_i hmore
        cases hstep
        rwa [if_neg hmore] at hread
  | sendPart flush len length buf =>
      rw [hpc] at hstep
      cases hstep
      exact hinv.of_copy hfile ⟨rfl, rfl, rfl⟩ ⟨rfl, hrunning⟩ (hcopy.sendPart hpc)
  | tailOpen =>
      rw [hpc] at hstep hplace
      cases hstep
      split
      · exact hinv.goOn hfile hcopy hplace
      · exact hinv.stop
  | tailRead =>
      rw [hpc] at hstep hplace
      cases hstep
      exact hinv.goOn hfile hcopy ⟨hplace.1, hplace.2, rfl, rfl⟩
  | sendTail length buf =>
      rw [hpc] at hstep
      cases hstep
      have hdone : CopyInv { s.send (.tail s.uploader.filename 0 length buf) with pc := .recv }
          (overwrite 0 0 buf copy) := by
        rw [hcopy.sendTail hpc]
        refine ⟨?_, ?_, Agree.refl _ _, trivial⟩
        · change Function.update s.server s.uploader.filename _ s.uploader.filename = _
          rw [Function.update_self, hcopy.server, ← hcopy.sendTail hpc]
        · change s.uploader.uploadSize ≤ (s.bytesOf s.uploader.filepath).length
          omega
      exact hinv.of_copy hfile ⟨rfl, rfl, rfl⟩ ⟨rfl, hrunning⟩ hdone

theorem Inv.step (hinv : Inv s) (hstep : s.Step host label s') :
  Inv s'
  := by
  cases label with
  | upload now n => exact hinv.upload hstep
  | _ => exact hinv.recorder hstep nofun

/-! ### What is sent -/

/-- Handling a message sends nothing, or that there is a new file, or that a file is removed. -/
theorem sent_handle (s : State) (now : ℕ) (state : RecordState) :
  (s.handle host now state).sent = s.sent
    ∨ ∃ file, (s.handle host now state).sent = .new file :: s.sent
      ∨ (s.handle host now state).sent = .remove file :: s.sent
  := by
  have hframe (flush : Bool) : (s.handleFrame flush now).sent = s.sent := by
    rw [State.handleFrame]
    split <;> rfl
  cases state with
  | newFile filepath =>
      rw [State.handle, State.handleNewFile]
      split
      · right
        exact ⟨_, .inl rfl⟩
      · left
        rfl
  | newFrame =>
      left
      rw [State.handle]
      split
      · exact hframe false
      · rfl
  | writeTail =>
      left
      rw [State.handle]
      split
      · exact hframe true
      · rfl
  | removeFile =>
      rw [State.handle]
      split
      · right
        exact ⟨_, .inr rfl⟩
      · left
        rfl

/-- What a step sends. -/
theorem sent_step (hstep : s.Step host label s') :
  (s'.sent = s.sent ∨ ∃ file, s'.sent = .new file :: s.sent ∨ s'.sent = .remove file :: s.sent)
    ∨ (∃ flush len length buf, s.pc = .sendPart flush len length buf
      ∧ s'.sent = .part s.uploader.filename s.uploader.uploadSize length buf :: s.sent)
    ∨ ∃ length buf, s.pc = .sendTail length buf
      ∧ s' = { s.send (.tail s.uploader.filename 0 length buf) with pc := .recv }
  := by
  cases label with
  | create filepath bytes =>
      obtain ⟨-, -, rfl⟩ := hstep
      exact .inl (.inl rfl)
  | write bytes =>
      obtain ⟨filepath, f, -, -, -, rfl⟩ := hstep
      exact .inl (.inl rfl)
  | frame =>
      obtain ⟨-, rfl⟩ := hstep
      exact .inl (.inl rfl)
  | finish =>
      obtain ⟨-, rfl⟩ := hstep
      exact .inl (.inl rfl)
  | discard removed =>
      obtain ⟨filepath, f, -, -, rfl⟩ := hstep
      exact .inl (.inl rfl)
  | upload now n =>
      change s.upload host now n = some s' at hstep
      rw [State.upload] at hstep
      cases hpc : s.pc with
      | recv =>
          rw [hpc] at hstep
          dsimp only at hstep
          split at hstep
          · cases hstep
          · cases hstep
            exact .inl (sent_handle _ _ _)
      | frameOpen flush =>
          rw [hpc] at hstep
          cases hstep
          left
          left
          split <;> rfl
      | metadata flush =>
          rw [hpc] at hstep
          dsimp only at hstep
          split_ifs at hstep <;> cases hstep <;> exact .inl (.inl rfl)
      | seek flush len =>
          rw [hpc] at hstep
          cases hstep
          exact .inl (.inl rfl)
      | read flush len length buf =>
          rw [hpc] at hstep
          dsimp only at hstep
          split_ifs at hstep <;> cases hstep <;> exact .inl (.inl rfl)
      | sendPart flush len length buf =>
          rw [hpc] at hstep
          cases hstep
          exact .inr (.inl ⟨flush, len, length, buf, rfl, rfl⟩)
      | tailOpen =>
          rw [hpc] at hstep
          cases hstep
          left
          left
          split <;> rfl
      | tailRead =>
          rw [hpc] at hstep
          cases hstep
          exact .inl (.inl rfl)
      | sendTail length buf =>
          rw [hpc] at hstep
          cases hstep
          exact .inr (.inr ⟨length, buf, rfl, rfl⟩)

/-- A step that sends neither a part nor a tail has nothing to be right about. -/
theorem right_of_sent (hsent : s'.sent = s.sent
      ∨ ∃ file, s'.sent = .new file :: s.sent ∨ s'.sent = .remove file :: s.sent) :
  s.Right s'
  := by
  constructor
  · intro file offset length body hpart
    rw [hpart] at hsent
    rcases hsent with hsame | ⟨_, hnew | hremove⟩
    · exact absurd hsame (List.cons_ne_self _ _)
    · cases hnew
    · cases hremove
  · intro file offset length body htail
    rw [htail] at hsent
    rcases hsent with hsame | ⟨_, hnew | hremove⟩
    · exact absurd hsame (List.cons_ne_self _ _)
    · cases hnew
    · cases hremove

/-- What a step sends is right. -/
theorem Inv.right (hinv : Inv s) (hstep : s.Step host label s') :
  s.Right s'
  := by
  rcases sent_step hstep with hsent | ⟨flush, len, length, buf, hpc, hsent⟩ |
    ⟨length, buf, hpc, rfl⟩
  · exact right_of_sent hsent
  · obtain ⟨_, hstatus⟩ := hinv.busy (by rw [hpc]; nofun)
    obtain ⟨copy, hcopy⟩ := hinv.copy _ hstatus
    have hplace := hcopy.pc
    rw [hpc] at hplace
    constructor
    · intro _ _ _ _ hpart
      cases hsent.symm.trans hpart
      exact ⟨hplace.2.2.1, copy, hcopy.server, hcopy.uploadSize⟩
    · intro _ _ _ _ htail
      cases hsent.symm.trans htail
  · obtain ⟨_, hstatus⟩ := hinv.busy (by rw [hpc]; nofun)
    obtain ⟨copy, hcopy⟩ := hinv.copy _ hstatus
    have hplace := hcopy.pc
    rw [hpc] at hplace
    constructor
    · intro _ _ _ _ hpart
      cases hpart
    · intro _ _ _ _ htail
      cases htail
      refine ⟨hplace.2.2.1, hplace.1, ?_⟩
      change Function.update s.server s.uploader.filename _ s.uploader.filename
        = some (s.bytesOf s.uploader.filepath)
      rw [Function.update_self, hcopy.server, ← hcopy.sendTail hpc]
      rfl

/-- In every run, every part is as long as it says and starts within what the server has, and behind
every tail the file of the server is the local one. -/
theorem reconstructs {h : List (State × Label)} {s : State} (hrun : Run (State.Step host) {} h s) :
  ∀ x ∈ h, ∀ s', x.1.Step host x.2 s' → x.1.Right s'
  := by
  intro x hx s' hstep
  have hinv := hrun.forall_of (fun _ _ => True) Inv Inv Inv.start (fun _ => id)
    (fun _ _ _ hinv _ => hinv.step) (fun _ _ => trivial)
  exact (hinv.1 x hx).right hstep

/-- A short recording, whose header is rewritten, and its upload. -/
theorem reconstructs_sample :
  ∃ h s, Run (State.Step .unix) {} h s ∧ s.server "a.webm" = some [9, 2, 3, 4]
    ∧ (∀ x ∈ h, ∀ s', x.1.Step .unix x.2 s' → x.1.Right s')
  := by
  have hgrow : Agree maxHeaderLen 0 [1, 2, 3] ([9, 2, 3, 4] : Bytes) :=
    ⟨by decide, fun i hk hi => absurd hk (by simp at hi; unfold maxHeaderLen; omega)⟩
  have hcreate : State.Step .unix {} (.create "/r/a.webm" [1, 2, 3]) _ := ⟨rfl, rfl, rfl⟩
  have hwrite (s : State) (hwriting : s.writing = some "/r/a.webm")
      (hfile : s.files "/r/a.webm" = some ⟨[1, 2, 3], false⟩) :
      s.Step .unix (.write [9, 2, 3, 4]) _ := ⟨_, _, hwriting, hfile, hgrow, rfl⟩
  have hfinish (s : State) (hwriting : s.writing.isSome) : s.Step .unix .finish _ :=
    ⟨hwriting, rfl⟩
  have hwritten := (Run.nil.snoc hcreate).snoc (hwrite _ rfl rfl)
  have hfinished := hwritten.snoc (hfinish _ rfl)
  have hupload {s s' : State} (h : s.upload .unix 0 9 = some s') :
      s.Step .unix (.upload 0 9) s' := h
  have hstarted := (hfinished.snoc (hupload rfl)).snoc (hupload rfl)
  have hseek := ((hstarted.snoc (hupload rfl)).snoc (hupload rfl)).snoc (hupload rfl)
  have hpart := ((hseek.snoc (hupload rfl)).snoc (hupload rfl)).snoc (hupload rfl)
  have htail := ((hpart.snoc (hupload rfl)).snoc (hupload rfl)).snoc (hupload rfl)
  exact ⟨_, _, htail, by decide, reconstructs htail⟩

end VynxDesk.RecordUpload
