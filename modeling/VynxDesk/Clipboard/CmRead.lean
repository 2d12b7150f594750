import VynxDesk.Clipboard.Proto
import VynxDesk.Lib.Run

/-!
# Reading the clipboard through the connection manager

`read_clipboard_from_cm_ipc` of `clipboard_service.rs` asks the connection manager for the clipboard
over a stream that it keeps between calls.  The manager (`IpcTaskRunner::run` of
`ui_cm_interface.rs`) answers each request with a message and, if some content is long, with a raw
block of the long contents.  A call whose wait for the message times out leaves its answer to the
next one, and one whose wait for the block times out returns without the contents (`not_own`); where
neither happens, a call returns what was read for it (`own_of_run`).

The model is of one service.  The history of a state tells which clipboard was read for which call.
-/

namespace VynxDesk.Contents.CmRead

/-- `ClipboardNonFile`. -/
structure ClipboardNonFile where
  compress : Bool
  content : Bytes
  contentLen : ℕ
  nextRaw : Bool
  width : Int32
  height : Int32
  format : EnumOrUnknown ClipboardFormat
  specialName : String
  deriving DecidableEq

/-- What comes over the stream to the service: the first message of the manager, the message of an
answer, its raw block. -/
inductive Packet where
  | monitorReady
  | main (err : String) (contents : List ClipboardNonFile)
  | raw (data : Bytes)
  deriving DecidableEq

/-! ## The manager -/

/-- A content that goes into the raw block. -/
def isLong (c : Clipboard) : Bool := c.content.length > 1024 * 3

/-- An entry with the content of `c`. -/
def whole (c : Clipboard) : ClipboardNonFile where
  compress := c.compress
  content := c.content
  contentLen := c.content.length
  nextRaw := isLong c
  width := c.width
  height := c.height
  format := c.format
  specialName := c.specialName

/-- The entry of `main_data`. -/
def mainEntry (c : Clipboard) : ClipboardNonFile :=
  { whole c with content := if isLong c then [] else c.content }

/-- `raw_contents`. -/
def rawContents (clipboards : List Clipboard) : Bytes :=
  (clipboards.filter isLong).flatMap fun c => c.content

/-- What the manager answers with when `check_clipboard_cm` returns `clipboards`. -/
def answer (clipboards : List Clipboard) : List Packet :=
  .main "" (clipboards.map mainEntry)
    :: if rawContents clipboards = [] then [] else [.raw (rawContents clipboards)]

/-! ## The service -/

/-- The loop over `contents`; `split_to` panics where there are too few bytes. -/
def fill : List ClipboardNonFile → Bytes → Option (List ClipboardNonFile)
  | [], _ => some []
  | c :: contents, data =>
      if c.nextRaw then
        if c.contentLen ≤ data.length then
          (fill contents (data.drop c.contentLen)).map
            ({ c with content := data.take c.contentLen } :: ·)
        else none
      else (fill contents data).map (c :: ·)

/-- A stream: the calls whose requests the manager has not answered, and what is on its way to the
service.  A stream that is reset gets no more answers. -/
structure Stream where
  requests : List ℕ
  packets : List Packet
  alive : Bool
  deriving DecidableEq

/-- The service is between two calls, waits for a message, or waits for a raw block. -/
inductive Phase where
  | idle
  | waiting
  | raw (contents : List ClipboardNonFile)
  deriving DecidableEq

/-- The service.  Of the history: the number of calls, which is the number of the last one; which
clipboards were read for a call; and what calls returned with `Ok`. -/
structure System where
  stream : Option Stream := none
  phase : Phase := .idle
  calls : ℕ := 0
  answered : List (ℕ × List Clipboard) := []
  returned : List (ℕ × List ClipboardNonFile) := []
  deriving DecidableEq

namespace System

/-- The call returns an error. -/
def fails (s : System) : System := { s with phase := .idle }

/-- The call returns `contents`. -/
def returns (s : System) (contents : List ClipboardNonFile) : System :=
  { s with phase := .idle, returned := s.returned ++ [(s.calls, contents)] }

/-- A call sends its request over a new stream, if it is `connected`, which may begin with
`MonitorReady`. -/
def connect (s : System) (connected greets : Bool) : System :=
  if connected then
    { s with
      stream := some ⟨[s.calls], if greets then [.monitorReady] else [], true⟩
      phase := .waiting }
  else s.fails

/-- A call sends its request over the stream that is there, if it is `sent`; else over a new one. -/
def call (s : System) (sent connected greets : Bool) : System :=
  let s := { s with calls := s.calls + 1 }
  match s.stream.filter fun _ => sent with
  | some stream =>
      { s with
        stream := some
          { stream with requests := if stream.alive then stream.requests ++ [s.calls] else [] }
        phase := .waiting }
  | none => s.connect connected greets

/-- The service takes the next message, or learns that there is none. -/
def next (s : System) (stream : Stream) : Option System :=
  match stream.packets with
  | .monitorReady :: packets => some { s with stream := some { stream with packets := packets } }
  | .main err contents :: packets =>
      let s := { s with stream := some { stream with packets := packets } }
      if err ≠ "" then some s.fails
      else if contents.any ClipboardNonFile.nextRaw then some { s with phase := .raw contents }
      else some (s.returns contents)
  | .raw _ :: packets => some { s with stream := some { stream with packets := packets } }.fails
  | [] => if stream.alive then none else some s.fails

/-- The service takes the raw block; `json` is what it takes for one where another message is
next. -/
def nextRaw (s : System) (stream : Stream) (contents : List ClipboardNonFile) (json : Bytes) :
    Option System :=
  match stream.packets with
  | packet :: packets =>
      let data :=
        match packet with
        | .raw data => data
        | _ => json
      let s := { s with stream := some { stream with packets := packets } }
      some (((fill contents data).map s.returns).getD s.fails)
  | [] => if stream.alive then none else some { s with stream := none }.fails

end System

/-- The steps: a call begins; the manager answers the next request, with the clipboard it has read
or with an error; the stream is reset; the service takes what is next; its wait times out. -/
inductive Label where
  | call (sent connected greets : Bool)
  | answer (clipboards : List Clipboard)
  | answerErr (err : String)
  | reset
  | next (json : Bytes)
  | elapse
  deriving DecidableEq

/-- One step. -/
def step (s : System) : Label → Option System
  | .call sent connected greets =>
      if s.phase = .idle then some (s.call sent connected greets) else none
  | .answer clipboards =>
      match s.stream with
      | some ⟨id :: requests, packets, true⟩ =>
          some { s with
            stream := some ⟨requests, packets ++ answer clipboards, true⟩
            answered := s.answered ++ [(id, clipboards)] }
      | _ => none
  | .answerErr err =>
      match s.stream with
      | some ⟨_ :: requests, packets, true⟩ =>
          some { s with stream := some ⟨requests, packets ++ [.main err []], true⟩ }
      | _ => none
  | .reset =>
      s.stream.map fun stream =>
        { s with stream := some { stream with requests := [], alive := false } }
  | .next json =>
      match s.phase, s.stream with
      | .waiting, some stream => s.next stream
      | .raw contents, some stream => s.nextRaw stream contents json
      | _, _ => none
  | .elapse =>
      match s.phase with
      | .idle => none
      | .waiting => some s.fails
      | .raw contents => some ({ s with stream := none }.returns contents)

/-- The steps as a relation. -/
def Step (s : System) (l : Label) (s' : System) : Prop := step s l = some s'

/-- What a call returns is the clipboard that was read for it, with all contents. -/
def Fresh (s : System) : Prop :=
  ∀ id contents, (id, contents) ∈ s.returned →
    ∃ clipboards, (id, clipboards) ∈ s.answered ∧ contents = clipboards.map whole

/-- No answer is on its way, or owed. -/
def Stream.clean (stream : Stream) : Bool :=
  stream.requests == [] && stream.packets.all (· == .monitorReady)

/-- A call uses the stream that is there only if it is clean; no error has an empty text; and the
wait for a raw block does not time out. -/
def System.orderly (s : System) : Label → Bool
  | .call sent _ _ => !sent || s.stream.all Stream.clean
  | .answerErr err => err != ""
  | .elapse => s.phase == .idle || s.phase == .waiting
  | _ => true

/-! ## Answers -/

/-- The entries are filled with what the manager took out of them. -/
theorem fill_rawContents (clipboards : List Clipboard) :
  fill (clipboards.map mainEntry) (rawContents clipboards) = some (clipboards.map whole)
  := by
  induction clipboards with
  | nil => rfl
  | cons c clipboards ih =>
      rw [List.map_cons, List.map_cons, fill]
      cases hlong : isLong c with
      | false =>
          have hraw : rawContents (c :: clipboards) = rawContents clipboards := by
            rw [rawContents, List.filter_cons_of_neg (Bool.not_eq_true _ ▸ hlong), rawContents]
          have hentry : mainEntry c = whole c := by
            rw [mainEntry, hlong]
            rfl
          have hnextRaw : (whole c).nextRaw = false := hlong
          rw [hraw, hentry, hnextRaw, if_neg Bool.false_ne_true, ih]
          rfl
      | true =>
          have hraw : rawContents (c :: clipboards) = c.content ++ rawContents clipboards := by
            rw [rawContents, List.filter_cons_of_pos hlong, List.flatMap_cons, rawContents]
          have hnextRaw : (mainEntry c).nextRaw = true := hlong
          have hlen : (mainEntry c).contentLen = c.content.length := rfl
          have hle : c.content.length ≤ (c.content ++ rawContents clipboards).length := by
            rw [List.length_append]
            exact Nat.le_add_right _ _
          rw [hraw, if_pos hnextRaw, hlen, if_pos hle, List.drop_left, List.take_left, ih]
          rfl

/-- Without long contents the entries are whole. -/
theorem map_mainEntry (clipboards : List Clipboard)
    (h : (clipboards.map mainEntry).any ClipboardNonFile.nextRaw = false) :
  clipboards.map mainEntry = clipboards.map whole
  := by
  apply List.map_congr_left
  intro c hc
  have hlong : ¬ isLong c = true := List.any_eq_false.mp h _ (List.mem_map_of_mem hc)
  rw [mainEntry, if_neg hlong]
  rfl

/-- With a long content there is a raw block. -/
theorem rawContents_ne_nil (clipboards : List Clipboard)
    (h : (clipboards.map mainEntry).any ClipboardNonFile.nextRaw = true) :
  rawContents clipboards ≠ []
  := by
  rw [List.any_map, List.any_eq_true] at h
  obtain ⟨c, hc, hlong⟩ := h
  change isLong c = true at hlong
  intro hnil
  have hempty := List.flatMap_eq_nil_iff.mp hnil c (List.mem_filter.mpr ⟨hc, hlong⟩)
  rw [isLong, hempty] at hlong
  cases hlong

/-! ## The steps -/

/-- The answer to the request of a call is owed, or next behind the first messages. -/
def Awaits (answered : List (ℕ × List Clipboard)) (id : ℕ) (stream : Stream) : Prop :=
  ∃ greets rest, stream.packets = greets ++ rest ∧ (∀ p ∈ greets, p = .monitorReady)
    ∧ (stream.requests = [id] ∧ rest = []
      ∨ stream.requests = [] ∧ (rest = [] ∨ (∃ err, err ≠ "" ∧ rest = [.main err []])
        ∨ ∃ clipboards, (id, clipboards) ∈ answered ∧ rest = answer clipboards))

/-- The raw block of the answer to a call is next. -/
structure AwaitsRaw (answered : List (ℕ × List Clipboard)) (id : ℕ)
    (contents : List ClipboardNonFile) (clipboards : List Clipboard) (stream : Stream) : Prop where
  requests : stream.requests = []
  packets : stream.packets = [.raw (rawContents clipboards)]
  contents : contents = clipboards.map mainEntry
  read : (id, clipboards) ∈ answered

/-- What holds where calls are orderly. -/
structure Inv (s : System) : Prop where
  fresh : Fresh s
  waiting : s.phase = .waiting →
    ∃ stream, s.stream = some stream ∧ Awaits s.answered s.calls stream
  raw : ∀ contents, s.phase = .raw contents →
    ∃ stream clipboards, s.stream = some stream
      ∧ AwaitsRaw s.answered s.calls contents clipboards stream

section

variable {s s' : System} {stream : Stream}

/-- A call ends with an error. -/
theorem Inv.fails {s : System} (h : Fresh s) : Inv s.fails
  := by
  refine ⟨h, ?_, ?_⟩
  · rintro ⟨⟩
  · rintro contents ⟨⟩

/-- A call returns what was read for it. -/
theorem Inv.returns {s : System} (h : Fresh s) {clipboards : List Clipboard}
    (hread : (s.calls, clipboards) ∈ s.answered) :
  Inv (s.returns (clipboards.map whole))
  := by
  refine ⟨?_, ?_, ?_⟩
  · intro id contents hmem
    rcases List.mem_append.mp hmem with hold | hnew
    · exact h id contents hold
    · obtain ⟨rfl, rfl⟩ := Prod.mk.inj (List.mem_singleton.mp hnew)
      exact ⟨clipboards, hread, rfl⟩
  · rintro ⟨⟩
  · rintro contents ⟨⟩

/-- A call waits for its answer. -/
theorem Inv.waits {s : System} (h : Fresh s) (hstream : s.stream = some stream)
    (hphase : s.phase = .waiting) (hawaits : Awaits s.answered s.calls stream) :
  Inv s
  := by
  refine ⟨h, fun _ => ⟨stream, hstream, hawaits⟩, ?_⟩
  intro contents hraw
  rw [hphase] at hraw
  cases hraw

theorem Inv.connect {s : System} (h : Fresh s) (connected greets : Bool) :
  Inv (s.connect connected greets)
  := by
  rw [System.connect]
  split
  next =>
      refine Inv.waits h rfl rfl ⟨_, [], (List.append_nil _).symm, ?_, Or.inl ⟨rfl, rfl⟩⟩
      intro p hp
      cases greets with
      | true => exact List.mem_singleton.mp hp
      | false => cases hp
  next => exact Inv.fails h

theorem Inv.call (h : Inv s) {sent connected greets : Bool}
    (horderly : s.orderly (.call sent connected greets) = true) :
  Inv (s.call sent connected greets)
  := by
  rw [System.call]
  dsimp only
  split
  next stream hstream =>
      obtain ⟨hstream, hsent⟩ := Option.filter_eq_some_iff.mp hstream
      rw [System.orderly, hstream, hsent] at horderly
      obtain ⟨hrequests, hgreets⟩ := Bool.and_eq_true_iff.mp horderly
      rw [beq_iff_eq] at hrequests
      rw [List.all_eq_true] at hgreets
      refine Inv.waits h.fresh rfl rfl ⟨stream.packets, [], (List.append_nil _).symm,
        fun p hp => beq_iff_eq.mp (hgreets p hp), ?_⟩
      change (if stream.alive then stream.requests ++ [s.calls + 1] else []) = [s.calls + 1] ∧ _
        ∨ (if stream.alive then stream.requests ++ [s.calls + 1] else []) = [] ∧ _
      rw [hrequests]
      split
      next => exact Or.inl ⟨rfl, rfl⟩
      next => exact Or.inr ⟨rfl, Or.inl rfl⟩
  next => exact Inv.connect (s := { s with calls := s.calls + 1 }) h.fresh connected greets

/-- The manager answers, or the stream is reset. -/
theorem Inv.setStream (h : Inv s) {stream stream' : Stream} (hstream : s.stream = some stream)
    {answered : List (ℕ × List Clipboard)} (hmono : ∀ x ∈ s.answered, x ∈ answered)
    (hwaiting : Awaits s.answered s.calls stream → Awaits answered s.calls stream')
    (hraw : stream.requests = [] → stream'.requests = [] ∧ stream'.packets = stream.packets) :
  Inv { s with stream := some stream', answered := answered }
  := by
  refine ⟨?_, ?_, ?_⟩
  · intro id contents hmem
    obtain ⟨clipboards, hread, hcontents⟩ := h.fresh id contents hmem
    exact ⟨clipboards, hmono _ hread, hcontents⟩
  · intro hphase
    obtain ⟨other, hother, hawaits⟩ := h.waiting hphase
    obtain rfl := Option.some.inj (hother.symm.trans hstream)
    exact ⟨stream', rfl, hwaiting hawaits⟩
  · intro contents hphase
    obtain ⟨other, clipboards, hother, hawaits⟩ := h.raw contents hphase
    obtain rfl := Option.some.inj (hother.symm.trans hstream)
    obtain ⟨hrequests, hpackets⟩ := hraw hawaits.requests
    exact ⟨stream', clipboards, rfl, hrequests, hpackets.trans hawaits.packets, hawaits.contents,
      hmono _ hawaits.read⟩

/-- Only the request of the call itself can be owed. -/
theorem Awaits.owed {answered : List (ℕ × List Clipboard)} {id id' : ℕ} {requests : List ℕ}
    {packets : List Packet} {alive : Bool}
    (h : Awaits answered id ⟨id' :: requests, packets, alive⟩) :
  id' = id ∧ requests = [] ∧ ∀ p ∈ packets, p = .monitorReady
  := by
  obtain ⟨greets, rest, hpackets, hgreets, ⟨hrequests, rfl⟩ | ⟨hnil, -⟩⟩ := h
  · obtain ⟨rfl, rfl⟩ := List.cons.inj hrequests
    refine ⟨rfl, rfl, ?_⟩
    change packets = greets ++ [] at hpackets
    rwa [hpackets, List.append_nil]
  · cases hnil

theorem Inv.answers (h : Inv s) {id : ℕ} {requests : List ℕ} {packets : List Packet}
    (hstream : s.stream = some ⟨id :: requests, packets, true⟩) (clipboards : List Clipboard) :
  Inv { s with
    stream := some ⟨requests, packets ++ answer clipboards, true⟩
    answered := s.answered ++ [(id, clipboards)] }
  := by
  refine h.setStream hstream (fun x hx => List.mem_append_left _ hx) ?_ (by rintro ⟨⟩)
  intro hawaits
  obtain ⟨rfl, rfl, hgreets⟩ := hawaits.owed
  refine ⟨packets, _, rfl, hgreets, Or.inr ⟨rfl, Or.inr (Or.inr ⟨clipboards, ?_, rfl⟩)⟩⟩
  exact List.mem_append_right _ (List.mem_singleton_self _)

theorem Inv.answersErr (h : Inv s) {id : ℕ} {requests : List ℕ} {packets : List Packet}
    (hstream : s.stream = some ⟨id :: requests, packets, true⟩) {err : String} (herr : err ≠ "") :
  Inv { s with stream := some ⟨requests, packets ++ [.main err []], true⟩ }
  := by
  refine h.setStream hstream (fun x hx => hx) ?_ (by rintro ⟨⟩)
  intro hawaits
  obtain ⟨rfl, rfl, hgreets⟩ := hawaits.owed
  exact ⟨packets, _, rfl, hgreets, Or.inr ⟨rfl, Or.inr (Or.inl ⟨err, herr, rfl⟩)⟩⟩

theorem Inv.reset (h : Inv s) (hstream : s.stream = some stream) :
  Inv { s with stream := some { stream with requests := [], alive := false } }
  := by
  refine h.setStream hstream (fun x hx => hx) ?_ (fun _ => ⟨rfl, rfl⟩)
  rintro ⟨greets, rest, hpackets, hgreets, ⟨-, hrest⟩ | ⟨-, hrest⟩⟩
  · exact ⟨greets, rest, hpackets, hgreets, Or.inr ⟨rfl, Or.inl hrest⟩⟩
  · exact ⟨greets, rest, hpackets, hgreets, Or.inr ⟨rfl, hrest⟩⟩

/-- The service takes the message of its answer. -/
theorem Inv.main (h : Fresh s) (hrequests : stream.requests = []) {clipboards : List Clipboard}
    (hread : (s.calls, clipboards) ∈ s.answered) {packets : List Packet}
    (hpackets : .main "" (clipboards.map mainEntry) :: packets = answer clipboards) :
  Inv (if (clipboards.map mainEntry).any ClipboardNonFile.nextRaw then
      { s with
        stream := some { stream with packets := packets }
        phase := .raw (clipboards.map mainEntry) }
    else
      { s with stream := some { stream with packets := packets } }.returns
        (clipboards.map mainEntry))
  := by
  split
  next hlong =>
      refine ⟨h, by rintro ⟨⟩, ?_⟩
      rintro contents ⟨⟩
      have hraw := (List.cons.inj hpackets).2
      rw [if_neg (rawContents_ne_nil clipboards hlong)] at hraw
      exact ⟨_, clipboards, rfl, hrequests, hraw, rfl, hread⟩
  next hnot =>
      rw [map_mainEntry clipboards (eq_false_of_ne_true hnot)]
      exact Inv.returns (s := { s with stream := some _ }) h hread

theorem Inv.next (h : Inv s) (hphase : s.phase = .waiting) (hstream : s.stream = some stream)
    (hnext : s.next stream = some s') :
  Inv s'
  := by
  obtain ⟨other, hother, greets, rest, hpackets, hgreets, hrest⟩ := h.waiting hphase
  obtain rfl := Option.some.inj (hother.symm.trans hstream)
  cases greets with
  | cons greet greets =>
      obtain ⟨hgreet, hgreets⟩ := List.forall_mem_cons.mp hgreets
      rw [System.next, hpackets, hgreet] at hnext
      cases hnext
      exact Inv.waits h.fresh rfl hphase ⟨greets, rest, rfl, hgreets, hrest⟩
  | nil =>
      rw [List.nil_append] at hpackets
      rw [System.next, hpackets] at hnext
      rcases hrest with ⟨-, rfl⟩ | ⟨hrequests, rfl | ⟨err, herr, rfl⟩ | ⟨clipboards, hread, rfl⟩⟩
      · dsimp only at hnext
        split at hnext
        next => cases hnext
        next =>
            cases hnext
            exact Inv.fails h.fresh
      · dsimp only at hnext
        split at hnext
        next => cases hnext
        next =>
            cases hnext
            exact Inv.fails h.fresh
      · dsimp only at hnext
        rw [if_pos herr] at hnext
        cases hnext
        exact Inv.fails h.fresh
      · have hmain := Inv.main h.fresh hrequests hread rfl
        simp only [answer, ne_eq, not_true_eq_false, if_false] at hnext
        split at hnext
        next hlong =>
            cases hnext
            rwa [if_pos hlong] at hmain
        next hnot =>
            cases hnext
            rwa [if_neg hnot] at hmain

/-- The service takes the raw block of its answer. -/
theorem Inv.nextRaw (h : Inv s) {contents : List ClipboardNonFile}
    (hphase : s.phase = .raw contents) (hstream : s.stream = some stream) {json : Bytes}
    (hnext : s.nextRaw stream contents json = some s') :
  Inv s'
  := by
  obtain ⟨other, clipboards, hother, hawaits⟩ := h.raw contents hphase
  obtain rfl := Option.some.inj (hother.symm.trans hstream)
  rw [System.nextRaw, hawaits.packets, hawaits.contents] at hnext
  dsimp only at hnext
  rw [fill_rawContents] at hnext
  cases hnext
  exact Inv.returns (s := { s with stream := some _ }) h.fresh hawaits.read

theorem Inv.step (h : Inv s) {l : Label} (horderly : s.orderly l = true) (hstep : Step s l s') :
  Inv s'
  := by
  rw [Step] at hstep
  cases l with
  | call sent connected greets =>
      rw [CmRead.step] at hstep
      split at hstep
      next =>
          cases hstep
          exact h.call horderly
      next => cases hstep
  | answer clipboards =>
      rw [CmRead.step] at hstep
      split at hstep
      next hstream =>
          cases hstep
          exact h.answers hstream clipboards
      next => cases hstep
  | answerErr err =>
      rw [CmRead.step] at hstep
      split at hstep
      next hstream =>
          cases hstep
          exact h.answersErr hstream (bne_iff_ne.mp horderly)
      next => cases hstep
  | reset =>
      obtain ⟨stream, hstream, rfl⟩ := Option.map_eq_some_iff.mp hstep
      exact h.reset hstream
  | next json =>
      rw [CmRead.step] at hstep
      split at hstep
      next hphase hstream => exact h.next hphase hstream hstep
      next hphase hstream => exact h.nextRaw hphase hstream hstep
      next => cases hstep
  | elapse =>
      rw [CmRead.step] at hstep
      split at hstep
      next => cases hstep
      next =>
          cases hstep
          exact Inv.fails h.fresh
      next hphase =>
          rw [System.orderly, hphase] at horderly
          cases horderly

end

/-- In every run whose calls are orderly, what is returned is what was read for the call. -/
theorem own_of_run {h : List (System × Label)} {s : System} (hrun : Run Step {} h s)
    (horderly : ∀ x ∈ h, x.1.orderly x.2 = true) :
  (∀ x ∈ h, Fresh x.1) ∧ Fresh s
  := by
  have hstart : Inv {} := by
    refine ⟨?_, ?_, ?_⟩
    · rintro id contents ⟨⟩
    · rintro ⟨⟩
    · rintro contents ⟨⟩
  exact hrun.forall_of (fun s l => s.orderly l = true) Inv Fresh hstart (fun s hs => hs.fresh)
    (fun s l s' hs hl hstep => hs.step hl hstep) horderly

/-- A clipboard with a text. -/
def textOf (content : Bytes) : Clipboard := { content := content, format := .known .text }

theorem own_twice :
  ∃ h s, Run Step {} h s ∧ s.returned = [(1, [whole (textOf [97])]), (2, [whole (textOf [98])])]
    ∧ Fresh s
  := by
  obtain ⟨h, s, hrun, htest⟩ := Run.exists_of_traceM step {}
    [.call false true true, .answer [textOf [97]], .next [], .next [],
      .call true true true, .answer [textOf [98]], .next []]
    (fun h s => s.returned == [(1, [whole (textOf [97])]), (2, [whole (textOf [98])])]
      && h.all fun x => x.1.orderly x.2) (by decide)
  rw [Bool.and_eq_true, beq_iff_eq, List.all_eq_true] at htest
  exact ⟨h, s, hrun, htest.1, (own_of_run hrun htest.2).2⟩

/-- The first call times out, and the second one gets its answer. -/
theorem not_own :
  ∃ h s, Run Step {} h s ∧ ¬ Fresh s
  := by
  obtain ⟨h, s, hrun, htest⟩ := Run.exists_of_traceM step {}
    [.call false true false, .elapse, .answer [textOf [97]], .call true true false, .next []]
    (fun _ s => s.returned == [(2, [whole (textOf [97])])] && s.answered == [(1, [textOf [97]])])
    (by decide)
  rw [Bool.and_eq_true, beq_iff_eq, beq_iff_eq] at htest
  obtain ⟨hreturned, hanswered⟩ := htest
  refine ⟨h, s, hrun, ?_⟩
  intro hfresh
  obtain ⟨clipboards, hread, -⟩ := hfresh 2 _ (hreturned ▸ List.mem_singleton_self _)
  rw [hanswered] at hread
  cases List.mem_singleton.mp hread

end VynxDesk.Contents.CmRead
