import VynxDesk.Clipboard.Proto
import VynxDesk.Lib.Run

/-!
# Pasted texts and the clipboard

On Wayland, `server/input_service.rs` types a text by pasting it: `set_clipboard_for_paste_sync`
sets the clipboard, and records the text, so that `server/clipboard_service.rs` does not send it to
the peer.  The records expire, there are at most so many of them, and one is taken back when the
clipboard cannot be set.  A pasted text is recognized for as long as its record lasts, and no other
text is (`filtered_of_run`); every message that is looked at gets an answer.

Calls follow one another, since the keyboard is locked meanwhile, and a message is looked at while
they run; each access to the records is a step.  Times are in nanoseconds, and `decompress` is a
parameter.
-/

namespace VynxDesk.Contents.PasteFilter

/-- `WAYLAND_CLIPBOARD_INPUT_FILTER_WINDOW`. -/
def filterWindow : ℕ := 1000000000

/-- `WAYLAND_CLIPBOARD_INPUT_MAX_RECORDS`. -/
def maxRecords : ℕ := 256

/-- `WAYLAND_CLIPBOARD_INPUT_MAX_TEXT_CHARS`. -/
def maxTextChars : ℕ := 1024

/-- `WAYLAND_CLIPBOARD_SKIP_CHECK_MAX_UTF8_BYTES`. -/
def maxUtf8Bytes : ℕ := maxTextChars * 4

/-- `CLIPBOARD_SYNC_DELAY_MS`. -/
def clipboardSyncDelay : ℕ := 50000000

/-! ## The records -/

/-- A record: when it was made, and its text. -/
abbrev Record := ℕ × String

/-- A record has not expired. -/
def fresh (now : ℕ) (record : Record) : Bool := now - record.1 ≤ filterWindow

/-- `cleanup_wayland_clipboard_input_records`. -/
def cleanupWaylandClipboardInputRecords (records : List Record) (now : ℕ) : List Record :=
  let records := records.filter (fresh now)
  let len := records.length
  if maxRecords < len then records.drop (len - maxRecords) else records

/-- `normalize_wayland_clipboard_input_text`. -/
def normalizeWaylandClipboardInputText (text : String) : String :=
  String.ofList (text.toList.take maxTextChars)

/-- `get_wayland_clipboard_input_normalized_text`. -/
def getWaylandClipboardInputNormalizedText (text : String) : Option String :=
  let normalized := normalizeWaylandClipboardInputText text
  if normalized = "" then none else some normalized

/-- `record_wayland_clipboard_input_for_sync_filter`. -/
def recordWaylandClipboardInputForSyncFilter (isX11 : Bool) (text : String) (now : ℕ)
    (records : List Record) : Option Record × List Record :=
  if text = "" ∨ isX11 then (none, records)
  else
    match getWaylandClipboardInputNormalizedText text with
    | none => (none, records)
    | some normalized =>
        (some (now, normalized),
          cleanupWaylandClipboardInputRecords records now ++ [(now, normalized)])

/-- `rollback_wayland_clipboard_input_record`: of the records that are equal to this one, the last
one is removed. -/
def rollbackWaylandClipboardInputRecord (record : Record) (now : ℕ) (records : List Record) :
    List Record :=
  ((cleanupWaylandClipboardInputRecords records now).reverse.erase record).reverse

/-- `is_recent_wayland_clipboard_input`. -/
def isRecentWaylandClipboardInput (isX11 : Bool) (text : String) (now : ℕ) (records : List Record) :
    Bool × List Record :=
  if text = "" ∨ isX11 then (false, records)
  else
    match getWaylandClipboardInputNormalizedText text with
    | none => (false, records)
    | some normalized =>
        let records := cleanupWaylandClipboardInputRecords records now
        (records.any fun record => record.2 = normalized, records)

/-! ## The messages -/

/-- `decode_utf8_prefix`. -/
def decodeUtf8Prefix (bytes : Bytes) : Option String :=
  let slice := bytes.take (min bytes.length maxUtf8Bytes)
  match Utf8.decode slice with
  | .ok text => some text
  | .error e => if e.within then none else (Utf8.decode (slice.take e.validUpTo)).toOption

/-- `decode_text_clipboard`. -/
def decodeTextClipboard (decompress : Bytes → Bytes) (clipboard : Clipboard) : Option String :=
  if clipboard.format.enumValue ≠ some .text then none
  else if clipboard.compress then decodeUtf8Prefix (decompress clipboard.content)
  else decodeUtf8Prefix clipboard.content

/-- `is_recent_wayland_input`. -/
def isRecentWaylandInput (isX11 : Bool) (decompress : Bytes → Bytes) (clipboard : Clipboard)
    (now : ℕ) (records : List Record) : Bool × List Record :=
  match decodeTextClipboard decompress clipboard with
  | none => (false, records)
  | some text => isRecentWaylandClipboardInput isX11 text now records

/-- A message, as far as it is looked at. -/
inductive Message where
  | clipboard (clipboard : Clipboard)
  | multiClipboards (clipboards : List Clipboard)
  | other
  deriving DecidableEq

/-- The contents of a message. -/
def Message.clipboards : Message → List Clipboard
  | .clipboard c => [c]
  | .multiClipboards cs => cs
  | .other => []

/-! ## The calls -/

/-- Of the history, a call of `set_clipboard_for_paste_sync`: which one it is, when it was made, its
text, and whether it has failed. -/
structure Call where
  number : ℕ
  time : ℕ
  text : String
  failed : Bool
  deriving DecidableEq

/-- Where `set_clipboard_for_paste_sync` is: it does not run; or it sets the clipboard, with its
record and, of the history, the records before it; or it sleeps, since the clipboard was set. -/
inductive Phase where
  | idle
  | setting (record : Option Record) (before : List Record)
  | sleeping (since : ℕ)
  deriving DecidableEq

/-- Where `should_skip_wayland_clipboard_sync` is: the contents of the message that are left; of the
history, its contents, and how many calls there were when it began. -/
structure Check where
  rest : List Clipboard
  clipboards : List Clipboard
  before : ℕ
  deriving DecidableEq

structure State where
  now : ℕ
  records : List Record
  phase : Phase
  calls : List Call
  check : Option Check
  deriving DecidableEq

/-- The start, at any time. -/
def State.init (now : ℕ) : State := ⟨now, [], .idle, [], none⟩

/-- The last call has failed. -/
def failLast : List Call → List Call
  | [] => []
  | call :: calls => { call with failed := true } :: calls

/-- `set_clipboard_for_paste_sync`, until it sets the clipboard. -/
def State.setClipboardForPasteSync (isX11 : Bool) (text : String) (s : State) : State :=
  let recorded := recordWaylandClipboardInputForSyncFilter isX11 text s.now s.records
  { s with
    records := recorded.2
    phase := .setting recorded.1 s.records
    calls := ⟨s.calls.length, s.now, text, false⟩ :: s.calls }

/-- The clipboard has been set, or could not be: then the call returns `false`. -/
def State.setClipboardContent (record : Option Record) (ok : Bool) (s : State) : State :=
  if ok then { s with phase := .sleeping s.now }
  else
    { s with
      records :=
        match record with
        | some record => rollbackWaylandClipboardInputRecord record s.now s.records
        | none => s.records
      phase := .idle
      calls := failLast s.calls }

/-- `should_skip_wayland_clipboard_sync`, before it looks at the contents. -/
def State.shouldSkip (isX11 : Bool) (msg : Message) (s : State) : State :=
  let rest := if isX11 then [] else msg.clipboards
  { s with check := some ⟨rest, msg.clipboards, s.calls.length⟩ }

inductive Label where
  | tick (d : ℕ)
  | call (text : String)
  | set (ok : Bool)
  | wake
  | examine (msg : Message)
  | look
  | returns (skips : Bool)
  deriving DecidableEq

/-- A step: time passes, the one call goes on, or the one check does. -/
inductive Step (isX11 : Bool) (decompress : Bytes → Bytes) : State → Label → State → Prop where
  | tick {s : State} (d : ℕ) : Step isX11 decompress s (.tick d) { s with now := s.now + d }
  | call {s : State} (text : String) (hphase : s.phase = .idle) :
      Step isX11 decompress s (.call text) (s.setClipboardForPasteSync isX11 text)
  | set {s : State} {record : Option Record} {before : List Record} (ok : Bool)
      (hphase : s.phase = .setting record before) :
      Step isX11 decompress s (.set ok) (s.setClipboardContent record ok)
  | wake {s : State} {since : ℕ} (hphase : s.phase = .sleeping since)
      (hslept : since + clipboardSyncDelay ≤ s.now) :
      Step isX11 decompress s .wake { s with phase := .idle }
  | examine {s : State} (msg : Message) (hcheck : s.check = none) :
      Step isX11 decompress s (.examine msg) (s.shouldSkip isX11 msg)
  | look {s : State} {check : Check} {clipboard : Clipboard} {rest : List Clipboard}
      {records : List Record} (hcheck : s.check = some check)
      (hrest : check.rest = clipboard :: rest)
      (hmiss : isRecentWaylandInput isX11 decompress clipboard s.now s.records = (false, records)) :
      Step isX11 decompress s .look
        { s with records := records, check := some { check with rest := rest } }
  | hit {s : State} {check : Check} {clipboard : Clipboard} {rest : List Clipboard}
      {records : List Record} (hcheck : s.check = some check)
      (hrest : check.rest = clipboard :: rest)
      (hhit : isRecentWaylandInput isX11 decompress clipboard s.now s.records = (true, records)) :
      Step isX11 decompress s (.returns true) { s with records := records, check := none }
  | finish {s : State} {check : Check} (hcheck : s.check = some check) (hrest : check.rest = []) :
      Step isX11 decompress s (.returns false) { s with check := none }

/-! ## What is filtered -/

/-- A content that is a text, compressed or not. -/
def Carries (decompress : Bytes → Bytes) (clipboard : Clipboard) (text : String) : Prop :=
  clipboard.format.enumValue = some .text ∧ contentOf decompress clipboard = Utf8.bytes text

/-- The check that runs returns after some looks, at most one for each content that is left, if
nothing else happens meanwhile. -/
def State.Returns (isX11 : Bool) (decompress : Bytes → Bytes) (s : State) (check : Check) : Prop :=
  ∃ history s' skips s'', Run (Step isX11 decompress) s history s'
    ∧ (∀ x ∈ history, x.2 = .look) ∧ history.length ≤ check.rest.length
    ∧ Step isX11 decompress s' (.returns skips) s''

/-- What is to hold of the steps from a state, on Wayland. -/
structure State.Filtered (decompress : Bytes → Bytes) (s : State) : Prop where
  /-- A message that comes is checked, with all its contents. -/
  started : ∀ msg, s.check = none → ∃ s', Step false decompress s (.examine msg) s'
    ∧ s'.check = some ⟨msg.clipboards, msg.clipboards, s.calls.length⟩
  /-- A check goes on until it returns. -/
  returns : ∀ check, s.check = some check → s.Returns false decompress check
  /-- No step stops a check: it is left as it was, or it has looked at a content, or it has
  returned. -/
  kept : ∀ {check label s'}, s.check = some check → Step false decompress s label s' →
    s'.check = some check ∨ (∃ clipboard rest, label = .look ∧ check.rest = clipboard :: rest
      ∧ s'.check = some { check with rest := rest }) ∨ ∃ skips, label = .returns skips
  /-- A message with a text that was pasted at most a second ago, before the message came, is
  skipped. -/
  skipped : ∀ {check skips s' call clipboard}, s.check = some check →
    Step false decompress s (.returns skips) s' →
    call ∈ s.calls → call.number < check.before → call.failed = false → call.text ≠ "" →
    s.now ≤ call.time + filterWindow →
    clipboard ∈ check.clipboards → Carries decompress clipboard call.text →
      skips = true
  /-- A call that fails leaves the records as they were before it, but for those that have
  expired. -/
  takenBack : ∀ {record before s'}, s.phase = .setting record before →
    Step false decompress s (.set false) s' →
      s'.records.Sublist before
        ∧ s'.records.filter (fresh s.now) = before.filter (fresh s.now)
  /-- A message is not skipped when its texts start otherwise than each that was recorded in the
  last second. -/
  sent : ∀ {check skips s'}, s.check = some check →
    Step false decompress s (.returns skips) s' →
    (∀ clipboard ∈ check.clipboards, clipboard.format.enumValue = some .text →
      ∃ text, Carries decompress clipboard text ∧
        ∀ call ∈ s.calls, s.now ≤ call.time + filterWindow →
          call.text.toList.take maxTextChars ≠ text.toList.take maxTextChars) →
      skips = false

/-! ## The two normal forms -/

/-- A text is read from the first bytes of its bytes as far as it is compared. -/
theorem decodeUtf8Prefix_bytes (text : String) :
  ∃ read, decodeUtf8Prefix (Utf8.bytes text) = some read
    ∧ read.toList.take maxTextChars = text.toList.take maxTextChars
  := by
  rw [Utf8.bytes_eq_encode]
  by_cases hshort : (Utf8.encode text.toList).length ≤ maxUtf8Bytes
  · refine ⟨text, ?_, rfl⟩
    rw [decodeUtf8Prefix, Nat.min_eq_left hshort, List.take_length, Utf8.decode_encode,
      String.ofList_toList]
  · rw [Nat.not_le] at hshort
    obtain ⟨n, part, hslice, hpart⟩ :=
      Utf8.exists_take_of_prefix (List.take_prefix maxUtf8Bytes (Utf8.encode text.toList))
    refine ⟨String.ofList (text.toList.take n), ?_, ?_⟩
    · rw [decodeUtf8Prefix, Nat.min_eq_right (Nat.le_of_lt hshort), hslice]
      by_cases hnil : part = []
      · rw [hnil, List.append_nil, Utf8.decode_encode]
      · rw [Utf8.decode_encode_append hpart hnil]
        dsimp only
        rw [if_neg Bool.false_ne_true, List.take_left, Utf8.decode_encode]
        rfl
    -- the first bytes hold at least as many characters as are compared
    · have hlength := congrArg List.length hslice
      rw [List.length_take_of_le (Nat.le_of_lt hshort), List.length_append] at hlength
      have hchars := Utf8.length_encode_le (text.toList.take n)
      have hrest := hpart.length_le
      have hle : maxTextChars ≤ n := by
        rw [List.length_take] at hchars
        have hmax : maxUtf8Bytes = maxTextChars * 4 := rfl
        omega
      rw [String.toList_ofList, List.take_take, Nat.min_eq_left hle]

variable {clipboard : Clipboard} {records : List Record} {text : String}

theorem decodeTextClipboard_of_carries {decompress : Bytes → Bytes}
    (h : Carries decompress clipboard text) :
  ∃ read, decodeTextClipboard decompress clipboard = some read
    ∧ read.toList.take maxTextChars = text.toList.take maxTextChars
  := by
  obtain ⟨read, hread, hchars⟩ := decodeUtf8Prefix_bytes text
  obtain ⟨hformat, hcontent⟩ := h
  refine ⟨read, ?_, hchars⟩
  rw [contentOf] at hcontent
  rw [decodeTextClipboard, if_neg (not_not_intro hformat)]
  split at hcontent
  next hcompress => rw [if_pos hcompress, hcontent, hread]
  next hcompress => rw [if_neg hcompress, hcontent, hread]

theorem normalize_eq_iff {a b : String} :
  normalizeWaylandClipboardInputText a = normalizeWaylandClipboardInputText b
    ↔ a.toList.take maxTextChars = b.toList.take maxTextChars
  := by
  rw [normalizeWaylandClipboardInputText, normalizeWaylandClipboardInputText, String.ofList_inj]

theorem normalize_eq_empty_iff :
  normalizeWaylandClipboardInputText text = "" ↔ text = ""
  := by
  rw [normalizeWaylandClipboardInputText, ← String.ofList_nil, String.ofList_inj,
    List.take_eq_nil_iff, or_iff_right (by decide), String.toList_eq_nil_iff]

theorem getNormalized_of_ne (h : text ≠ "") :
  getWaylandClipboardInputNormalizedText text = some (normalizeWaylandClipboardInputText text)
  := by
  rw [getWaylandClipboardInputNormalizedText]
  exact if_neg fun hempty => h (normalize_eq_empty_iff.mp hempty)

/-! ## The records and the calls -/

/-- A call that is to be recorded. -/
def Call.live (call : Call) : Bool := !call.failed && call.text ≠ ""

/-- The record of a call. -/
def Call.record (call : Call) : Record :=
  (call.time, normalizeWaylandClipboardInputText call.text)

/-- What the records of calls are if none of them expires. -/
def recorded (calls : List Call) : List Record :=
  ((calls.filter Call.live).map Call.record).reverse

theorem mem_recorded {calls : List Call} {record : Record} :
  record ∈ recorded calls ↔ ∃ call ∈ calls, call.live = true ∧ call.record = record
  := by
  simp only [recorded, List.mem_reverse, List.mem_map, List.mem_filter, and_assoc]

theorem recorded_cons (call : Call) (calls : List Call) :
  recorded (call :: calls) = recorded calls ++ if call.live then [call.record] else []
  := by
  rw [recorded, List.filter_cons]
  split
  next => rw [List.map_cons, List.reverse_cons, recorded]
  next => rw [List.append_nil, recorded]

/-- Two lists of records are the same, but for what has expired at some time. -/
def Agree (now : ℕ) (a b : List Record) : Prop :=
  ∀ later, now ≤ later → a.filter (fresh later) = b.filter (fresh later)

theorem fresh_iff {now : ℕ} {record : Record} :
  fresh now record = true ↔ now ≤ record.1 + filterWindow
  := by
  rw [fresh, decide_eq_true_eq]
  omega

theorem Agree.later {now : ℕ} {a b : List Record} (h : Agree now a b) (d : ℕ) :
  Agree (now + d) a b
  := fun later hle => h later (by omega)

theorem Agree.trans {now : ℕ} {a b c : List Record} (hab : Agree now a b) (hbc : Agree now b c) :
  Agree now a c
  := fun later hle => (hab later hle).trans (hbc later hle)

theorem Agree.append {now : ℕ} {a b : List Record} (h : Agree now a b) (c : List Record) :
  Agree now (a ++ c) (b ++ c)
  := by
  intro later hle
  rw [List.filter_append, List.filter_append, h later hle]

theorem agree_filter (now : ℕ) (a : List Record) :
  Agree now (a.filter (fresh now)) a
  := by
  intro later hle
  rw [List.filter_filter]
  apply List.filter_congr
  intro record _
  rw [Bool.and_eq_left_iff_imp, fresh_iff, fresh_iff]
  omega

/-- Each record is made a while after the one before it. -/
def Apart (records : List Record) : Prop :=
  records.Pairwise fun a b => a.1 + clipboardSyncDelay ≤ b.1

theorem length_of_apart (h : Apart records) {first last : ℕ}
    (hle : first ≤ last + clipboardSyncDelay)
    (hwithin : ∀ record ∈ records, first ≤ record.1 ∧ record.1 ≤ last) :
  first + records.length * clipboardSyncDelay ≤ last + clipboardSyncDelay
  := by
  induction records generalizing first with
  | nil => simpa using hle
  | cons record records ih =>
      obtain ⟨hrecord, hrecords⟩ := List.pairwise_cons.mp h
      obtain ⟨hbounds, hrest⟩ := List.forall_mem_cons.mp hwithin
      have hnext : record.1 + clipboardSyncDelay + records.length * clipboardSyncDelay
          ≤ last + clipboardSyncDelay := by
        apply ih hrecords (by omega)
        intro other hother
        exact ⟨hrecord other hother, (hrest other hother).2⟩
      rw [List.length_cons, Nat.add_mul]
      omega

section

variable {decompress : Bytes → Bytes} {s : State}

/-- What holds of the phase. -/
def State.PhaseGood (s : State) : Prop :=
  match s.phase with
  | .idle => ∀ record ∈ recorded s.calls, record.1 + clipboardSyncDelay ≤ s.now
  | .setting record before =>
      ∃ call calls, s.calls = call :: calls ∧ call.time ≤ s.now
        ∧ (∀ old ∈ recorded calls, old.1 + clipboardSyncDelay ≤ call.time)
        ∧ record = (if call.live then some call.record else none)
        ∧ Agree s.now before (recorded calls) ∧ s.records.Sublist (before ++ record.toList)
  | .sleeping since => ∀ record ∈ recorded s.calls, record.1 ≤ since

/-- What holds of a check: the contents that it has looked at were pasted by no call that is
recorded, unless the record has expired. -/
def State.CheckGood (decompress : Bytes → Bytes) (s : State) : Prop :=
  ∀ check, s.check = some check → check.before ≤ s.calls.length ∧
    ∃ looked, check.clipboards = looked ++ check.rest ∧
      ∀ clipboard ∈ looked, ∀ call ∈ s.calls, call.number < check.before → call.live = true →
        Carries decompress clipboard call.text → call.time + filterWindow < s.now

structure State.Good (decompress : Bytes → Bytes) (s : State) : Prop where
  agree : Agree s.now s.records (recorded s.calls)
  apart : Apart (recorded s.calls)
  past : ∀ record ∈ recorded s.calls, record.1 ≤ s.now
  phase : s.PhaseGood
  check : s.CheckGood decompress

theorem good_init (now : ℕ) : (State.init now).Good decompress
  where
  agree := fun _ _ => rfl
  apart := List.Pairwise.nil
  past := by rintro record ⟨⟩
  phase := by rintro record ⟨⟩
  check := by rintro check ⟨⟩

/-- The records are never cut off: so many calls take longer than a record lasts. -/
theorem State.Good.cleanup_eq (h : s.Good decompress) :
  cleanupWaylandClipboardInputRecords s.records s.now = s.records.filter (fresh s.now)
  := by
  rw [cleanupWaylandClipboardInputRecords]
  apply if_neg
  rw [h.agree s.now (Nat.le_refl _)]
  have hapart : Apart ((recorded s.calls).filter (fresh s.now)) :=
    h.apart.sublist List.filter_sublist
  have hlength := @length_of_apart _ hapart (s.now - filterWindow) s.now (by omega) (by
    intro record hrecord
    obtain ⟨hmem, hfresh⟩ := List.mem_filter.mp hrecord
    rw [fresh_iff] at hfresh
    exact ⟨by omega, h.past record hmem⟩)
  rw [filterWindow, clipboardSyncDelay] at hlength
  rw [maxRecords]
  omega

/-- What is found is a call of the last second whose text starts the same. -/
theorem State.Good.isRecent_iff (h : s.Good decompress) (text : String) :
  (isRecentWaylandClipboardInput false text s.now s.records).1 = true
    ↔ ∃ call ∈ s.calls, call.live = true ∧ s.now ≤ call.time + filterWindow
      ∧ call.text.toList.take maxTextChars = text.toList.take maxTextChars
  := by
  rw [isRecentWaylandClipboardInput]
  by_cases hempty : text = ""
  · rw [if_pos (Or.inl hempty)]
    constructor
    · rintro ⟨⟩
    · rintro ⟨call, -, hlive, -, hchars⟩
      rw [Call.live, Bool.and_eq_true, decide_eq_true_eq] at hlive
      rw [← normalize_eq_iff, normalize_eq_empty_iff.mpr hempty, normalize_eq_empty_iff] at hchars
      exact absurd hchars hlive.2
  · rw [if_neg (by simpa using hempty), getNormalized_of_ne hempty]
    dsimp only
    rw [h.cleanup_eq, h.agree s.now (Nat.le_refl _), List.any_eq_true]
    constructor
    · rintro ⟨record, hrecord, hsame⟩
      obtain ⟨hmem, hfresh⟩ := List.mem_filter.mp hrecord
      obtain ⟨call, hcall, hlive, rfl⟩ := mem_recorded.mp hmem
      exact ⟨call, hcall, hlive, fresh_iff.mp hfresh,
        normalize_eq_iff.mp (of_decide_eq_true hsame)⟩
    · rintro ⟨call, hcall, hlive, htime, hchars⟩
      refine ⟨call.record, ?_, decide_eq_true (normalize_eq_iff.mpr hchars)⟩
      exact List.mem_filter.mpr ⟨mem_recorded.mpr ⟨call, hcall, hlive, rfl⟩, fresh_iff.mpr htime⟩

/-- The records that are left are the same, but for what has expired. -/
theorem State.Good.isRecent_records (h : s.Good decompress) (text : String) :
  let records := (isRecentWaylandClipboardInput false text s.now s.records).2
  records.Sublist s.records ∧ Agree s.now records s.records
  := by
  rw [isRecentWaylandClipboardInput]
  split
  next => exact ⟨List.Sublist.refl _, fun _ _ => rfl⟩
  next =>
      split
      next => exact ⟨List.Sublist.refl _, fun _ _ => rfl⟩
      next =>
          dsimp only
          rw [h.cleanup_eq]
          exact ⟨List.filter_sublist, agree_filter s.now s.records⟩

theorem State.Good.isRecentInput_iff (h : s.Good decompress) (clipboard : Clipboard) :
  (isRecentWaylandInput false decompress clipboard s.now s.records).1 = true
    ↔ ∃ text, decodeTextClipboard decompress clipboard = some text
      ∧ ∃ call ∈ s.calls, call.live = true ∧ s.now ≤ call.time + filterWindow
        ∧ call.text.toList.take maxTextChars = text.toList.take maxTextChars
  := by
  rw [isRecentWaylandInput]
  split
  next hnone =>
      constructor
      · rintro ⟨⟩
      · rintro ⟨text, htext, -⟩
        rw [hnone] at htext
        cases htext
  next text htext =>
      rw [h.isRecent_iff text]
      constructor
      · exact fun hcall => ⟨text, htext, hcall⟩
      · rintro ⟨other, hother, hcall⟩
        rw [htext] at hother
        obtain rfl := Option.some.inj hother
        exact hcall

theorem State.Good.isRecentInput_records (h : s.Good decompress) (clipboard : Clipboard) :
  let records := (isRecentWaylandInput false decompress clipboard s.now s.records).2
  records.Sublist s.records ∧ Agree s.now records s.records
  := by
  rw [isRecentWaylandInput]
  split
  next => exact ⟨List.Sublist.refl _, fun _ _ => rfl⟩
  next text _ => exact h.isRecent_records text

/-- A content that carries a text is found exactly if a call of the last second has a text that
starts the same. -/
theorem State.Good.isRecentInput_of_carries (h : s.Good decompress)
    (hcarries : Carries decompress clipboard text) :
  (isRecentWaylandInput false decompress clipboard s.now s.records).1 = true
    ↔ ∃ call ∈ s.calls, call.live = true ∧ s.now ≤ call.time + filterWindow
      ∧ call.text.toList.take maxTextChars = text.toList.take maxTextChars
  := by
  obtain ⟨read, hread, hchars⟩ := decodeTextClipboard_of_carries hcarries
  rw [h.isRecentInput_iff clipboard, ← hchars]
  constructor
  · rintro ⟨other, hother, hcall⟩
    rw [hread] at hother
    obtain rfl := Option.some.inj hother
    exact hcall
  · exact fun hcall => ⟨read, hread, hcall⟩

/-! ## The steps -/

/-- A record is made. -/
theorem record_eq (text : String) (now : ℕ) (records : List Record) :
  recordWaylandClipboardInputForSyncFilter false text now records
    = if text = "" then (none, records)
      else
        (some (now, normalizeWaylandClipboardInputText text),
          cleanupWaylandClipboardInputRecords records now
            ++ [(now, normalizeWaylandClipboardInputText text)])
  := by
  rw [recordWaylandClipboardInputForSyncFilter]
  by_cases hempty : text = ""
  · rw [if_pos (Or.inl hempty), if_pos hempty]
  · rw [if_neg (by simpa using hempty), if_neg hempty, getNormalized_of_ne hempty]

/-- Other records, which are the same but for what has expired. -/
theorem State.Good.withRecords (h : s.Good decompress) (hsub : records.Sublist s.records)
    (hagree : Agree s.now records s.records) :
  ({ s with records := records } : State).Good decompress
  where
  agree := hagree.trans h.agree
  apart := h.apart
  past := h.past
  phase := by
    have hphase := h.phase
    rw [State.PhaseGood] at hphase ⊢
    dsimp only
    split
    next heq => rwa [heq] at hphase
    next heq =>
        rw [heq] at hphase
        obtain ⟨call, calls, hcalls, htime, hold, hrecord, hbefore, hrecords⟩ := hphase
        exact ⟨call, calls, hcalls, htime, hold, hrecord, hbefore, hsub.trans hrecords⟩
    next heq => rwa [heq] at hphase
  check := h.check

/-- Another check. -/
theorem State.Good.withCheck (h : s.Good decompress) {check : Option Check}
    (hcheck : ({ s with check := check } : State).CheckGood decompress) :
  ({ s with check := check } : State).Good decompress
  := ⟨h.agree, h.apart, h.past, h.phase, hcheck⟩

/-- Time passes. -/
theorem State.Good.tick (h : s.Good decompress) (d : ℕ) :
  ({ s with now := s.now + d } : State).Good decompress
  where
  agree := h.agree.later d
  apart := h.apart
  past record hrecord := Nat.le_add_right_of_le (h.past record hrecord)
  phase := by
    have hphase := h.phase
    rw [State.PhaseGood] at hphase ⊢
    dsimp only
    split
    next heq =>
        rw [heq] at hphase
        exact fun record hrecord => Nat.le_add_right_of_le (hphase record hrecord)
    next heq =>
        rw [heq] at hphase
        obtain ⟨call, calls, hcalls, htime, hold, hrecord, hbefore, hrecords⟩ := hphase
        exact ⟨call, calls, hcalls, Nat.le_add_right_of_le htime, hold, hrecord, hbefore.later d,
          hrecords⟩
    next heq => rwa [heq] at hphase
  check check hcheck := by
    obtain ⟨hbefore, looked, hlooked, hgone⟩ := h.check check hcheck
    refine ⟨hbefore, looked, hlooked, ?_⟩
    intro clipboard hclipboard call hcall hnumber hlive hcarries
    exact Nat.lt_add_right d (hgone clipboard hclipboard call hcall hnumber hlive hcarries)

/-- A call is made. -/
theorem State.Good.call (h : s.Good decompress) (text : String) (hphase : s.phase = .idle) :
  (s.setClipboardForPasteSync false text).Good decompress
  := by
  have hidle : ∀ record ∈ recorded s.calls, record.1 + clipboardSyncDelay ≤ s.now := by
    have hphase' := h.phase
    rwa [State.PhaseGood, hphase] at hphase'
  have hcheck : (s.setClipboardForPasteSync false text).CheckGood decompress := by
    intro check hcheck
    obtain ⟨hbefore, looked, hlooked, hgone⟩ := h.check check hcheck
    refine ⟨Nat.le_succ_of_le hbefore, looked, hlooked, ?_⟩
    intro clipboard hclipboard call hcall hnumber
    rcases List.mem_cons.mp hcall with rfl | hcall
    · exact absurd hnumber (Nat.not_lt.mpr hbefore)
    · exact hgone clipboard hclipboard call hcall hnumber
  rw [State.setClipboardForPasteSync, record_eq] at hcheck ⊢
  by_cases hempty : text = ""
  · rw [if_pos hempty] at hcheck ⊢
    have hrecorded : recorded (⟨s.calls.length, s.now, text, false⟩ :: s.calls)
        = recorded s.calls := by
      rw [recorded_cons, if_neg (by simp [Call.live, hempty]), List.append_nil]
    constructor
    · rw [hrecorded]
      exact h.agree
    · rw [hrecorded]
      exact h.apart
    · rw [hrecorded]
      exact h.past
    · refine ⟨_, s.calls, rfl, Nat.le_refl s.now, hidle, ?_, h.agree, ?_⟩
      · rw [if_neg (by simp [Call.live, hempty])]
      · exact (List.append_nil s.records).symm ▸ List.Sublist.refl s.records
    · exact hcheck
  · rw [if_neg hempty] at hcheck ⊢
    have hrecorded : recorded (⟨s.calls.length, s.now, text, false⟩ :: s.calls)
        = recorded s.calls ++ [(s.now, normalizeWaylandClipboardInputText text)] := by
      rw [recorded_cons, if_pos (by simp [Call.live, hempty])]
      rfl
    have hclean : Agree s.now (s.records.filter (fresh s.now)) (recorded s.calls) :=
      (agree_filter s.now s.records).trans h.agree
    rw [h.cleanup_eq] at hcheck ⊢
    constructor
    · rw [hrecorded]
      exact hclean.append _
    · rw [hrecorded, Apart, List.pairwise_append]
      refine ⟨h.apart, List.pairwise_singleton _ _, ?_⟩
      intro old hold record hrecord
      rw [List.mem_singleton.mp hrecord]
      exact hidle old hold
    · rw [hrecorded]
      intro record hrecord
      rcases List.mem_append.mp hrecord with hold | hnew
      · exact h.past record hold
      · rw [List.mem_singleton.mp hnew]
    · refine ⟨_, s.calls, rfl, Nat.le_refl s.now, hidle, ?_, h.agree, ?_⟩
      · rw [if_pos (by simp [Call.live, hempty])]
        rfl
      · exact List.filter_sublist.append (List.Sublist.refl _)
    · exact hcheck

/-- The last call fails: its record is removed, unless it has expired. -/
theorem rollback_eq (h : s.Good decompress) {calls : List Call} {record : Record}
    (hrecorded : recorded s.calls = recorded calls ++ [record]) :
  rollbackWaylandClipboardInputRecord record s.now s.records
    = (recorded calls).filter (fresh s.now)
  := by
  rw [rollbackWaylandClipboardInputRecord, h.cleanup_eq, h.agree s.now (Nat.le_refl _), hrecorded,
    List.filter_append, List.reverse_append]
  by_cases hfresh : fresh s.now record = true
  · rw [List.filter_cons_of_pos hfresh, List.filter_nil, List.reverse_singleton,
      List.singleton_append, List.erase_cons_head, List.reverse_reverse]
  · have hmem : record ∉ ((recorded calls).filter (fresh s.now)).reverse := by
      rw [List.mem_reverse, List.mem_filter]
      exact fun hmem => hfresh hmem.2
    rw [List.filter_cons_of_neg hfresh, List.filter_nil, List.reverse_nil, List.nil_append,
      List.erase_of_not_mem hmem, List.reverse_reverse]

theorem setClipboardContent_false (record : Option Record) (s : State) :
  s.setClipboardContent record false
    = { s with
        records :=
          match record with
          | some record => rollbackWaylandClipboardInputRecord record s.now s.records
          | none => s.records
        phase := .idle
        calls := failLast s.calls }
  := rfl

/-- The call that fails leaves the records as they were, but for what has expired. -/
theorem State.Good.setFailed (h : s.Good decompress) {record : Option Record}
    {before : List Record} (hphase : s.phase = .setting record before) :
  let s' := s.setClipboardContent record false
  s'.Good decompress ∧ s'.records.Sublist before ∧ Agree s.now s'.records before
  := by
  have hsetting := h.phase
  rw [State.PhaseGood, hphase] at hsetting
  obtain ⟨call, calls, hcalls, htime, hold, hrecord, hbefore, hrecords⟩ := hsetting
  have hfailed : failLast s.calls = { call with failed := true } :: calls := by
    rw [hcalls, failLast]
  have hdead : recorded (failLast s.calls) = recorded calls := by
    rw [hfailed, recorded_cons, if_neg (by simp [Call.live]), List.append_nil]
  have hsub : (recorded calls).Sublist (recorded s.calls) := by
    rw [hcalls, recorded_cons]
    exact List.sublist_append_left _ _
  have hleft : (s.setClipboardContent record false).records.Sublist before
      ∧ Agree s.now (s.setClipboardContent record false).records before := by
    rw [setClipboardContent_false]
    cases record with
    | none =>
        have hlive : ¬ call.live = true := by
          intro hlive
          rw [if_pos hlive] at hrecord
          cases hrecord
        have hagree := h.agree
        rw [hcalls, recorded_cons, if_neg hlive, List.append_nil] at hagree
        rw [Option.toList_none, List.append_nil] at hrecords
        exact ⟨hrecords, fun later hle => (hagree later hle).trans (hbefore later hle).symm⟩
    | some record =>
        have hlive : call.live = true := by
          by_contra hlive
          rw [if_neg hlive] at hrecord
          cases hrecord
        rw [if_pos hlive] at hrecord
        have hrecorded : recorded s.calls = recorded calls ++ [record] := by
          rw [hcalls, recorded_cons, if_pos hlive, Option.some.inj hrecord]
        dsimp only
        rw [rollback_eq h hrecorded, ← hbefore s.now (Nat.le_refl _)]
        exact ⟨List.filter_sublist, agree_filter s.now before⟩
  refine ⟨?_, hleft⟩
  have hagree := hleft.2.trans hbefore
  rw [setClipboardContent_false] at hagree ⊢
  constructor
  · rw [hdead]
    exact hagree
  · rw [hdead]
    exact h.apart.sublist hsub
  · rw [hdead]
    exact fun record hmem => h.past record (hsub.subset hmem)
  · rw [State.PhaseGood]
    dsimp only
    rw [hdead]
    exact fun old hmem => Nat.le_trans (hold old hmem) htime
  · intro check hcheck
    obtain ⟨hcount, looked, hlooked, hgone⟩ := h.check check hcheck
    dsimp only
    rw [hfailed]
    rw [hcalls] at hcount hgone
    refine ⟨hcount, looked, hlooked, ?_⟩
    intro clipboard hclipboard other hother hnumber hlive
    rcases List.mem_cons.mp hother with rfl | hother
    · cases hlive
    · exact hgone clipboard hclipboard other (List.mem_cons_of_mem call hother) hnumber hlive

/-- The clipboard has been set. -/
theorem State.Good.setOk (h : s.Good decompress) :
  ({ s with phase := .sleeping s.now } : State).Good decompress
  := ⟨h.agree, h.apart, h.past, h.past, h.check⟩

/-- The call returns after its delay. -/
theorem State.Good.wake (h : s.Good decompress) {since : ℕ} (hphase : s.phase = .sleeping since)
    (hslept : since + clipboardSyncDelay ≤ s.now) :
  ({ s with phase := .idle } : State).Good decompress
  := by
  have hsleeping := h.phase
  rw [State.PhaseGood, hphase] at hsleeping
  refine ⟨h.agree, h.apart, h.past, ?_, h.check⟩
  intro record hrecord
  exact Nat.le_trans (Nat.add_le_add_right (hsleeping record hrecord) clipboardSyncDelay) hslept

/-- A message comes. -/
theorem State.Good.examine (h : s.Good decompress) (msg : Message) :
  (s.shouldSkip false msg).Good decompress
  := by
  apply h.withCheck
  intro check hcheck
  obtain rfl := Option.some.inj hcheck
  exact ⟨Nat.le_refl _, [], rfl, by rintro clipboard ⟨⟩⟩

/-- A content is looked at and not found. -/
theorem State.Good.look (h : s.Good decompress) {check : Check} {rest : List Clipboard}
    (hcheck : s.check = some check) (hrest : check.rest = clipboard :: rest)
    (hmiss : isRecentWaylandInput false decompress clipboard s.now s.records = (false, records)) :
  ({ s with records := records, check := some { check with rest := rest } } : State).Good decompress
  := by
  obtain ⟨hsub, hagree⟩ := h.isRecentInput_records clipboard
  rw [hmiss] at hsub hagree
  apply (h.withRecords hsub hagree).withCheck
  intro next hnext
  obtain rfl := Option.some.inj hnext
  obtain ⟨hbefore, looked, hlooked, hgone⟩ := h.check check hcheck
  refine ⟨hbefore, looked ++ [clipboard], ?_, ?_⟩
  · dsimp only
    rw [hlooked, hrest, List.append_assoc, List.singleton_append]
  · intro other hother call hcall hnumber hlive hcarries
    rcases List.mem_append.mp hother with hother | hother
    · exact hgone other hother call hcall hnumber hlive hcarries
    · rw [List.mem_singleton.mp hother] at hcarries
      have hiff := h.isRecentInput_of_carries hcarries
      rw [hmiss] at hiff
      by_contra htime
      cases hiff.mpr ⟨call, hcall, hlive, Nat.not_lt.mp htime, rfl⟩

theorem State.Good.step {s' : State} {label : Label} (h : s.Good decompress)
    (hstep : Step false decompress s label s') :
  s'.Good decompress
  := by
  cases hstep with
  | tick d => exact h.tick d
  | call text hphase => exact h.call text hphase
  | set ok hphase =>
      cases ok with
      | true => exact h.setOk
      | false => exact (h.setFailed hphase).1
  | wake hphase hslept => exact h.wake hphase hslept
  | examine msg => exact h.examine msg
  | look hcheck hrest hmiss => exact h.look hcheck hrest hmiss
  | @hit _ clipboard _ _ _ _ hhit =>
      obtain ⟨hsub, hagree⟩ := h.isRecentInput_records clipboard
      rw [hhit] at hsub hagree
      apply (h.withRecords hsub hagree).withCheck
      rintro check ⟨⟩
  | finish =>
      apply h.withCheck
      rintro check ⟨⟩

/-- A check looks at its contents one by one, and returns at the first that is found or when none
is left. -/
theorem State.returns {isX11 : Bool} {check : Check} (hcheck : s.check = some check) :
  s.Returns isX11 decompress check
  := by
  obtain ⟨rest, hrest⟩ : ∃ rest, check.rest = rest := ⟨_, rfl⟩
  rw [State.Returns]
  induction rest generalizing s check with
  | nil =>
      refine ⟨[], s, false, _, .nil, ?_, Nat.zero_le _, .finish hcheck hrest⟩
      rintro x ⟨⟩
  | cons clipboard rest ih =>
      rcases hfound : isRecentWaylandInput isX11 decompress clipboard s.now s.records with
        ⟨found, records⟩
      cases found with
      | true =>
          refine ⟨[], s, true, _, .nil, ?_, Nat.zero_le _, .hit hcheck hrest hfound⟩
          rintro x ⟨⟩
      | false =>
          have hlook := Step.look hcheck hrest hfound
          have hleft : ({ s with
              records := records, check := some { check with rest := rest } } : State).check
              = some { check with rest := rest } := rfl
          obtain ⟨history, s', skips, s'', hrun, hlooks, hlength, hreturns⟩ := ih hleft rfl
          refine ⟨_, s', skips, s'', (Run.nil.snoc hlook).append hrun, ?_, ?_, hreturns⟩
          · simpa using hlooks
          · rw [hrest]
            simpa [Nat.add_comm] using hlength

/-- A step of something else leaves the check. -/
theorem kept_of_step {s' : State} {label : Label} {check : Check} (hcheck : s.check = some check)
    (hstep : Step false decompress s label s') :
  s'.check = some check ∨ (∃ clipboard rest, label = .look ∧ check.rest = clipboard :: rest
    ∧ s'.check = some { check with rest := rest }) ∨ ∃ skips, label = .returns skips
  := by
  cases hstep with
  | tick d => exact .inl hcheck
  | call text => exact .inl hcheck
  | set ok =>
      cases ok with
      | true => exact .inl hcheck
      | false => exact .inl hcheck
  | wake => exact .inl hcheck
  | examine msg hnone => cases hcheck.symm.trans hnone
  | look hlooks hrest =>
      obtain rfl := Option.some.inj (hcheck.symm.trans hlooks)
      exact .inr (.inl ⟨_, _, rfl, hrest, rfl⟩)
  | hit => exact .inr (.inr ⟨_, rfl⟩)
  | finish => exact .inr (.inr ⟨_, rfl⟩)

theorem State.Good.filtered (h : s.Good decompress) :
  s.Filtered decompress
  where
  started msg hnone := ⟨_, .examine msg hnone, rfl⟩
  returns _ hcheck := State.returns hcheck
  kept hcheck hstep := kept_of_step hcheck hstep
  skipped := by
    intro check skips s' call clipboard hcheck hstep hcall hnumber hfailed htext htime hclipboard
      hcarries
    have hlive : call.live = true := by
      rw [Call.live, hfailed, Bool.not_false, Bool.true_and]
      exact decide_eq_true htext
    cases hstep with
    | hit => rfl
    | finish hdone hrest =>
        rw [hcheck] at hdone
        obtain rfl := Option.some.inj hdone
        obtain ⟨-, looked, hlooked, hgone⟩ := h.check check hcheck
        rw [hrest, List.append_nil] at hlooked
        rw [hlooked] at hclipboard
        have hlate := hgone clipboard hclipboard call hcall hnumber hlive hcarries
        exact absurd htime (Nat.not_le.mpr hlate)
  takenBack := by
    intro record before s' hphase hstep
    cases hstep with
    | set _ hsetting =>
        rw [hphase] at hsetting
        cases hsetting
        obtain ⟨-, hsub, hagree⟩ := h.setFailed hphase
        exact ⟨hsub, hagree s.now (Nat.le_refl _)⟩
  sent := by
    intro check skips s' hcheck hstep hother
    cases hstep with
    | @hit _ clipboard _ _ hfound hrest hhit =>
        rw [hcheck] at hfound
        obtain rfl := Option.some.inj hfound
        obtain ⟨-, looked, hlooked, -⟩ := h.check check hcheck
        have hmem : clipboard ∈ check.clipboards := by
          rw [hlooked, hrest]
          exact List.mem_append_right looked (List.mem_cons_self)
        have hfound := (h.isRecentInput_iff clipboard).mp (congrArg Prod.fst hhit)
        obtain ⟨read, hread, -⟩ := hfound
        have hformat : clipboard.format.enumValue = some .text := by
          by_contra hformat
          rw [decodeTextClipboard, if_pos hformat] at hread
          cases hread
        obtain ⟨text, hcarries, hdiffers⟩ := hother clipboard hmem hformat
        obtain ⟨call, hcall, -, htime, hchars⟩ :=
          (h.isRecentInput_of_carries hcarries).mp (congrArg Prod.fst hhit)
        exact absurd hchars (hdiffers call hcall htime)
    | finish => rfl

/-- In every run a pasted text is skipped for a second, a call that fails leaves the records as they
were, and other texts are sent. -/
theorem filtered_of_run {now : ℕ} {history : List (State × Label)} {s : State}
    (hrun : Run (Step false decompress) (State.init now) history s) :
  s.Filtered decompress
  := by
  apply State.Good.filtered
  apply hrun.invariant (State.Good decompress) (good_init now)
  exact fun _ _ _ h hstep => h.step hstep

end

/-- A message with the text `é` that comes while the call that pasted it sleeps is skipped: the
check returns, and it says so. -/
theorem filtered_pasted :
  let s₁ := (State.init 7).setClipboardForPasteSync false "é"
  let s₂ := { s₁ with phase := .sleeping 7 }
  let clipboard : Clipboard := { content := Utf8.bytes "é", format := .known .text }
  let check : Check := ⟨[clipboard], [clipboard], 1⟩
  (s₂.shouldSkip false (.clipboard clipboard)).Returns false id check ∧
    ∀ skips s', Step false id (s₂.shouldSkip false (.clipboard clipboard)) (.returns skips) s' →
      skips = true
  := by
  intro s₁ s₂ clipboard check
  have hrun : Run (Step false id) (State.init 7)
      ([] ++ [(State.init 7, .call "é")] ++ [(s₁, .set true)]
        ++ [(s₂, .examine (.clipboard clipboard))])
      (s₂.shouldSkip false (.clipboard clipboard)) :=
    .snoc (.snoc (.snoc .nil (.call "é" rfl)) (.set true rfl)) (.examine _ rfl)
  have hcall : ⟨0, 7, "é", false⟩ ∈ s₂.calls := List.mem_singleton_self _
  have hclipboard : clipboard ∈ [clipboard] := List.mem_singleton_self clipboard
  have hcarries : Carries id clipboard "é" := ⟨rfl, rfl⟩
  have hfiltered := filtered_of_run hrun
  apply And.intro (hfiltered.returns check rfl)
  intro skips s' hstep
  exact hfiltered.skipped rfl hstep hcall Nat.zero_lt_one rfl (by decide) (by decide) hclipboard
    hcarries

end VynxDesk.Contents.PasteFilter
