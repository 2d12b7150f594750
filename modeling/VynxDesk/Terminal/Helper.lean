import VynxDesk.Lib.LittleEndian
import VynxDesk.Lib.Reader

/-!
# The pipe to the terminal helper

The service frames terminal data and sizes with `encode_helper_message` and `encode_resize_message`;
the input thread of `run_terminal_helper` reads the frames from a pipe, in pieces of any sizes, into
one buffer that grows.  However the pipe delivers the first bytes of a sequence of frames, the
thread acts on the frames that are complete and on nothing else (`inputThread_framed`).
-/

namespace VynxDesk.TerminalHelper

abbrev Bytes : Type := List UInt8

/-- `MSG_TYPE_DATA`. -/
def msgTypeData : UInt8 := 0x01

/-- `MSG_TYPE_RESIZE`. -/
def msgTypeResize : UInt8 := 0x02

/-- `MSG_HEADER_SIZE`. -/
def msgHeaderSize : ℕ := 5

/-- `MAX_PAYLOAD_SIZE`. -/
def maxPayloadSize : ℕ := 16 * 1024 * 1024

/-- `encode_helper_message`; `as u32` keeps the lowest four bytes of the length. -/
def encodeHelperMessage (msgType : UInt8) (payload : Bytes) : Bytes :=
  msgType :: leBytes 4 payload.length ++ payload

/-- `encode_resize_message`. -/
def encodeResizeMessage (rows cols : UInt16) : Bytes :=
  encodeHelperMessage msgTypeResize (leBytes 2 rows.toNat ++ leBytes 2 cols.toNat)

/-! ### The input thread -/

/-- The loop of `read_exact_or_eof` at a position of the buffer: whether it was filled, or none when
a read failed, with the buffer and the reader behind it. -/
def readExactOrEof (reader : Reader) (buf : Bytes) (pos : ℕ) : Option Bool × Bytes × Reader :=
  if _hpos : pos < buf.length then
    match _hread : reader.read (buf.length - pos) with
    | (.interrupted, reader) => readExactOrEof reader buf pos
    | (.failed, reader) => (none, buf, reader)
    | (.got bytes, reader) =>
        if _hbytes : bytes = [] then (some false, buf, reader)
        else
          readExactOrEof reader (buf.take pos ++ bytes ++ buf.drop (pos + bytes.length))
            (pos + bytes.length)
  else (some true, buf, reader)
termination_by reader.left
decreasing_by
  · exact Reader.left_read_interrupted _hread
  · exact Reader.left_read_got (Nat.sub_pos_of_lt _hpos) _hread _hbytes

/-- What filling a buffer from a position on comes to: it is filled with the next bytes, and that is
so if there are enough of them. -/
structure Fills (reader : Reader) (buf : Bytes) (pos : ℕ)
    (result : Option Bool × Bytes × Reader) : Prop where
  length : result.2.1.length = buf.length
  filled : buf.length - pos ≤ reader.bytes.length → result.1 = some true
  whole : result.1 = some true → buf.length - pos ≤ reader.bytes.length
    ∧ result.2.1 = buf.take pos ++ reader.bytes.take (buf.length - pos)
    ∧ result.2.2.bytes = reader.bytes.drop (buf.length - pos)

/-- However the bytes come, a buffer is filled with the next ones. -/
theorem fills_readExactOrEof (reader : Reader) (buf : Bytes) (pos : ℕ) (hle : pos ≤ buf.length) :
  Fills reader buf pos (readExactOrEof reader buf pos)
  := by
  fun_induction readExactOrEof reader buf pos with
  | case1 reader buf pos hpos reader' hread ih =>
      obtain ⟨hbytes, -⟩ := Reader.read_interrupted hread
      obtain ⟨hlength, hfilled, hwhole⟩ := ih hle
      rw [hbytes] at hfilled hwhole
      exact ⟨hlength, hfilled, hwhole⟩
  | case2 reader buf pos hpos reader' hread =>
      have hnil := Reader.read_failed hread
      constructor
      · rfl
      · rw [hnil, List.length_nil]
        omega
      · intro hfailed
        cases hfailed
  | case3 reader buf pos hpos reader' hread =>
      obtain ⟨-, -, -, hnil⟩ := Reader.read_got (Nat.sub_pos_of_lt hpos) hread
      constructor
      · rfl
      · rw [hnil rfl, List.length_nil]
        omega
      · intro hend
        cases hend
  | case4 reader buf pos hpos bytes reader' hread hne ih =>
      obtain ⟨-, hfit, hbytes, -⟩ := Reader.read_got (Nat.sub_pos_of_lt hpos) hread
      have hstart : (buf.take pos ++ bytes).length = pos + bytes.length := by
        rw [List.length_append, List.length_take_of_le hle]
      have hbuf : (buf.take pos ++ bytes ++ buf.drop (pos + bytes.length)).length = buf.length := by
        rw [List.length_append, hstart, List.length_drop]
        omega
      obtain ⟨hlength, hfilled, hwhole⟩ := ih (by omega)
      have hrest : buf.length - pos = bytes.length + (buf.length - (pos + bytes.length)) := by
        omega
      rw [hbuf] at hlength hfilled hwhole
      constructor
      · exact hlength
      · intro henough
        apply hfilled
        rw [hbytes, List.length_append] at henough
        omega
      · intro htrue
        obtain ⟨henough, hfull, hleft⟩ := hwhole htrue
        rw [List.take_left' hstart] at hfull
        rw [hfull, hleft, hbytes, hrest, List.length_append]
        refine ⟨by omega, ?_, ?_⟩
        · rw [List.take_length_add_append, List.append_assoc]
        · rw [List.drop_length_add_append]
  | case5 reader buf pos hpos =>
      have hall : pos = buf.length := by
        omega
      constructor
      · rfl
      · intro _
        rfl
      · intro _
        rw [hall, Nat.sub_self]
        simp

/-- What the pseudoterminal sees: the bytes written to it, and its new sizes. -/
inductive Effect where
  | byte (b : UInt8)
  | resize (rows cols : UInt16)
  deriving DecidableEq, Repr

/-- What ends the thread early: the round that finds `exiting` set, and the round whose data cannot
be written, with how much of it is. -/
structure Ending where
  exiting : Option ℕ := none
  ptyError : Option (ℕ × ℕ) := none
  deriving DecidableEq, Repr

/-- The input thread: its pipe and buffers, the rounds of its loop, and what it has done. -/
structure Input where
  inputPipe : Reader
  headerBuf : Bytes := List.replicate msgHeaderSize 0
  payloadBuf : Bytes := List.replicate 4096 0
  round : ℕ := 0
  effects : List Effect := []
  header : headerBuf.length = msgHeaderSize := by rfl

/-- Whether the loop goes on. -/
inductive Control where
  | goOn
  | stop
  deriving DecidableEq, Repr

namespace Input

/-- The header of the next message is read over the last one. -/
def readHeader (s : Input) : Option Bool × Input :=
  let result := readExactOrEof s.inputPipe s.headerBuf 0
  (result.1, { s with
    headerBuf := result.2.1
    inputPipe := result.2.2
    header := (fills_readExactOrEof _ _ _ (Nat.zero_le _)).length.trans s.header })

/-- The buffer is made large enough for the payload, which is read over its first bytes. -/
def readPayload (s : Input) (payloadLen : ℕ) : Option Bool × Input :=
  let payloadBuf :=
    if s.payloadBuf.length < payloadLen then
      s.payloadBuf ++ List.replicate (payloadLen - s.payloadBuf.length) 0
    else s.payloadBuf
  if 0 < payloadLen then
    let result := readExactOrEof s.inputPipe (payloadBuf.take payloadLen) 0
    (result.1, { s with
      inputPipe := result.2.2
      payloadBuf := result.2.1 ++ payloadBuf.drop payloadLen })
  else (some true, { s with payloadBuf := payloadBuf })

/-- The `match msg_type` of the loop. -/
def act (s : Input) (ending : Ending) (msgType : UInt8) (payload : Bytes) : Control × Input :=
  if msgType = msgTypeData then
    match ending.ptyError with
    | some (round, written) =>
        if round = s.round then
          (.stop, { s with effects := s.effects ++ (payload.take written).map .byte })
        else (.goOn, { s with effects := s.effects ++ payload.map .byte })
    | none => (.goOn, { s with effects := s.effects ++ payload.map .byte })
  else if msgType = msgTypeResize then
    if 4 ≤ payload.length then
      let rows := UInt16.ofNat (leNat (payload.take 2))
      let cols := UInt16.ofNat (leNat ((payload.drop 2).take 2))
      (.goOn, { s with effects := s.effects ++ [.resize rows cols] })
    else (.goOn, s)
  else (.stop, s)

/-- One round of the loop of the input thread. -/
def iterate (s : Input) (ending : Ending) : Control × Input :=
  if ending.exiting = some s.round then (.stop, s)
  else
    let (filled, s) := s.readHeader
    if filled = some true then
      let msgType := s.headerBuf.headD 0
      let payloadLen := leNat (s.headerBuf.drop 1)
      if maxPayloadSize < payloadLen then (.stop, s)
      else
        let (filled, s) := s.readPayload payloadLen
        if filled = some true then
          let (control, s) := s.act ending msgType (s.payloadBuf.take payloadLen)
          (control, { s with round := s.round + 1 })
        else (.stop, s)
    else (.stop, s)

/-- The message at the front of the bytes, if all of it is there, and the bytes behind it. -/
def frameOf (bytes : Bytes) : Option (UInt8 × Bytes × Bytes) :=
  let payloadLen := leNat ((bytes.drop 1).take 4)
  if payloadLen ≤ maxPayloadSize ∧ msgHeaderSize + payloadLen ≤ bytes.length then
    some (bytes.headD 0, (bytes.drop msgHeaderSize).take payloadLen,
      bytes.drop (msgHeaderSize + payloadLen))
  else none

variable {s s' : Input} {ending : Ending} {msgType : UInt8} {payload rest : Bytes}

/-- A header is read when there are bytes enough, and it is the next bytes. -/
theorem readHeader_spec (s : Input) :
  (msgHeaderSize ≤ s.inputPipe.bytes.length ∧ s.readHeader.1 = some true
      ∧ s.readHeader.2.headerBuf = s.inputPipe.bytes.take msgHeaderSize
      ∧ s.readHeader.2.inputPipe.bytes = s.inputPipe.bytes.drop msgHeaderSize)
    ∨ (s.inputPipe.bytes.length < msgHeaderSize ∧ s.readHeader.1 ≠ some true)
  := by
  have hfills := fills_readExactOrEof s.inputPipe s.headerBuf 0 (Nat.zero_le _)
  have hsize : s.headerBuf.length - 0 = msgHeaderSize := s.header
  by_cases hle : msgHeaderSize ≤ s.inputPipe.bytes.length
  · left
    have hfilled := hfills.filled (by rw [hsize]; exact hle)
    obtain ⟨-, hbuf, hbytes⟩ := hfills.whole hfilled
    rw [hsize] at hbuf hbytes
    exact ⟨hle, hfilled, hbuf, hbytes⟩
  · right
    apply And.intro (Nat.lt_of_not_le hle)
    intro hfilled
    obtain ⟨henough, -⟩ := hfills.whole hfilled
    rw [hsize] at henough
    exact hle henough

/-- A payload is read when there are bytes enough, and it is the next bytes: what the buffer held
before does not show. -/
theorem readPayload_spec (s : Input) (payloadLen : ℕ) :
  (payloadLen ≤ s.inputPipe.bytes.length ∧ (s.readPayload payloadLen).1 = some true
      ∧ (s.readPayload payloadLen).2.payloadBuf.take payloadLen = s.inputPipe.bytes.take payloadLen
      ∧ (s.readPayload payloadLen).2.inputPipe.bytes = s.inputPipe.bytes.drop payloadLen)
    ∨ (s.inputPipe.bytes.length < payloadLen ∧ (s.readPayload payloadLen).1 ≠ some true)
  := by
  rw [readPayload]
  dsimp only
  generalize hbuf : (if s.payloadBuf.length < payloadLen then
      s.payloadBuf ++ List.replicate (payloadLen - s.payloadBuf.length) 0
    else s.payloadBuf) = payloadBuf
  have hlarge : payloadLen ≤ payloadBuf.length := by
    rw [← hbuf]
    split
    · rw [List.length_append, List.length_replicate]
      omega
    · omega
  have hfills := fills_readExactOrEof s.inputPipe (payloadBuf.take payloadLen) 0 (Nat.zero_le _)
  have hsize : (payloadBuf.take payloadLen).length - 0 = payloadLen :=
    List.length_take_of_le hlarge
  by_cases hpos : 0 < payloadLen
  · rw [if_pos hpos]
    by_cases hle : payloadLen ≤ s.inputPipe.bytes.length
    · left
      have hfilled := hfills.filled (by rw [hsize]; exact hle)
      obtain ⟨-, hwhole, hbytes⟩ := hfills.whole hfilled
      rw [hsize] at hwhole hbytes
      refine ⟨hle, hfilled, ?_, hbytes⟩
      dsimp only
      rw [hwhole, List.take_zero, List.nil_append, List.take_left']
      apply List.length_take_of_le hle
    · right
      apply And.intro (Nat.lt_of_not_le hle)
      intro hfilled
      obtain ⟨henough, -⟩ := hfills.whole hfilled
      rw [hsize] at henough
      exact hle henough
  · left
    rw [if_neg hpos]
    obtain rfl : payloadLen = 0 := by
      omega
    exact ⟨Nat.zero_le _, rfl, by simp, by simp⟩

/-- Reading a payload leaves what has been done. -/
theorem readPayload_same (s : Input) (payloadLen : ℕ) :
  (s.readPayload payloadLen).2.effects = s.effects ∧ (s.readPayload payloadLen).2.round = s.round
  := by
  rw [readPayload]
  dsimp only
  split <;> exact ⟨rfl, rfl⟩

/-- The first bytes of a header, and the length behind them. -/
theorem header_of_take {bytes header : Bytes} (hheader : header = bytes.take msgHeaderSize) :
  header.headD 0 = bytes.headD 0 ∧ header.drop 1 = (bytes.drop 1).take 4
  := by
  subst hheader
  cases bytes with
  | nil => exact ⟨rfl, rfl⟩
  | cons b bytes => exact ⟨rfl, rfl⟩

/-- A round acts on the message at the front of the bytes. -/
theorem iterate_of_frame (hexiting : ending.exiting ≠ some s.round)
    (hframe : frameOf s.inputPipe.bytes = some (msgType, payload, rest)) :
  ∃ s₁ : Input, s₁.inputPipe.bytes = rest ∧ s₁.effects = s.effects ∧ s₁.round = s.round
    ∧ s.iterate ending
      = ((s₁.act ending msgType payload).1,
        { (s₁.act ending msgType payload).2 with
          round := (s₁.act ending msgType payload).2.round + 1 })
  := by
  unfold frameOf at hframe
  obtain ⟨⟨hmax, hlength⟩, hsome⟩ := Option.ite_none_right_eq_some.mp hframe
  cases hsome
  rcases s.readHeader_spec with ⟨-, hfilled, hheader, hbytes⟩ | ⟨hshort, -⟩
  · obtain ⟨htype, hlen⟩ := header_of_take hheader
    generalize hpayloadLen : leNat ((s.inputPipe.bytes.drop 1).take 4) = payloadLen at hmax hlength
    have hpayload := s.readHeader.2.readPayload_spec payloadLen
    rw [hbytes, List.length_drop] at hpayload
    rcases hpayload with ⟨-, hread, hwhole, hleft⟩ | ⟨hshort, -⟩
    · obtain ⟨heffects, hround⟩ := s.readHeader.2.readPayload_same payloadLen
      refine ⟨(s.readHeader.2.readPayload payloadLen).2, ?_, heffects, hround, ?_⟩
      · rw [hleft, List.drop_drop]
      · rw [iterate, if_neg hexiting]
        dsimp only
        rw [if_pos hfilled, hlen, hpayloadLen, if_neg (Nat.not_lt_of_le hmax), if_pos hread, htype,
          hwhole]
    · omega
  · omega

/-- A round that finds no whole message stops, and has done nothing. -/
theorem iterate_of_no_frame (ending : Ending) (hframe : frameOf s.inputPipe.bytes = none) :
  (s.iterate ending).1 = .stop ∧ (s.iterate ending).2.effects = s.effects
  := by
  rw [iterate]
  split_ifs with hexiting
  · exact ⟨rfl, rfl⟩
  · dsimp only
    split_ifs with hfilled hmax hread
    · exact ⟨rfl, rfl⟩
    · exfalso
      rcases s.readHeader_spec with ⟨hle, -, hheader, hbytes⟩ | ⟨-, hnot⟩
      · obtain ⟨-, hlen⟩ := header_of_take hheader
        rw [hlen] at hmax hread
        have hpayload := s.readHeader.2.readPayload_spec
          (leNat ((s.inputPipe.bytes.drop 1).take 4))
        rw [hbytes, List.length_drop] at hpayload
        rcases hpayload with ⟨henough, -⟩ | ⟨-, hnot⟩
        · rw [frameOf, if_pos ⟨Nat.le_of_not_lt hmax, by omega⟩] at hframe
          cases hframe
        · exact hnot hread
      · exact hnot hfilled
    · apply And.intro rfl
      apply (readPayload_same _ _).1
    · exact ⟨rfl, rfl⟩

/-- What a message is for needs no more bytes. -/
theorem act_inputPipe (s : Input) (ending : Ending) (msgType : UInt8) (payload : Bytes) :
  (s.act ending msgType payload).2.inputPipe = s.inputPipe
  := by
  unfold act
  split
  · split
    · split <;> rfl
    · rfl
  · split
    · split <;> rfl
    · rfl

/-- A round that goes on has read a message. -/
theorem length_of_iterate (h : s.iterate ending = (.goOn, s')) :
  s'.inputPipe.bytes.length < s.inputPipe.bytes.length
  := by
  have hexiting : ending.exiting ≠ some s.round := by
    intro hexiting
    rw [iterate, if_pos hexiting] at h
    cases h
  cases hframe : frameOf s.inputPipe.bytes with
  | none =>
      have hstop := (iterate_of_no_frame ending hframe).1
      rw [h] at hstop
      cases hstop
  | some frame =>
      obtain ⟨msgType, payload, rest⟩ := frame
      obtain ⟨s₁, hrest, -, -, hiterate⟩ := iterate_of_frame hexiting hframe
      rw [h] at hiterate
      obtain ⟨-, rfl⟩ := Prod.mk.inj hiterate
      unfold frameOf at hframe
      obtain ⟨⟨-, hlength⟩, hsome⟩ := Option.ite_none_right_eq_some.mp hframe
      cases hsome
      change (s₁.act ending _ _).2.inputPipe.bytes.length < _
      rw [act_inputPipe, hrest, List.length_drop]
      unfold msgHeaderSize at hlength ⊢
      omega

/-- The input thread, from a round of its loop on. -/
def inputThread (s : Input) (ending : Ending) : Input :=
  match _h : s.iterate ending with
  | (.stop, s) => s
  | (.goOn, s) => s.inputThread ending
termination_by s.inputPipe.bytes.length
decreasing_by exact length_of_iterate _h

theorem inputThread_of_stop (h : (s.iterate ending).1 = .stop) :
  s.inputThread ending = (s.iterate ending).2
  := by
  rw [inputThread]
  split
  · rename_i hiterate
    rw [hiterate]
  · rename_i hiterate
    rw [hiterate] at h
    cases h

theorem inputThread_of_goOn (h : (s.iterate ending).1 = .goOn) :
  s.inputThread ending = (s.iterate ending).2.inputThread ending
  := by
  rw [inputThread]
  split
  · rename_i hiterate
    rw [hiterate] at h
    cases h
  · rename_i hiterate
    rw [hiterate]

end Input

/-! ### Sequences of messages -/

/-- What the service sends: terminal data that is not too long, and sizes. -/
inductive Sent where
  | data (payload : Bytes) (fits : payload.length ≤ maxPayloadSize)
  | resize (rows cols : UInt16)

namespace Sent

def encode : Sent → Bytes
  | .data payload _ => encodeHelperMessage msgTypeData payload
  | .resize rows cols => encodeResizeMessage rows cols

/-- What a message is for. -/
def effects : Sent → List Effect
  | .data payload _ => payload.map .byte
  | .resize rows cols => [.resize rows cols]

/-- The messages that are whole among the first `n` bytes of their concatenation. -/
def delivered : List Sent → ℕ → List Sent
  | [], _ => []
  | m :: messages, n =>
      if m.encode.length ≤ n then m :: delivered messages (n - m.encode.length) else []

end Sent

theorem length_encodeHelperMessage (msgType : UInt8) (payload : Bytes) :
  (encodeHelperMessage msgType payload).length = msgHeaderSize + payload.length
  := by
  simp only [encodeHelperMessage, List.length_append, List.length_cons, length_leBytes]
  rfl

/-- The length in a message is that of its payload. -/
theorem leNat_length (msgType : UInt8) {payload : Bytes} (hfits : payload.length ≤ maxPayloadSize)
    (rest : Bytes) :
  leNat (((encodeHelperMessage msgType payload ++ rest).drop 1).take 4) = payload.length
  := by
  have hlt : payload.length < 256 ^ 4 := by
    unfold maxPayloadSize at hfits
    omega
  rw [encodeHelperMessage, List.cons_append, List.cons_append, List.drop_one, List.tail_cons,
    List.append_assoc, List.take_left' (length_leBytes _ _), leNat_leBytes_of_lt hlt]

/-- A message at the front of the bytes is found. -/
theorem frameOf_encode (msgType : UInt8) {payload : Bytes} (hfits : payload.length ≤ maxPayloadSize)
    (rest : Bytes) :
  Input.frameOf (encodeHelperMessage msgType payload ++ rest) = some (msgType, payload, rest)
  := by
  have hlength := length_encodeHelperMessage msgType payload
  have hheader : (msgType :: leBytes 4 payload.length).length = msgHeaderSize := by
    rw [List.length_cons, length_leBytes]
    rfl
  rw [Input.frameOf, leNat_length msgType hfits, if_pos]
  · rw [← hlength, List.drop_left, encodeHelperMessage, List.append_assoc,
      List.drop_left' hheader, List.take_left]
    rfl
  · apply And.intro hfits
    rw [List.length_append, hlength]
    omega

/-- The first part of a message is no message. -/
theorem frameOf_take (msgType : UInt8) {payload : Bytes} (hfits : payload.length ≤ maxPayloadSize)
    {n : ℕ} (hn : n < (encodeHelperMessage msgType payload).length) :
  Input.frameOf ((encodeHelperMessage msgType payload).take n) = none
  := by
  rw [Input.frameOf, if_neg]
  rintro ⟨-, hle⟩
  have hlength := length_encodeHelperMessage msgType payload
  rw [List.length_take] at hle
  have hheader : msgHeaderSize ≤ n := by
    omega
  -- The length is whole, so that the payload is not.
  have hlen := leNat_length msgType hfits []
  rw [List.append_nil] at hlen
  rw [List.drop_take, List.take_take, Nat.min_eq_left, hlen] at hle
  · omega
  · unfold msgHeaderSize at hheader
    omega

/-- A message has a type and a payload, and the thread does what it is for unless the
pseudoterminal fails. -/
theorem Sent.encode_eq (m : Sent) :
  ∃ msgType payload, payload.length ≤ maxPayloadSize
    ∧ m.encode = encodeHelperMessage msgType payload
    ∧ ∀ (s : Input) (ending : Ending),
      ((s.act ending msgType payload).1 = .goOn
          ∧ (s.act ending msgType payload).2.effects = s.effects ++ m.effects)
        ∨ ((s.act ending msgType payload).1 = .stop ∧ ending.ptyError ≠ none
          ∧ ∃ part, part <+: m.effects
            ∧ (s.act ending msgType payload).2.effects = s.effects ++ part)
  := by
  cases m with
  | data payload fits =>
      refine ⟨msgTypeData, payload, fits, rfl, ?_⟩
      intro s ending
      rw [Input.act, if_pos rfl]
      split
      next round written herror =>
          split
          · right
            refine ⟨rfl, ?_, (payload.take written).map .byte, ?_, rfl⟩
            · rw [herror]
              apply Option.some_ne_none
            · apply List.IsPrefix.map _ (List.take_prefix _ _)
          · left
            exact ⟨rfl, rfl⟩
      next =>
          left
          exact ⟨rfl, rfl⟩
  | resize rows cols =>
      refine ⟨msgTypeResize, leBytes 2 rows.toNat ++ leBytes 2 cols.toNat, ?_, rfl, ?_⟩
      · rw [List.length_append, length_leBytes, length_leBytes]
        decide
      · intro s ending
        have hrows : leNat (leBytes 2 rows.toNat) = rows.toNat := leNat_leBytes_of_lt rows.toNat_lt
        have hcols : leNat (leBytes 2 cols.toNat) = cols.toNat := leNat_leBytes_of_lt cols.toNat_lt
        left
        rw [Input.act, if_neg (by decide), if_pos rfl, if_pos]
        · apply And.intro rfl
          dsimp only
          rw [List.take_left' (length_leBytes _ _), List.drop_left' (length_leBytes _ _),
            List.take_of_length_le (Nat.le_of_eq (length_leBytes _ _)), hrows, hcols,
            UInt16.ofNat_toNat, UInt16.ofNat_toNat]
          rfl
        · rw [List.length_append, length_leBytes, length_leBytes]

/-- From `s` on the input thread does these things, or a first part of them if it ends early. -/
def Input.Does (s : Input) (ending : Ending) (effects : List Effect) : Prop :=
  ∃ part, part <+: effects ∧ (s.inputThread ending).effects = s.effects ++ part
    ∧ (ending = {} → part = effects)

/-- Without a whole message the input thread does nothing. -/
theorem Input.does_of_no_frame {s : Input} (ending : Ending)
    (hframe : frameOf s.inputPipe.bytes = none) :
  s.Does ending []
  := by
  obtain ⟨hstop, hsame⟩ := iterate_of_no_frame ending hframe
  refine ⟨[], List.nil_prefix, ?_, fun _ => rfl⟩
  rw [inputThread_of_stop hstop, hsame, List.append_nil]

/-- With a whole message the input thread does what it is for, and goes on behind it. -/
theorem Input.does_of_message {s : Input} {ending : Ending} {m : Sent} {rest : Bytes}
    {effects : List Effect} (hbytes : s.inputPipe.bytes = m.encode ++ rest)
    (hrest : ∀ s' : Input, s'.inputPipe.bytes = rest → s'.Does ending effects) :
  s.Does ending (m.effects ++ effects)
  := by
  by_cases hexiting : ending.exiting = some s.round
  · have hiterate : s.iterate ending = (.stop, s) := by
      rw [iterate, if_pos hexiting]
    refine ⟨[], List.nil_prefix, ?_, ?_⟩
    · rw [inputThread_of_stop (by rw [hiterate]), hiterate, List.append_nil]
    · rintro rfl
      cases hexiting
  · obtain ⟨msgType, payload, hfits, hencode, hact⟩ := m.encode_eq
    have hframe : frameOf s.inputPipe.bytes = some (msgType, payload, rest) := by
      rw [hbytes, hencode]
      apply frameOf_encode msgType hfits
    obtain ⟨s₁, hleft, heffects, -, hiterate⟩ := iterate_of_frame hexiting hframe
    rcases hact s₁ ending with ⟨hgoOn, hdone⟩ | ⟨hstop, herror, part, hpart, hdone⟩
    · have hbehind : (s.iterate ending).2.inputPipe.bytes = rest := by
        rw [hiterate]
        change (s₁.act ending msgType payload).2.inputPipe.bytes = rest
        rw [act_inputPipe, hleft]
      have hsofar : (s.iterate ending).2.effects = s.effects ++ m.effects := by
        rw [hiterate]
        change (s₁.act ending msgType payload).2.effects = _
        rw [hdone, heffects]
      obtain ⟨part, hpart, hthread, hall⟩ := hrest _ hbehind
      refine ⟨m.effects ++ part, ?_, ?_, ?_⟩
      · apply (List.prefix_append_right_inj _).mpr hpart
      · rw [inputThread_of_goOn (by rw [hiterate]; exact hgoOn), hthread, hsofar,
          List.append_assoc]
      · intro hquiet
        rw [hall hquiet]
    · refine ⟨part, hpart.trans (List.prefix_append _ _), ?_, ?_⟩
      · rw [inputThread_of_stop (by rw [hiterate]; exact hstop), hiterate]
        change (s₁.act ending msgType payload).2.effects = _
        rw [hdone, heffects]
      · rintro rfl
        exact absurd rfl herror

/-- What the input thread does with the first bytes of a sequence of messages. -/
theorem Input.does_take (ending : Ending) (messages : List Sent) :
  ∀ (n : ℕ) (s : Input), s.inputPipe.bytes = (messages.flatMap Sent.encode).take n →
    s.Does ending ((Sent.delivered messages n).flatMap Sent.effects)
  := by
  induction messages with
  | nil =>
      intro n s hbytes
      apply does_of_no_frame
      rw [hbytes, List.flatMap_nil, List.take_nil]
      rfl
  | cons m messages ih =>
      intro n s hbytes
      rw [List.flatMap_cons] at hbytes
      rw [Sent.delivered]
      split
      · rename_i hn
        rw [List.take_append, List.take_of_length_le hn] at hbytes
        rw [List.flatMap_cons]
        apply does_of_message hbytes
        apply ih
      · rename_i hn
        obtain ⟨msgType, payload, hfits, hencode, -⟩ := m.encode_eq
        apply does_of_no_frame
        rw [hbytes, List.take_append_of_le_length (Nat.le_of_not_le hn), hencode]
        apply frameOf_take msgType hfits
        rw [← hencode]
        omega

/-- However the first `n` bytes of a sequence of messages are delivered, the input thread writes the
payloads of the messages that are whole and applies their sizes, in their order, and then stops.  If
it ends early, it has done a first part of that. -/
theorem inputThread_framed (messages : List Sent) (n : ℕ) (events : List ReadEvent)
    (broken : Bool) :
  let pipe : Reader := ⟨(messages.flatMap Sent.encode).take n, events, broken⟩
  (Input.inputThread { inputPipe := pipe } {}).effects
      = (Sent.delivered messages n).flatMap Sent.effects
    ∧ ∀ ending, (Input.inputThread { inputPipe := pipe } ending).effects
      <+: (Sent.delivered messages n).flatMap Sent.effects
  := by
  intro pipe
  constructor
  · obtain ⟨part, -, heffects, hall⟩ := Input.does_take {} messages n { inputPipe := pipe } rfl
    rw [heffects, hall rfl, List.nil_append]
  · intro ending
    obtain ⟨part, hpart, heffects, -⟩ :=
      Input.does_take ending messages n { inputPipe := pipe } rfl
    rw [heffects, List.nil_append]
    exact hpart

end VynxDesk.TerminalHelper
