import Mathlib.Algebra.Group.Nat.Defs
import VynxDesk.Lib.Run
import VynxDesk.Lib.Slice

/-!
# The `_drm` transport

`DrmConn` of `ipc/drm.rs` sends messages, with or without a file descriptor, and raw bodies over a
Unix stream, each as four bytes of its length and a payload.  The kernel takes what is written, and
gives what is read, in pieces of any sizes; a descriptor travels with one of the bytes it was sent
with.  A receiver that calls `recv_msg_timeout2` and `next_raw_into` in the order of what is sent
gets every message with its own descriptor and every body (`delivered_of_run`).

The model is of one connection in one direction.  A sender that meets an error sends nothing more,
and a receiver that meets one makes no further call.  The JSON of a message is a parameter.
-/

namespace VynxDesk.Drm.Transport

variable {Data Fd : Type}

/-- `serde_json::to_vec` and `serde_json::from_slice`. -/
structure Json (Data : Type) where
  toVec : Data → Option (List UInt8)
  fromSlice : List UInt8 → Option Data

/-- `MAX_DRM_JSON_BYTES`. -/
def maxDrmJsonBytes : ℕ := 8 * 1024 * 1024

/-- `MAX_DRM_RAW_BYTES`. -/
def maxDrmRawBytes : ℕ := 512 * 1024 * 1024

/-- A byte in the socket, and the descriptor that is delivered with it. -/
structure Cell (Fd : Type) where
  byte : UInt8
  fd : Option Fd
  deriving DecidableEq, Repr

/-- What is sent: by `send_msg`, or by `send_raw`. -/
inductive Item (Data Fd : Type) where
  | msg (data : Data) (fd : Option Fd)
  | raw (body : List UInt8)
  deriving DecidableEq, Repr

/-- The calls of the receiver. -/
inductive Call where
  | recvMsg
  | nextRaw
  deriving DecidableEq, Repr

/-- The call that gets it. -/
def Item.call : Item Data Fd → Call
  | .msg _ _ => .recvMsg
  | .raw _ => .nextRaw

/-- The payload of its frame. -/
def Item.payload (json : Json Data) : Item Data Fd → Option (List UInt8)
  | .msg data _ => json.toVec data
  | .raw body => some body

/-- The descriptor of its frame. -/
def Item.fd : Item Data Fd → Option Fd
  | .msg _ fd => fd
  | .raw _ => none

/-- It is no longer than the receiver takes, and what is parsed is what was sent. -/
def Item.Fits (json : Json Data) : Item Data Fd → Prop
  | .msg data _ => ∃ payload, json.toVec data = some payload ∧ payload.length ≤ maxDrmJsonBytes
      ∧ json.fromSlice payload = some data
  | .raw body => body.length ≤ maxDrmRawBytes

/-! ## The sender -/

/-- What `drm_send_frame` has left to write: bytes of the prefix, with the descriptor as long as no
byte is written, and the payload; or bytes of the payload. -/
inductive Sending (Fd : Type) where
  | idle
  | lengthPrefix (buf : List UInt8) (passFd : Option Fd) (payload : List UInt8)
  | payload (buf : List UInt8)
  deriving DecidableEq, Repr

/-- The payload is next; nothing is written of an empty one. -/
def Sending.ofPayload (payload : List UInt8) : Sending Fd :=
  if payload = [] then .idle else .payload payload

/-- Bytes without a descriptor. -/
def plain (bytes : List UInt8) : List (Cell Fd) := bytes.map fun b => ⟨b, none⟩

/-- The bytes of a write, with the descriptor at one of them. -/
def attach : List UInt8 → Option Fd → ℕ → List (Cell Fd)
  | [], _, _ => []
  | b :: bytes, fd, 0 => ⟨b, fd⟩ :: plain bytes
  | b :: bytes, fd, i + 1 => ⟨b, none⟩ :: attach bytes fd i

/-! ## The receiver -/

/-- The variables of `drm_read_full`. -/
structure ReadFull (Fd : Type) where
  buf : List UInt8
  off : ℕ
  wantCmsg : Bool
  got : Option Fd
  deriving DecidableEq, Repr

namespace ReadFull

/-- The loop begins. -/
def start (buf : List UInt8) (wantCmsg : Bool) : ReadFull Fd where
  buf := buf
  off := 0
  wantCmsg := wantCmsg
  got := none

/-- The body of the loop: `drm_recvmsg`, which keeps the first descriptor, or `read`, which keeps
none. -/
def iterate (r : ReadFull Fd) (cells : List (Cell Fd)) : ReadFull Fd :=
  let useCmsg := r.wantCmsg && r.got.isNone
  { r with
    buf := r.buf.take r.off ++ cells.map Cell.byte ++ r.buf.drop (r.off + cells.length)
    off := r.off + cells.length
    got := if useCmsg then (cells.filterMap Cell.fd).head? else r.got }

end ReadFull

/-- Why the receiver gives up: a call timed out in a frame, the socket failed, a length exceeds its
cap, the JSON is not that of a message. -/
inductive Fault where
  | stalled
  | io
  | tooLong
  | malformed
  deriving DecidableEq, Repr

/-- Where the receiver stands: between two calls; in `recv_msg_timeout2`, before `recv_msg`; in the
two loops of `recv_msg`; in those of `next_raw_into`. -/
inductive Phase (Fd : Type) where
  | idle
  | waiting
  | msgPrefix (r : ReadFull Fd)
  | msgBody (fd : Option Fd) (r : ReadFull Fd)
  | rawPrefix (out : List UInt8) (r : ReadFull Fd)
  | rawBody (r : ReadFull Fd)
  | closed (fault : Fault)
  deriving DecidableEq, Repr

/-- The two ends of the connection, and the socket between them.  Of the history: what was
received, how many bytes were read since the last call began, and whether it returned `None`. -/
structure System (Data Fd : Type) where
  toSend : List (Item Data Fd)
  sending : Sending Fd
  failed : Bool
  socket : List (Cell Fd)
  calls : List Call
  phase : Phase Fd
  readBuf : List UInt8
  consumed : Bool
  received : List (Item Data Fd)
  taken : ℕ
  returnedNone : Bool
  deriving DecidableEq, Repr

/-- A new connection over which `items` are to be sent. -/
def System.start (items : List (Item Data Fd)) : System Data Fd where
  toSend := items
  sending := .idle
  failed := false
  socket := []
  calls := items.map Item.call
  phase := .idle
  readBuf := []
  consumed := false
  received := []
  taken := 0
  returnedNone := false

namespace System

/-- `drm_send_frame` begins. -/
def send (json : Json Data) (s : System Data Fd) : Option (System Data Fd) :=
  match s.sending, s.toSend with
  | .idle, item :: toSend =>
      match item.payload json with
      | some payload =>
          if payload.length ≤ 2 ^ 32 - 1 then
            some { s with
              toSend := toSend
              sending := .lengthPrefix (beBytes 4 payload.length) item.fd payload }
          else some { s with failed := true }
      | none => some { s with failed := true }
  | _, _ => none

/-- A write takes `n` bytes, and the descriptor at the one with index `i`. -/
def write (s : System Data Fd) (n i : ℕ) : Option (System Data Fd) :=
  match s.sending with
  | .idle => none
  | .lengthPrefix buf passFd payload =>
      if i < n ∧ n ≤ buf.length then
        some { s with
          socket := s.socket ++ attach (buf.take n) passFd i
          sending :=
            if buf.drop n = [] then .ofPayload payload
            else .lengthPrefix (buf.drop n) none payload }
      else none
  | .payload buf =>
      if i < n ∧ n ≤ buf.length then
        some { s with
          socket := s.socket ++ attach (buf.take n) none i
          sending := .ofPayload (buf.drop n) }
      else none

/-- A call begins. -/
def begin (s : System Data Fd) (phase : Phase Fd) : System Data Fd :=
  { s with phase := phase, taken := 0, returnedNone := false }

/-- A call returns what it has received. -/
def returns (s : System Data Fd) (item : Item Data Fd) : System Data Fd :=
  { s with phase := .idle, calls := s.calls.tail, received := s.received ++ [item] }

/-- The end of `recv_msg`. -/
def endMsg (json : Json Data) (s : System Data Fd) (fd : Option Fd) (body : List UInt8) :
    System Data Fd :=
  match json.fromSlice body with
  | some data => s.returns (.msg data fd)
  | none => { s with phase := .closed .malformed }

/-- `recv_msg`, from the prefix on. -/
def beginMsgBody (json : Json Data) (s : System Data Fd) (fd : Option Fd) (len : ℕ) :
    System Data Fd :=
  if len > maxDrmJsonBytes then { s with phase := .closed .tooLong }
  else
    let readBuf := s.readBuf ++ List.replicate (len - s.readBuf.length) 0
    if len = 0 then { s with readBuf := readBuf }.endMsg json fd []
    else { s with readBuf := readBuf, phase := .msgBody fd (.start (readBuf.take len) false) }

/-- `next_raw_into_unbounded`, from the prefix on. -/
def beginRawBody (s : System Data Fd) (out : List UInt8) (len : ℕ) : System Data Fd :=
  if len > maxDrmRawBytes then { s with phase := .closed .tooLong }
  else
    let out := out.take len ++ List.replicate (len - out.length) 0
    if len = 0 then s.returns (.raw out)
    else { s with phase := .rawBody (.start out false) }

/-- `n` bytes are read. -/
def consume (s : System Data Fd) (n : ℕ) : System Data Fd :=
  { s with socket := s.socket.drop n, consumed := true, taken := s.taken + n }

/-- A read in a loop can get `n` bytes. -/
def gets (s : System Data Fd) (r : ReadFull Fd) (n : ℕ) : Prop :=
  0 < n ∧ n ≤ r.buf.length - r.off ∧ n ≤ s.socket.length

instance decidableGets (s : System Data Fd) (r : ReadFull Fd) (n : ℕ) : Decidable (s.gets r n) :=
  inferInstanceAs (Decidable (_ ∧ _))

/-- A read gets `n` bytes. -/
def read (json : Json Data) (s : System Data Fd) (n : ℕ) : Option (System Data Fd) :=
  match s.phase with
  | .msgPrefix r =>
      if s.gets r n then
        let r := r.iterate (s.socket.take n)
        let s := s.consume n
        some (if r.off < r.buf.length then { s with phase := .msgPrefix r }
          else s.beginMsgBody json r.got (beNat r.buf))
      else none
  | .msgBody fd r =>
      if s.gets r n then
        let r := r.iterate (s.socket.take n)
        let s := s.consume n
        some (if r.off < r.buf.length then { s with phase := .msgBody fd r }
          else { s with readBuf := r.buf ++ s.readBuf.drop r.buf.length }.endMsg json fd r.buf)
      else none
  | .rawPrefix out r =>
      if s.gets r n then
        let r := r.iterate (s.socket.take n)
        let s := s.consume n
        some (if r.off < r.buf.length then { s with phase := .rawPrefix out r }
          else s.beginRawBody out (beNat r.buf))
      else none
  | .rawBody r =>
      if s.gets r n then
        let r := r.iterate (s.socket.take n)
        let s := s.consume n
        some (if r.off < r.buf.length then { s with phase := .rawBody r }
          else s.returns (.raw r.buf))
      else none
  | _ => none

/-- A call times out. -/
def elapse (s : System Data Fd) : Option (System Data Fd) :=
  match s.phase with
  | .waiting => some { s with phase := .idle, returnedNone := true }
  | .msgPrefix _ | .msgBody _ _ =>
      if s.consumed then some { s with phase := .closed .stalled }
      else some { s with phase := .idle, returnedNone := true }
  | .rawPrefix _ _ | .rawBody _ => some { s with phase := .closed .stalled }
  | _ => none

end System

/-- The steps: the sender begins the next frame, writes, or meets an error; the receiver makes its
next call, enters `recv_msg`, reads, or meets an error; a call times out. -/
inductive Label where
  | send
  | write (n i : ℕ)
  | sendError
  | recvMsgTimeout2
  | readable
  | nextRawInto (out : List UInt8)
  | read (n : ℕ)
  | readError
  | elapse
  deriving DecidableEq, Repr

/-- One step. -/
def step (json : Json Data) (s : System Data Fd) : Label → Option (System Data Fd)
  | .send => if s.failed then none else s.send json
  | .write n i => if s.failed then none else s.write n i
  | .sendError => some { s with failed := true }
  | .recvMsgTimeout2 =>
      match s.phase, s.calls with
      | .idle, .recvMsg :: _ => some (s.begin .waiting)
      | _, _ => none
  | .readable =>
      match s.phase with
      | .waiting =>
          some { s with
            phase := .msgPrefix (.start (List.replicate 4 0) true)
            consumed := false }
      | _ => none
  | .nextRawInto out =>
      match s.phase, s.calls with
      | .idle, .nextRaw :: _ => some (s.begin (.rawPrefix out (.start (List.replicate 4 0) true)))
      | _, _ => none
  | .read n => s.read json n
  | .readError =>
      match s.phase with
      | .idle | .closed _ => none
      | _ => some { s with phase := .closed .io }
  | .elapse => s.elapse

/-- The steps as a relation. -/
def Step (json : Json Data) (s : System Data Fd) (l : Label) (s' : System Data Fd) : Prop :=
  step json s l = some s'

/-! ## Cells -/

@[simp]
theorem map_byte_plain (bytes : List UInt8) : (plain bytes : List (Cell Fd)).map Cell.byte = bytes
  := by
  rw [plain, List.map_map]
  exact List.map_id bytes

@[simp]
theorem filterMap_fd_plain (bytes : List UInt8) :
  (plain bytes : List (Cell Fd)).filterMap Cell.fd = []
  := by
  rw [plain, List.filterMap_map]
  exact List.filterMap_eq_nil_iff.mpr fun _ _ => rfl

@[simp]
theorem map_byte_attach (bytes : List UInt8) (fd : Option Fd) (i : ℕ) :
  (attach bytes fd i).map Cell.byte = bytes
  := by
  induction bytes generalizing i with
  | nil => rfl
  | cons b bytes ih =>
      cases i with
      | zero => rw [attach, List.map_cons, map_byte_plain]
      | succ i => rw [attach, List.map_cons, ih]

theorem filterMap_fd_attach {bytes : List UInt8} {i : ℕ} (fd : Option Fd) (hi : i < bytes.length) :
  (attach bytes fd i).filterMap Cell.fd = fd.toList
  := by
  induction bytes generalizing i with
  | nil => cases hi
  | cons b bytes ih =>
      cases i with
      | zero =>
          rw [attach, List.filterMap_cons, filterMap_fd_plain]
          cases fd
          all_goals rfl
      | succ i =>
          rw [attach, List.filterMap_cons, ih (Nat.lt_of_succ_lt_succ hi)]

/-- Cells carry bytes, and a descriptor with one of them. -/
structure Carries (bytes : List UInt8) (fd : Option Fd) (cells : List (Cell Fd)) : Prop where
  bytes : cells.map Cell.byte = bytes
  fds : cells.filterMap Cell.fd = fd.toList

theorem carries_attach {bytes : List UInt8} {i : ℕ} (fd : Option Fd) (hi : i < bytes.length) :
  Carries bytes fd (attach bytes fd i)
  := ⟨map_byte_attach bytes fd i, filterMap_fd_attach fd hi⟩

theorem carries_plain (bytes : List UInt8) : Carries bytes none (plain bytes : List (Cell Fd))
  := ⟨map_byte_plain bytes, filterMap_fd_plain bytes⟩

theorem Carries.append {bytes bytes' : List UInt8} {fd : Option Fd} {cells cells' : List (Cell Fd)}
    (h : Carries bytes fd cells) (h' : Carries bytes' none cells') :
  Carries (bytes ++ bytes') fd (cells ++ cells')
  := by
  constructor
  · rw [List.map_append, h.bytes, h'.bytes]
  · rw [List.filterMap_append, h.fds, h'.fds]
    exact List.append_nil _

/-- Cells that carry bytes, and more cells that satisfy `K`. -/
def Leads (bytes : List UInt8) (fd : Option Fd) (K : List (Cell Fd) → Prop)
    (cells : List (Cell Fd)) : Prop :=
  ∃ pre rest, cells = pre ++ rest ∧ Carries bytes fd pre ∧ K rest

/-- The frames of `items`. -/
def Frames (json : Json Data) : List (Item Data Fd) → List (Cell Fd) → Prop
  | [] => fun cells => cells = []
  | item :: items => fun cells => ∃ payload, item.payload json = some payload ∧
      Leads (beBytes 4 payload.length) item.fd (Leads payload none (Frames json items)) cells

section

variable {json : Json Data} {bytes : List UInt8} {fd : Option Fd} {K : List (Cell Fd) → Prop}
variable {cells : List (Cell Fd)}

theorem leads_nil_iff : Leads [] none K cells ↔ K cells
  := by
  constructor
  · rintro ⟨pre, rest, rfl, hpre, hrest⟩
    rw [List.map_eq_nil_iff.mp hpre.bytes]
    exact hrest
  · intro h
    exact ⟨[], cells, rfl, ⟨rfl, rfl⟩, h⟩

/-- What is written first comes first. -/
theorem Leads.write {n i : ℕ} (hi : i < n) (hn : n ≤ bytes.length)
    (h : Leads (bytes.drop n) none K cells) :
  Leads bytes fd K (attach (bytes.take n) fd i ++ cells)
  := by
  obtain ⟨pre, rest, rfl, hpre, hrest⟩ := h
  have hlt : i < (bytes.take n).length := by
    rw [List.length_take]
    omega
  refine ⟨attach (bytes.take n) fd i ++ pre, rest, (List.append_assoc _ _ _).symm, ?_, hrest⟩
  have hcarries := (carries_attach fd hlt).append hpre
  rwa [List.take_append_drop] at hcarries

theorem exists_leads (hfd : fd = none ∨ bytes ≠ []) (hK : ∃ cells, K cells) :
  ∃ cells, Leads bytes fd K cells
  := by
  obtain ⟨rest, hrest⟩ := hK
  rcases hfd with rfl | hne
  · exact ⟨_, plain bytes, rest, rfl, carries_plain bytes, hrest⟩
  · exact ⟨_, attach bytes fd 0, rest, rfl, carries_attach fd (List.length_pos_iff.mpr hne), hrest⟩

theorem beBytes_ne_nil (n : ℕ) : beBytes 4 n ≠ []
  := by
  rw [← List.length_pos_iff, length_beBytes]
  decide

theorem Item.Fits.exists_payload {item : Item Data Fd} (h : item.Fits json) :
  ∃ payload, item.payload json = some payload
  := by
  cases item with
  | msg data fd =>
      obtain ⟨payload, hpayload, -⟩ := h
      exact ⟨payload, hpayload⟩
  | raw body => exact ⟨body, rfl⟩

/-- The length of a payload is a number of four bytes. -/
theorem Item.Fits.length_lt {item : Item Data Fd} (h : item.Fits json) {payload : List UInt8}
    (hpayload : item.payload json = some payload) :
  payload.length < 256 ^ 4
  := by
  cases item with
  | msg data fd =>
      obtain ⟨payload', hpayload', hle, -⟩ := h
      obtain rfl := Option.some.inj (hpayload'.symm.trans hpayload)
      exact Nat.lt_of_le_of_lt hle (by decide)
  | raw body =>
      obtain rfl := Option.some.inj hpayload
      exact Nat.lt_of_le_of_lt h (by decide)

theorem exists_frames {items : List (Item Data Fd)} (h : ∀ item ∈ items, item.Fits json) :
  ∃ cells, Frames json items cells
  := by
  induction items with
  | nil => exact ⟨[], rfl⟩
  | cons item items ih =>
      obtain ⟨hitem, hitems⟩ := List.forall_mem_cons.mp h
      obtain ⟨payload, hpayload⟩ := hitem.exists_payload
      have hbody : ∃ cells, Leads payload none (Frames json items) cells :=
        exists_leads (Or.inl rfl) (ih hitems)
      obtain ⟨cells, hcells⟩ := exists_leads (Or.inr (beBytes_ne_nil payload.length)) hbody
      exact ⟨cells, payload, hpayload, hcells⟩

end

/-! ## Reads -/

namespace ReadFull

variable {r : ReadFull Fd} {bytes : List UInt8} {fd : Option Fd} {K : List (Cell Fd) → Prop}
variable {cells : List (Cell Fd)}

/-- The bytes that are read, with those of `pre`, are to be `bytes`, and the descriptor `fd`. -/
structure Fills (r : ReadFull Fd) (bytes : List UInt8) (fd : Option Fd) (pre : List (Cell Fd)) :
    Prop where
  length : r.buf.length = bytes.length
  off : r.off ≤ r.buf.length
  bytes : r.buf.take r.off ++ pre.map Cell.byte = bytes
  fds : r.got.toList ++ pre.filterMap Cell.fd = fd.toList
  want : r.wantCmsg = true ∨ fd = none

/-- The cells that the loop gets first, and more cells that satisfy `K`. -/
def Reading (r : ReadFull Fd) (bytes : List UInt8) (fd : Option Fd) (K : List (Cell Fd) → Prop)
    (cells : List (Cell Fd)) : Prop :=
  ∃ pre rest, cells = pre ++ rest ∧ r.Fills bytes fd pre ∧ K rest

theorem Fills.length_pre {pre : List (Cell Fd)} (h : r.Fills bytes fd pre) :
  pre.length = r.buf.length - r.off
  := by
  have hlength := congrArg List.length h.bytes
  rw [List.length_append, List.length_take, List.length_map, ← h.length] at hlength
  have hoff := h.off
  omega

theorem reading_start {buf : List UInt8} {wantCmsg : Bool} (hlength : buf.length = bytes.length)
    (hwant : wantCmsg = true ∨ fd = none) (h : Leads bytes fd K cells) :
  (start buf wantCmsg).Reading bytes fd K cells
  := by
  obtain ⟨pre, rest, hcells, hpre, hrest⟩ := h
  exact ⟨pre, rest, hcells, ⟨hlength, Nat.zero_le _, hpre.bytes, hpre.fds, hwant⟩, hrest⟩

theorem iterate_buf (r : ReadFull Fd) (cells : List (Cell Fd)) :
  (r.iterate cells).buf
    = r.buf.take r.off ++ cells.map Cell.byte ++ r.buf.drop (r.off + cells.length)
  := rfl

theorem iterate_off (r : ReadFull Fd) (cells : List (Cell Fd)) :
  (r.iterate cells).off = r.off + cells.length
  := rfl

theorem toList_head?_append {α : Type} {xs ys : List α} {o : Option α}
    (h : xs ++ ys = o.toList) :
  xs.head?.toList ++ ys = o.toList
  := by
  cases xs with
  | nil => exact h
  | cons x xs =>
      cases o with
      | none => cases h
      | some y =>
          obtain ⟨rfl, hnil⟩ := List.cons.inj h
          rw [(List.append_eq_nil_iff.mp hnil).2]
          rfl

/-- A read that looks for a descriptor gets the one that is there, and one that does not look for it
meets none. -/
theorem Fills.iterate_fds {taken pre : List (Cell Fd)} (h : r.Fills bytes fd (taken ++ pre)) :
  (r.iterate taken).got.toList ++ pre.filterMap Cell.fd = fd.toList
  := by
  have hfds := h.fds
  rw [List.filterMap_append] at hfds
  change (if r.wantCmsg && r.got.isNone then (taken.filterMap Cell.fd).head? else r.got).toList ++ _
    = _
  cases hgot : r.got with
  | some f =>
      rw [hgot] at hfds
      rw [Option.isNone_some, Bool.and_false, if_neg Bool.false_ne_true]
      cases fd with
      | none => cases hfds
      | some g =>
          obtain ⟨rfl, hnil⟩ := List.cons.inj hfds
          rw [(List.append_eq_nil_iff.mp (List.append_eq_nil_iff.mp hnil).2).2]
          rfl
  | none =>
      rw [hgot, Option.toList_none, List.nil_append] at hfds
      have hhead := toList_head?_append hfds
      rw [Option.isNone_none, Bool.and_true]
      rcases h.want with hwant | rfl
      · rwa [if_pos hwant]
      · rw [Option.toList_none] at hfds
        rw [(List.append_eq_nil_iff.mp hfds).1] at hhead ⊢
        rw [List.head?_nil, ite_self]
        exact hhead

/-- Before the first read. -/
theorem leads_of_reading_start {buf : List UInt8} {wantCmsg : Bool}
    (h : (start buf wantCmsg).Reading bytes fd K cells) :
  Leads bytes fd K cells
  := by
  obtain ⟨pre, rest, hcells, hfills, hrest⟩ := h
  exact ⟨pre, rest, hcells, ⟨hfills.bytes, hfills.fds⟩, hrest⟩

/-- One read. -/
theorem Fills.iterate {taken pre : List (Cell Fd)} (h : r.Fills bytes fd (taken ++ pre)) :
  (r.iterate taken).Fills bytes fd pre
  := by
  have hpre := h.length_pre
  rw [List.length_append] at hpre
  have hoff := h.off
  have hlength : (r.buf.take r.off ++ taken.map Cell.byte).length = r.off + taken.length := by
    rw [List.length_append, List.length_take, List.length_map]
    omega
  have hall : (r.iterate taken).buf.length = r.buf.length := by
    rw [iterate_buf, List.length_append, hlength, List.length_drop]
    omega
  constructor
  · exact hall.trans h.length
  · rw [hall, iterate_off]
    omega
  · rw [iterate_buf, iterate_off, ← hlength, List.take_left, List.append_assoc, ← List.map_append]
    exact h.bytes
  · exact h.iterate_fds
  · exact h.want

theorem Reading.iterate {socket rest : List (Cell Fd)} {n : ℕ}
    (h : r.Reading bytes fd K (socket ++ rest)) (hn : n ≤ r.buf.length - r.off)
    (hsocket : n ≤ socket.length) :
  (r.iterate (socket.take n)).Reading bytes fd K (socket.drop n ++ rest)
  := by
  obtain ⟨pre, after, hcells, hfills, hafter⟩ := h
  have hpre : n ≤ pre.length := by rwa [hfills.length_pre]
  have htake := congrArg (List.take n) hcells
  have hdrop := congrArg (List.drop n) hcells
  rw [List.take_append_of_le_length hsocket, List.take_append_of_le_length hpre] at htake
  rw [List.drop_append_of_le_length hsocket, List.drop_append_of_le_length hpre] at hdrop
  rw [← List.take_append_drop n pre, ← htake] at hfills
  exact ⟨pre.drop n, after, hdrop, hfills.iterate, hafter⟩

/-- The loop ends. -/
theorem Reading.done (h : r.Reading bytes fd K cells) (hend : ¬ r.off < r.buf.length) :
  r.buf = bytes ∧ r.got = fd ∧ K cells
  := by
  obtain ⟨pre, rest, rfl, hfills, hrest⟩ := h
  have hlength := hfills.length_pre
  have hbytes := hfills.bytes
  have hfds := hfills.fds
  obtain rfl := List.length_eq_zero_iff.mp (hlength.trans (by omega))
  rw [List.map_nil, List.append_nil, List.take_of_length_le (Nat.le_of_not_lt hend)] at hbytes
  rw [List.filterMap_nil, List.append_nil] at hfds
  exact ⟨hbytes, by simpa using congrArg List.head? hfds, hrest⟩

/-- A loop that has not ended has cells to read. -/
theorem Reading.ne_nil (h : r.Reading bytes fd K cells) (hoff : r.off < r.buf.length) :
  cells ≠ []
  := by
  obtain ⟨pre, rest, rfl, hfills, -⟩ := h
  have hlength := hfills.length_pre
  intro hnil
  rw [(List.append_eq_nil_iff.mp hnil).1, List.length_nil] at hlength
  omega

end ReadFull

/-- In a loop that reads. -/
def Phase.inLoop : Phase Fd → Bool
  | .msgPrefix _ | .msgBody _ _ | .rawPrefix _ _ | .rawBody _ => true
  | _ => false

/-- What is received is what was sent, in order and with the descriptors.  A loop can read as long
as there are bytes.  The receiver gives up only when a call timed out in a frame or the socket
failed; otherwise, where all is sent and read, it has received all.  And where a call returned
`None` it has read no byte. -/
structure Delivered (json : Json Data) (items : List (Item Data Fd)) (s : System Data Fd) : Prop
    where
  received : s.received <+: items
  reads : s.phase.inLoop = true → s.socket ≠ [] → (step json s (.read 1)).isSome = true
  fault : ∀ fault, s.phase = .closed fault → fault = .stalled ∨ fault = .io
  complete : s.toSend = [] → s.sending = .idle → s.socket = [] →
    (∀ fault, s.phase ≠ .closed fault) → s.received = items
  none : s.returnedNone = true → s.taken = 0

/-! ## What is on its way -/

/-- What the sender has still to write, when the frames of `toSend` come next. -/
def Sending.Future (json : Json Data) (toSend : List (Item Data Fd)) :
    Sending Fd → List (Cell Fd) → Prop
  | .idle => Frames json toSend
  | .lengthPrefix buf passFd body => Leads buf passFd (Leads body none (Frames json toSend))
  | .payload buf => Leads buf none (Frames json toSend)

namespace System

/-- What the sender has still to write. -/
def Future (json : Json Data) (s : System Data Fd) : List (Cell Fd) → Prop :=
  s.sending.Future json s.toSend

/-- What is in the socket, with what is still written, satisfies `K`. -/
def Owed (json : Json Data) (s : System Data Fd) (K : List (Cell Fd) → Prop) : Prop :=
  ∀ rest, s.Future json rest → K (s.socket ++ rest)

end System

/-- What the receiver is to get, when `items` are left to be received. -/
def Phase.Expects (json : Json Data) (owed : (List (Cell Fd) → Prop) → Prop)
    (items : List (Item Data Fd)) : Phase Fd → Prop
  | .idle => owed (Frames json items)
  | .waiting => (∃ data fd rest, items = .msg data fd :: rest) ∧ owed (Frames json items)
  | .msgPrefix r => r.off < r.buf.length ∧ ∃ data fd rest payload, items = .msg data fd :: rest
      ∧ json.toVec data = some payload
      ∧ owed (r.Reading (beBytes 4 payload.length) fd (Leads payload none (Frames json rest)))
  | .msgBody fd r => r.off < r.buf.length ∧ ∃ data rest payload, items = .msg data fd :: rest
      ∧ json.toVec data = some payload ∧ owed (r.Reading payload none (Frames json rest))
  | .rawPrefix _ r => r.off < r.buf.length ∧ ∃ body rest, items = .raw body :: rest
      ∧ owed (r.Reading (beBytes 4 body.length) none (Leads body none (Frames json rest)))
  | .rawBody r => r.off < r.buf.length ∧ ∃ body rest, items = .raw body :: rest
      ∧ owed (r.Reading body none (Frames json rest))
  | .closed fault => fault = .stalled ∨ fault = .io

/-- In a loop of `recv_msg`. -/
def Phase.inMsg : Phase Fd → Bool
  | .msgPrefix _ | .msgBody _ _ => true
  | _ => false

/-- `items` are left to be received, and the sender will have sent them. -/
structure Left (json : Json Data) (sent items : List (Item Data Fd)) (s : System Data Fd) :
    Prop where
  split : sent = s.received ++ items
  calls : s.calls = items.map Item.call
  fits : ∀ item ∈ items, item.Fits json
  toSend : ∀ item ∈ s.toSend, item.Fits json
  sending : ∀ passFd payload, s.sending ≠ .lengthPrefix [] passFd payload

/-- `items` are left to be received, and the receiver is to get them. -/
structure Inv (json : Json Data) (sent items : List (Item Data Fd)) (s : System Data Fd) : Prop
    extends Left json sent items s where
  expects : s.phase.Expects json (s.Owed json) items
  waiting : s.phase = .waiting → s.taken = 0
  consumed : s.phase.inMsg = true → s.consumed = false →
    s.phase = .msgPrefix (.start (List.replicate 4 0) true) ∧ s.taken = 0
  none : s.returnedNone = true → s.phase = .idle ∧ s.taken = 0

section

variable {json : Json Data} {sent items : List (Item Data Fd)} {s s' : System Data Fd}
variable {K K' : List (Cell Fd) → Prop} {bytes : List UInt8} {fd : Option Fd}

theorem Phase.Expects.mono {owed owed' : (List (Cell Fd) → Prop) → Prop} {phase : Phase Fd}
    (h : phase.Expects json owed items) (howed : ∀ K, owed K → owed' K) :
  phase.Expects json owed' items
  := by
  cases phase with
  | idle => exact howed _ h
  | waiting => exact ⟨h.1, howed _ h.2⟩
  | msgPrefix r =>
      obtain ⟨hoff, data, fd, rest, payload, hitems, hpayload, hreading⟩ := h
      exact ⟨hoff, data, fd, rest, payload, hitems, hpayload, howed _ hreading⟩
  | msgBody fd r =>
      obtain ⟨hoff, data, rest, payload, hitems, hpayload, hreading⟩ := h
      exact ⟨hoff, data, rest, payload, hitems, hpayload, howed _ hreading⟩
  | rawPrefix out r =>
      obtain ⟨hoff, body, rest, hitems, hreading⟩ := h
      exact ⟨hoff, body, rest, hitems, howed _ hreading⟩
  | rawBody r =>
      obtain ⟨hoff, body, rest, hitems, hreading⟩ := h
      exact ⟨hoff, body, rest, hitems, howed _ hreading⟩
  | closed fault => exact h

/-- Only when nothing is left to be received can there be nothing on its way. -/
theorem Phase.Expects.eq_nil {phase : Phase Fd} (h : phase.Expects json (fun K => K []) items)
    (hopen : ∀ fault, phase ≠ .closed fault) :
  items = []
  := by
  cases phase with
  | waiting =>
      obtain ⟨⟨data, fd, rest, rfl⟩, payload, -, pre, after, hnil, hpre, -⟩ := h
      have hbytes := hpre.bytes
      rw [(List.append_eq_nil_iff.mp hnil.symm).1, List.map_nil] at hbytes
      cases beBytes_ne_nil _ hbytes.symm
  | idle =>
      cases items with
      | nil => rfl
      | cons item rest =>
          obtain ⟨payload, -, pre, rest, hnil, hpre, -⟩ := h
          have hbytes := hpre.bytes
          rw [(List.append_eq_nil_iff.mp hnil.symm).1, List.map_nil] at hbytes
          cases beBytes_ne_nil _ hbytes.symm
  | msgPrefix r =>
      obtain ⟨hoff, data, fd, rest, payload, -, -, hreading⟩ := h
      cases hreading.ne_nil hoff rfl
  | msgBody fd r =>
      obtain ⟨hoff, data, rest, payload, -, -, hreading⟩ := h
      cases hreading.ne_nil hoff rfl
  | rawPrefix out r =>
      obtain ⟨hoff, body, rest, -, hreading⟩ := h
      cases hreading.ne_nil hoff rfl
  | rawBody r =>
      obtain ⟨hoff, body, rest, -, hreading⟩ := h
      cases hreading.ne_nil hoff rfl
  | closed fault => cases hopen fault rfl

theorem Owed.mono (h : s.Owed json K) (hK : ∀ cells, K cells → K' cells) : s.Owed json K'
  := fun rest hrest => hK _ (h rest hrest)

/-- The sender can always go on. -/
theorem Left.exists_future (h : Left json sent items s) : ∃ rest, s.Future json rest
  := by
  have hframes := exists_frames h.toSend
  rw [System.Future]
  cases hsending : s.sending with
  | idle => exact hframes
  | lengthPrefix buf passFd payload =>
      refine exists_leads (Or.inr ?_) (exists_leads (Or.inl rfl) hframes)
      rintro rfl
      exact h.sending passFd payload hsending
  | payload buf => exact exists_leads (Or.inl rfl) hframes

/-- The loop ends, for all that may follow. -/
theorem Left.done (h : Left json sent items s) {r : ReadFull Fd}
    (hreading : s.Owed json (r.Reading bytes fd K))
    (hend : ¬ r.off < r.buf.length) :
  r.buf = bytes ∧ r.got = fd ∧ s.Owed json K
  := by
  obtain ⟨rest, hrest⟩ := h.exists_future
  obtain ⟨hbuf, hgot, -⟩ := (hreading rest hrest).done hend
  exact ⟨hbuf, hgot, Owed.mono hreading fun cells hcells => (hcells.done hend).2.2⟩

/-- A loop can read a byte. -/
theorem Inv.reads (h : Inv json sent items s) (hphase : s.phase.inLoop = true)
    (hsocket : s.socket ≠ []) :
  (step json s (.read 1)).isSome = true
  := by
  have hgets : ∀ r : ReadFull Fd, r.off < r.buf.length → s.gets r 1 := by
    intro r hoff
    exact ⟨Nat.one_pos, Nat.sub_pos_of_lt hoff, List.length_pos_iff.mpr hsocket⟩
  have hexpects := h.expects
  change (s.read json 1).isSome = true
  rw [System.read.eq_def]
  cases hcase : s.phase with
  | idle | waiting | closed =>
      rw [hcase] at hphase
      cases hphase
  | msgPrefix r | msgBody fd r | rawPrefix out r | rawBody r =>
      rw [hcase] at hexpects
      dsimp only
      rw [if_pos (hgets r hexpects.1)]
      rfl

theorem delivered_of_inv (h : Inv json sent items s) : Delivered json sent s
  := by
  refine ⟨?_, h.reads, ?_, ?_, ?_⟩
  · rw [h.split]
    exact List.prefix_append _ _
  · intro fault hphase
    have hexpects := h.expects
    rw [hphase] at hexpects
    exact hexpects
  · intro htoSend hsending hsocket hopen
    have hfuture : s.Future json [] := by
      rw [System.Future, hsending, htoSend]
      rfl
    have howed : ∀ K, s.Owed json K → K [] := by
      intro K hK
      have hcells := hK [] hfuture
      rwa [hsocket] at hcells
    rw [h.split, (h.expects.mono howed).eq_nil hopen, List.append_nil]
  · exact fun hnone => (h.none hnone).2

/-! ## The steps -/

/-- The sender takes a step, and what it has written is what it had to write. -/
theorem Inv.sender (h : Inv json sent items s) {toSend : List (Item Data Fd)}
    {sending : Sending Fd} {failed : Bool} {socket written : List (Cell Fd)}
    (hfits : ∀ item ∈ toSend, item.Fits json)
    (hne : ∀ passFd payload, sending ≠ .lengthPrefix [] passFd payload)
    (hsocket : socket = s.socket ++ written)
    (hfuture : ∀ rest,
      { s with toSend := toSend, sending := sending, failed := failed, socket := socket }.Future
        json rest → s.Future json (written ++ rest)) :
  Inv json sent items
    { s with toSend := toSend, sending := sending, failed := failed, socket := socket }
  := by
  refine ⟨⟨h.split, h.calls, h.fits, hfits, hne⟩, ?_, h.waiting, h.consumed, h.none⟩
  apply h.expects.mono
  intro K howed rest hrest
  change K (socket ++ rest)
  rw [hsocket, List.append_assoc]
  exact howed _ (hfuture rest hrest)

theorem future_ofPayload (toSend : List (Item Data Fd)) (rest : List (Cell Fd)) :
  (Sending.ofPayload bytes).Future json toSend rest ↔ Leads bytes none (Frames json toSend) rest
  := by
  rw [Sending.ofPayload]
  by_cases hnil : bytes = []
  · rw [if_pos hnil, hnil, leads_nil_iff]
    rfl
  · rw [if_neg hnil]
    rfl

theorem ofPayload_ne {passFd : Option Fd} {buf payload : List UInt8} :
  (Sending.ofPayload bytes : Sending Fd) ≠ .lengthPrefix buf passFd payload
  := by
  rw [Sending.ofPayload]
  split
  all_goals rintro ⟨⟩

theorem Inv.fail (h : Inv json sent items s) : Inv json sent items { s with failed := true }
  := h.sender h.toSend h.sending (List.append_nil _).symm fun _ hrest => hrest

theorem Inv.send (h : Inv json sent items s) (hstep : s.send json = some s') :
  Inv json sent items s'
  := by
  rw [System.send] at hstep
  split at hstep
  next item toSend hsending htoSend =>
      split at hstep
      next payload hpayload =>
          split at hstep
          next =>
              cases hstep
              have hfits := h.toSend
              rw [htoSend] at hfits
              refine h.sender (fun other hother => hfits other (List.mem_cons_of_mem _ hother)) ?_
                (List.append_nil _).symm ?_
              · intro passFd body heq
                injection heq with hbuf
                cases beBytes_ne_nil _ hbuf
              · intro rest hrest
                rw [System.Future, hsending, htoSend]
                exact ⟨payload, hpayload, hrest⟩
          next =>
              cases hstep
              exact h.fail
      next =>
          cases hstep
          exact h.fail
  next => cases hstep

theorem Inv.write (h : Inv json sent items s) {n i : ℕ} (hstep : s.write n i = some s') :
  Inv json sent items s'
  := by
  rw [System.write] at hstep
  split at hstep
  next => cases hstep
  next buf passFd payload hsending =>
      split at hstep
      next hn =>
          cases hstep
          refine h.sender h.toSend ?_ rfl ?_
          · intro passFd' payload'
            split
            next => exact ofPayload_ne
            next hne =>
                intro heq
                injection heq with hbuf
                cases hne hbuf
          · intro rest hrest
            rw [System.Future, hsending]
            rw [System.Future] at hrest
            apply Leads.write hn.1 hn.2
            by_cases hnil : buf.drop n = []
            · simp only [if_pos hnil] at hrest
              rw [hnil, leads_nil_iff]
              exact (future_ofPayload s.toSend rest).mp hrest
            · simp only [if_neg hnil] at hrest
              exact hrest
      next => cases hstep
  next buf hsending =>
      split at hstep
      next hn =>
          cases hstep
          refine h.sender h.toSend (fun _ _ => ofPayload_ne) rfl ?_
          intro rest hrest
          rw [System.Future, hsending]
          apply Leads.write hn.1 hn.2
          exact (future_ofPayload s.toSend rest).mp hrest
      next => cases hstep

/-- A read takes bytes off the socket. -/
theorem Owed.read {r : ReadFull Fd} (h : s.Owed json (r.Reading bytes fd K)) {n : ℕ}
    (hn : s.gets r n) :
  (s.consume n).Owed json ((r.iterate (s.socket.take n)).Reading bytes fd K)
  := fun rest hrest => (h rest hrest).iterate hn.2.1 hn.2.2

theorem Left.consume (h : Left json sent items s) (n : ℕ) : Left json sent items (s.consume n)
  := ⟨h.split, h.calls, h.fits, h.toSend, h.sending⟩

theorem Left.setReadBuf (h : Left json sent items s) (readBuf : List UInt8) :
  Left json sent items { s with readBuf := readBuf }
  := ⟨h.split, h.calls, h.fits, h.toSend, h.sending⟩

/-- A loop goes on, or begins. -/
theorem Left.loop (h : Left json sent items s) {phase : Phase Fd}
    (hexpects : phase.Expects json (s.Owed json) items) (hphase : phase ≠ .waiting)
    (hconsumed : s.consumed = true) (hnone : s.returnedNone = false) :
  Inv json sent items { s with phase := phase }
  := by
  refine ⟨⟨h.split, h.calls, h.fits, h.toSend, h.sending⟩, hexpects, ?_, ?_, ?_⟩
  · intro heq
    cases hphase heq
  · intro _ hnot
    rw [hconsumed] at hnot
    cases hnot
  · intro hset
    rw [hnone] at hset
    cases hset

/-- A call returns what it was to receive. -/
theorem Left.returns {item : Item Data Fd} (h : Left json sent (item :: items) s)
    (howed : s.Owed json (Frames json items)) (hnone : s.returnedNone = false) :
  Inv json sent items (s.returns item)
  := by
  refine ⟨⟨?_, ?_, (List.forall_mem_cons.mp h.fits).2, h.toSend, h.sending⟩, howed, ?_, ?_, ?_⟩
  · rw [h.split]
    exact List.append_cons s.received item items
  · exact congrArg List.tail h.calls
  · rintro ⟨⟩
  · rintro ⟨⟩
  · intro hset
    change s.returnedNone = true at hset
    rw [hnone] at hset
    cases hset

/-- The prefix of a message is read. -/
theorem Left.beginMsgBody {data : Data} {payload : List UInt8}
    (h : Left json sent (.msg data fd :: items) s) (hpayload : json.toVec data = some payload)
    (howed : s.Owed json (Leads payload none (Frames json items)))
    (hconsumed : s.consumed = true) (hnone : s.returnedNone = false) :
  ∃ items', Inv json sent items' (s.beginMsgBody json fd payload.length)
  := by
  obtain ⟨payload', hpayload', hle, hdata⟩ := h.fits _ List.mem_cons_self
  obtain rfl := Option.some.inj (hpayload'.symm.trans hpayload)
  rw [System.beginMsgBody, if_neg (Nat.not_lt.mpr hle)]
  dsimp only
  split
  next hzero =>
      rw [List.length_eq_zero_iff.mp hzero] at hdata howed
      rw [System.endMsg, hdata]
      exact ⟨items, (h.setReadBuf _).returns (Owed.mono howed fun cells => leads_nil_iff.mp) hnone⟩
  next hpos =>
      set readBuf := s.readBuf ++ List.replicate (payload'.length - s.readBuf.length) 0 with hbuf
      have hlength : (readBuf.take payload'.length).length = payload'.length := by
        rw [List.length_take, hbuf, List.length_append, List.length_replicate]
        omega
      have hexpects : Phase.Expects json (s.Owed json) (.msg data fd :: items)
          (.msgBody fd (.start (readBuf.take payload'.length) false)) := by
        refine ⟨?_, data, items, payload', rfl, hpayload, ?_⟩
        · change 0 < (readBuf.take payload'.length).length
          omega
        · exact Owed.mono howed fun cells => ReadFull.reading_start hlength (Or.inr rfl)
      exact ⟨_, (h.setReadBuf readBuf).loop hexpects (by rintro ⟨⟩) hconsumed hnone⟩

/-- The prefix of a body is read. -/
theorem Left.beginRawBody {body : List UInt8}
    (h : Left json sent (.raw body :: items) s)
    (howed : s.Owed json (Leads body none (Frames json items)))
    (hconsumed : s.consumed = true) (hnone : s.returnedNone = false) (out : List UInt8) :
  ∃ items', Inv json sent items' (s.beginRawBody out body.length)
  := by
  have hle : body.length ≤ maxDrmRawBytes := h.fits _ List.mem_cons_self
  rw [System.beginRawBody, if_neg (Nat.not_lt.mpr hle)]
  set buf := out.take body.length ++ List.replicate (body.length - out.length) 0 with hbuf
  have hlength : buf.length = body.length := by
    rw [hbuf, List.length_append, List.length_take, List.length_replicate]
    omega
  dsimp only
  split
  next hzero =>
      have hnil := List.length_eq_zero_iff.mp hzero
      rw [hnil] at h howed
      rw [List.length_eq_zero_iff.mp (hlength.trans hzero)]
      exact ⟨items, h.returns (Owed.mono howed fun cells => leads_nil_iff.mp) hnone⟩
  next hpos =>
      have hexpects : Phase.Expects json (s.Owed json) (.raw body :: items)
          (.rawBody (.start buf false)) := by
        refine ⟨?_, body, items, rfl, ?_⟩
        · change 0 < buf.length
          omega
        · exact Owed.mono howed fun cells => ReadFull.reading_start hlength (Or.inr rfl)
      exact ⟨_, h.loop hexpects (by rintro ⟨⟩) hconsumed hnone⟩

theorem Inv.read (h : Inv json sent items s) {n : ℕ} (hstep : s.read json n = some s') :
  ∃ items', Inv json sent items' s'
  := by
  have hexpects := h.expects
  have hnone : s.phase ≠ .idle → s.returnedNone = false := by
    intro hphase
    rw [← Bool.not_eq_true]
    exact fun hset => hphase (h.none hset).1
  have hleft := h.toLeft.consume n
  rw [System.read.eq_def] at hstep
  cases hphase : s.phase with
  | idle | waiting | closed =>
      rw [hphase] at hstep
      cases hstep
  | msgPrefix r =>
      rw [hphase] at hstep hexpects hnone
      dsimp only at hstep
      split at hstep
      next hgets =>
          obtain ⟨hoff, data, fd, rest, payload, rfl, hpayload, hreading⟩ := hexpects
          have hread := Owed.read hreading hgets
          cases hstep
          split
          next hmore =>
              have hnext : Phase.Expects json ((s.consume n).Owed json) (.msg data fd :: rest)
                  (.msgPrefix (r.iterate (s.socket.take n))) :=
                ⟨hmore, data, fd, rest, payload, rfl, hpayload, hread⟩
              exact ⟨_, hleft.loop hnext (by rintro ⟨⟩) rfl (hnone (by rintro ⟨⟩))⟩
          next hend =>
              obtain ⟨hbuf, hgot, howed⟩ := hleft.done hread hend
              have hlt := (h.fits _ List.mem_cons_self).length_lt hpayload
              rw [hbuf, hgot, beNat_beBytes_of_lt hlt]
              exact hleft.beginMsgBody hpayload howed rfl (hnone (by rintro ⟨⟩))
      next => cases hstep
  | msgBody fd r =>
      rw [hphase] at hstep hexpects hnone
      dsimp only at hstep
      split at hstep
      next hgets =>
          obtain ⟨hoff, data, rest, payload, rfl, hpayload, hreading⟩ := hexpects
          have hread := Owed.read hreading hgets
          cases hstep
          split
          next hmore =>
              have hnext : Phase.Expects json ((s.consume n).Owed json) (.msg data fd :: rest)
                  (.msgBody fd (r.iterate (s.socket.take n))) :=
                ⟨hmore, data, rest, payload, rfl, hpayload, hread⟩
              exact ⟨_, hleft.loop hnext (by rintro ⟨⟩) rfl (hnone (by rintro ⟨⟩))⟩
          next hend =>
              obtain ⟨hbuf, -, howed⟩ := hleft.done hread hend
              obtain ⟨payload', hpayload', -, hdata⟩ := h.fits _ List.mem_cons_self
              obtain rfl := Option.some.inj (hpayload'.symm.trans hpayload)
              rw [hbuf, System.endMsg, hdata]
              exact ⟨rest, (hleft.setReadBuf _).returns howed (hnone (by rintro ⟨⟩))⟩
      next => cases hstep
  | rawPrefix out r =>
      rw [hphase] at hstep hexpects hnone
      dsimp only at hstep
      split at hstep
      next hgets =>
          obtain ⟨hoff, body, rest, rfl, hreading⟩ := hexpects
          have hread := Owed.read hreading hgets
          cases hstep
          split
          next hmore =>
              have hnext : Phase.Expects json ((s.consume n).Owed json) (.raw body :: rest)
                  (.rawPrefix out (r.iterate (s.socket.take n))) := ⟨hmore, body, rest, rfl, hread⟩
              exact ⟨_, hleft.loop hnext (by rintro ⟨⟩) rfl (hnone (by rintro ⟨⟩))⟩
          next hend =>
              obtain ⟨hbuf, -, howed⟩ := hleft.done hread hend
              have hlt := (h.fits _ List.mem_cons_self).length_lt rfl
              rw [hbuf, beNat_beBytes_of_lt hlt]
              exact hleft.beginRawBody howed rfl (hnone (by rintro ⟨⟩)) out
      next => cases hstep
  | rawBody r =>
      rw [hphase] at hstep hexpects hnone
      dsimp only at hstep
      split at hstep
      next hgets =>
          obtain ⟨hoff, body, rest, rfl, hreading⟩ := hexpects
          have hread := Owed.read hreading hgets
          cases hstep
          split
          next hmore =>
              have hnext : Phase.Expects json ((s.consume n).Owed json) (.raw body :: rest)
                  (.rawBody (r.iterate (s.socket.take n))) := ⟨hmore, body, rest, rfl, hread⟩
              exact ⟨_, hleft.loop hnext (by rintro ⟨⟩) rfl (hnone (by rintro ⟨⟩))⟩
          next hend =>
              obtain ⟨hbuf, -, howed⟩ := hleft.done hread hend
              rw [hbuf]
              exact ⟨rest, hleft.returns howed (hnone (by rintro ⟨⟩))⟩
      next => cases hstep

/-- A call begins, or ends without having read. -/
theorem Inv.setPhase (h : Inv json sent items s) {phase : Phase Fd} {consumed returnedNone : Bool}
    {taken : ℕ} (hexpects : phase.Expects json (s.Owed json) items) (htaken : taken = 0)
    (hfirst : phase.inMsg = true → phase = .msgPrefix (.start (List.replicate 4 0) true))
    (hnone : returnedNone = true → phase = .idle) :
  Inv json sent items
    { s with phase := phase, consumed := consumed, taken := taken, returnedNone := returnedNone }
  := ⟨⟨h.split, h.calls, h.fits, h.toSend, h.sending⟩, hexpects, fun _ => htaken,
    fun hphase _ => ⟨hfirst hphase, htaken⟩, fun hset => ⟨hnone hset, htaken⟩⟩

/-- A call fails. -/
theorem Inv.close (h : Inv json sent items s) (hphase : s.phase ≠ .idle) {fault : Fault}
    (hfault : fault = .stalled ∨ fault = .io) :
  Inv json sent items { s with phase := .closed fault }
  := by
  refine ⟨⟨h.split, h.calls, h.fits, h.toSend, h.sending⟩, hfault, ?_, ?_, ?_⟩
  · rintro ⟨⟩
  · rintro ⟨⟩
  · intro hset
    cases hphase (h.none hset).1

theorem length_replicate_four (n : ℕ) :
  (List.replicate 4 (0 : UInt8)).length = (beBytes 4 n).length
  := by rw [List.length_replicate, length_beBytes]

/-- The receiver waits for a message. -/
theorem Inv.recvMsgTimeout2 (h : Inv json sent items s) (hphase : s.phase = .idle)
    {calls : List Call} (hcalls : s.calls = .recvMsg :: calls) :
  Inv json sent items (s.begin .waiting)
  := by
  have hexpects := h.expects
  rw [hphase] at hexpects
  rw [h.calls] at hcalls
  refine h.setPhase ⟨?_, hexpects⟩ rfl (by rintro ⟨⟩) (by rintro ⟨⟩)
  cases items with
  | nil => cases hcalls
  | cons item rest =>
      cases item with
      | msg data fd => exact ⟨data, fd, rest, rfl⟩
      | raw body => cases hcalls

/-- The receiver begins to read a message. -/
theorem Inv.readable (h : Inv json sent items s) (hphase : s.phase = .waiting) :
  Inv json sent items
    { s with phase := .msgPrefix (.start (List.replicate 4 0) true), consumed := false }
  := by
  have hexpects := h.expects
  rw [hphase] at hexpects
  obtain ⟨⟨data, fd, rest, rfl⟩, howed⟩ := hexpects
  obtain ⟨payload, hpayload⟩ := (h.fits _ List.mem_cons_self).exists_payload
  have hreading : s.Owed json ((ReadFull.start (List.replicate 4 0) true).Reading
      (beBytes 4 payload.length) fd (Leads payload .none (Frames json rest))) := by
    refine Owed.mono howed ?_
    rintro cells ⟨payload', hpayload', hleads⟩
    obtain rfl := Option.some.inj (hpayload'.symm.trans hpayload)
    exact ReadFull.reading_start (length_replicate_four _) (Or.inl rfl) hleads
  refine h.setPhase ⟨Nat.zero_lt_succ 3, data, fd, rest, payload, rfl, hpayload, hreading⟩
    (h.waiting hphase) (fun _ => rfl) ?_
  intro hset
  rw [(h.none hset).1] at hphase
  cases hphase

/-- The receiver begins to read a body. -/
theorem Inv.nextRawInto (h : Inv json sent items s) (hphase : s.phase = .idle)
    {calls : List Call} (hcalls : s.calls = .nextRaw :: calls) (out : List UInt8) :
  Inv json sent items (s.begin (.rawPrefix out (.start (List.replicate 4 0) true)))
  := by
  have hexpects := h.expects
  rw [hphase] at hexpects
  rw [h.calls] at hcalls
  cases items with
  | nil => cases hcalls
  | cons item rest =>
      cases item with
      | msg data fd => cases hcalls
      | raw body =>
          refine h.setPhase ⟨Nat.zero_lt_succ 3, body, rest, rfl, Owed.mono hexpects ?_⟩ rfl
            (by rintro ⟨⟩) (by rintro ⟨⟩)
          rintro cells ⟨payload, hpayload, hleads⟩
          obtain rfl := Option.some.inj hpayload
          exact ReadFull.reading_start (length_replicate_four _) (Or.inl rfl) hleads

theorem Inv.elapse (h : Inv json sent items s) (hstep : s.elapse = some s') :
  Inv json sent items s'
  := by
  have hexpects := h.expects
  have hmsg (hin : s.phase.inMsg = true) (hnot : ¬ s.consumed = true) :
      Inv json sent items { s with phase := .idle, returnedNone := true } := by
    obtain ⟨hfirst, htaken⟩ := h.consumed hin (Bool.eq_false_of_not_eq_true hnot)
    rw [hfirst] at hexpects
    obtain ⟨-, data, fd, rest, payload, rfl, hpayload, hreading⟩ := hexpects
    refine h.setPhase (Owed.mono hreading ?_) htaken (by rintro ⟨⟩) (fun _ => rfl)
    exact fun cells hcells => ⟨payload, hpayload, ReadFull.leads_of_reading_start hcells⟩
  rw [System.elapse.eq_def] at hstep
  cases hphase : s.phase with
  | idle | closed =>
      rw [hphase] at hstep
      cases hstep
  | waiting =>
      rw [hphase] at hstep hexpects
      cases hstep
      exact h.setPhase hexpects.2 (h.waiting hphase) (by rintro ⟨⟩) (fun _ => rfl)
  | msgPrefix r =>
      rw [hphase] at hstep
      dsimp only at hstep
      split at hstep
      next =>
          cases hstep
          exact h.close (by rw [hphase]; rintro ⟨⟩) (Or.inl rfl)
      next hnot =>
          cases hstep
          exact hmsg (by rw [hphase]; rfl) hnot
  | msgBody fd r =>
      rw [hphase] at hstep
      dsimp only at hstep
      split at hstep
      next =>
          cases hstep
          exact h.close (by rw [hphase]; rintro ⟨⟩) (Or.inl rfl)
      next hnot =>
          cases hstep
          exact hmsg (by rw [hphase]; rfl) hnot
  | rawPrefix out r =>
      rw [hphase] at hstep
      cases hstep
      exact h.close (by rw [hphase]; rintro ⟨⟩) (Or.inl rfl)
  | rawBody r =>
      rw [hphase] at hstep
      cases hstep
      exact h.close (by rw [hphase]; rintro ⟨⟩) (Or.inl rfl)

/-- Every step keeps what is known. -/
theorem Inv.step (h : Inv json sent items s) {l : Label} (hstep : Step json s l s') :
  ∃ items', Inv json sent items' s'
  := by
  rw [Step] at hstep
  cases l with
  | read n => exact h.read hstep
  | send =>
      rw [Transport.step] at hstep
      split at hstep
      next => cases hstep
      next => exact ⟨items, h.send hstep⟩
  | write n i =>
      rw [Transport.step] at hstep
      split at hstep
      next => cases hstep
      next => exact ⟨items, h.write hstep⟩
  | sendError =>
      cases hstep
      exact ⟨items, h.fail⟩
  | recvMsgTimeout2 =>
      rw [Transport.step] at hstep
      split at hstep
      next hphase hcalls =>
          cases hstep
          exact ⟨items, h.recvMsgTimeout2 hphase hcalls⟩
      next => cases hstep
  | readable =>
      rw [Transport.step] at hstep
      split at hstep
      next hphase =>
          cases hstep
          exact ⟨items, h.readable hphase⟩
      next => cases hstep
  | nextRawInto out =>
      rw [Transport.step] at hstep
      split at hstep
      next hphase hcalls =>
          cases hstep
          exact ⟨items, h.nextRawInto hphase hcalls out⟩
      next => cases hstep
  | readError =>
      rw [Transport.step] at hstep
      split at hstep
      next => cases hstep
      next => cases hstep
      next hidle hclosed =>
          cases hstep
          exact ⟨items, h.close hidle (Or.inr rfl)⟩
  | elapse => exact ⟨items, h.elapse hstep⟩

theorem inv_start (hsent : ∀ item ∈ sent, item.Fits json) : Inv json sent sent (.start sent)
  := by
  refine ⟨⟨rfl, rfl, hsent, hsent, ?_⟩, fun rest hrest => hrest, ?_, ?_, ?_⟩
  · rintro passFd payload ⟨⟩
  · rintro ⟨⟩
  · rintro ⟨⟩
  · rintro ⟨⟩

end

/-- In every run, what is sent is what is received. -/
theorem delivered_of_run {json : Json Data} {items : List (Item Data Fd)}
    (hitems : ∀ item ∈ items, item.Fits json)
    {h : List (System Data Fd × Label)} {s : System Data Fd}
    (hrun : Run (Step json) (.start items) h s) :
  (∀ x ∈ h, Delivered json items x.1) ∧ Delivered json items s
  := by
  refine hrun.forall_of (fun _ _ => True) (fun s => ∃ left, Inv json items left s)
    (Delivered json items) ⟨items, inv_start hitems⟩ ?_ ?_ (fun _ _ => trivial)
  · rintro s ⟨left, hinv⟩
    exact delivered_of_inv hinv
  · rintro s l s' ⟨left, hinv⟩ - hstep
    exact hinv.step hstep

/-- The JSON of `true` and `false`. -/
def jsonBool : Json Bool where
  toVec b := some (if b then [0x74, 0x72, 0x75, 0x65] else [0x66, 0x61, 0x6c, 0x73, 0x65])
  fromSlice bytes :=
    if bytes = [0x74, 0x72, 0x75, 0x65] then some true
    else if bytes = [0x66, 0x61, 0x6c, 0x73, 0x65] then some false
    else none

theorem fits_jsonBool (data : Bool) (fd : Option Fd) : (Item.msg data fd).Fits jsonBool
  := by
  refine ⟨_, rfl, ?_, ?_⟩
  · cases data
    all_goals decide
  · cases data
    all_goals decide

theorem delivered_split :
  ∃ h s, Run (Step jsonBool) (.start [.msg true (some 3), .raw [1, 2]]) h s
    ∧ s.received = [.msg true (some 3), .raw [1, 2]]
    ∧ Delivered jsonBool [.msg true (some 3), .raw [1, 2]] s
  := by
  have hitems : ∀ item ∈ [Item.msg true (some 3), .raw [1, 2]], item.Fits jsonBool := by
    intro item hitem
    rcases List.mem_cons.mp hitem with rfl | hraw
    · exact fits_jsonBool true _
    · rw [List.mem_singleton.mp hraw]
      exact Nat.le_of_ble_eq_true rfl
  obtain ⟨h, s, hrun, htest⟩ := Run.exists_of_traceM (step jsonBool)
    (.start [.msg true (some 3), .raw [1, 2]])
    [.recvMsgTimeout2, .elapse, .send, .write 2 1, .recvMsgTimeout2, .readable, .read 1, .write 2 0,
      .read 3, .write 4 0, .read 4, .send, .write 4 2, .nextRawInto [9], .read 4, .write 2 0,
      .read 1, .read 1]
    (fun _ s => s.received == [.msg true (some 3), .raw [1, 2]]) (by decide)
  exact ⟨h, s, hrun, beq_iff_eq.mp htest, (delivered_of_run hitems hrun).2⟩

end VynxDesk.Drm.Transport
