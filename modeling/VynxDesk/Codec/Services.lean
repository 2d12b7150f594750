import Mathlib.Data.List.Infix
import Mathlib.Logic.Function.Basic
import VynxDesk.Codec.Negotiation
import VynxDesk.Lib.Run

/-!
# The codec of the video services

Every video service makes its encoder of the negotiated format (`setup_encoder`), writes the format
of the encoder back when that is another one (`set_fallback`), remembers the format that is then
negotiated and goes on as long as it stays.  Each of these takes the lock of `ENCODE_CODEC_FORMAT`
on its own, so that an update may come in between; an update keeps `PEER_DECODINGS` locked until it
has written the format, and so is one step.  Every peer can decode what a service shows it as long
as no service writes a format back that some peer cannot decode, or remembers another one than that
of its encoder (`shown_of_run`).
-/

namespace VynxDesk.Codec

/-- `VpxVideoCodecId`. -/
inductive VpxVideoCodecId where
  | VP8
  | VP9
  deriving DecidableEq

/-- `DataFormat`, as far as `VRamEncoder::try_get` finds encoders. -/
inductive DataFormat where
  | H264
  | H265
  deriving DecidableEq

/-- `EncoderCfg`, as far as it tells a format. -/
inductive EncoderCfg where
  | VPX (codec : VpxVideoCodecId)
  | AOM
  | HWRAM (name : String)
  | VRAM (dataFormat : DataFormat)
  deriving DecidableEq

/-- `name.to_lowercase().contains(part)`. -/
def nameContains (name part : String) : Bool := part.toList <:+: name.toLower.toList

/-- The format of an encoder: what `set_fallback` makes of its configuration. -/
def EncoderCfg.format : EncoderCfg → CodecFormat
  | .VPX .VP8 => .VP8
  | .VPX .VP9 => .VP9
  | .AOM => .AV1
  | .HWRAM name =>
      if nameContains name "vp8" then .VP8
      else if nameContains name "vp9" then .VP9
      else if nameContains name "av1" then .AV1
      else if nameContains name "h264" then .H264
      else .H265
  | .VRAM .H264 => .H264
  | .VRAM .H265 => .H265

/-- An encoder of hardware: `Encoder::new` writes VP9 when it fails. -/
def EncoderCfg.isHardware : EncoderCfg → Bool
  | .HWRAM _ | .VRAM _ => true
  | .VPX _ | .AOM => false

/-- What `try_get` finds for the negotiated format: whether there is an encoder with textures, and
the name of one without. -/
structure Found where
  vram : Bool := false
  hw : Option String := none
  deriving DecidableEq

/-- An encoder of hardware, if one is found, else VP9. -/
def Found.config (found : Found) (dataFormat : DataFormat) : EncoderCfg :=
  if found.vram then .VRAM dataFormat
  else
    match found.hw with
    | some name => .HWRAM name
    | none => .VPX .VP9

/-- `get_encoder_config`. -/
def getEncoderConfig (found : Found) : CodecFormat → EncoderCfg
  | .H264 => found.config .H264
  | .H265 => found.config .H265
  | .VP8 => .VPX .VP8
  | .VP9 => .VPX .VP9
  | .AV1 => .AOM
  | .Unknown => .VPX .VP9

/-- Where a video service is.  `setup` is the start of `setup_encoder`, `retried` when it is the
second one; `configured`, `compared` and `settled` are behind the read of `get_encoder_config`, the
read and the write of `set_fallback`, and `remembered` is before `Encoder::new`; `failed` and
`falling` are before the read and the write of `set_fallback` to VP9. -/
inductive Phase where
  | stopped
  | setup (retried : Bool)
  | configured (retried : Bool) (cfg : EncoderCfg)
  | compared (retried : Bool) (cfg : EncoderCfg) (current : CodecFormat)
  | settled (retried : Bool) (cfg : EncoderCfg)
  | remembered (retried : Bool) (cfg : EncoderCfg) (codecFormat : CodecFormat)
  | failed
  | falling (current : CodecFormat)
  | running (cfg : EncoderCfg) (codecFormat : CodecFormat)
  deriving DecidableEq

/-- What a video service does: `stop` is any other end of its run. -/
inductive Action where
  | start
  | configure (found : Found)
  | compare
  | fallBack
  | remember
  | newEncoder (ok : Bool)
  | check
  | stop
  deriving DecidableEq

/-- The peers, the negotiated format and the video services. -/
structure State where
  decodings : PeerDecodings := []
  format : CodecFormat := .VP9
  services : ℕ → Phase := fun _ => .stopped

/-- What happens: an update, with what it finds of the machine and the order it finds the peers in,
or an action of a service. -/
inductive Event where
  | update (update : EncodingUpdate) (machine : Machine) (order : PeerDecodings)
  | serve (id : ℕ) (action : Action)

/-- The write of `set_fallback`: it is left out when the format it has read is that of the
encoder. -/
def writeBack (cfg : EncoderCfg) (current format : CodecFormat) : CodecFormat :=
  if current ≠ cfg.format then cfg.format else format

/-- An action of a service with the negotiated format: where the service is then, and the format. -/
def act (format : CodecFormat) : Phase → Action → Option (Phase × CodecFormat)
  | .stopped, .start => some (.setup false, format)
  | .setup retried, .configure found =>
      some (.configured retried (getEncoderConfig found format), format)
  | .configured retried cfg, .compare => some (.compared retried cfg format, format)
  | .compared retried cfg current, .fallBack =>
      some (.settled retried cfg, writeBack cfg current format)
  | .settled retried cfg, .remember => some (.remembered retried cfg format, format)
  | .remembered _ cfg codecFormat, .newEncoder true => some (.running cfg codecFormat, format)
  | .remembered retried cfg _, .newEncoder false =>
      some (if retried then .stopped else .failed, if cfg.isHardware then .VP9 else format)
  | .failed, .compare => some (.falling format, format)
  | .falling current, .fallBack => some (.setup true, writeBack (.VPX .VP9) current format)
  | .running cfg codecFormat, .check =>
      some (if codecFormat ≠ format then .stopped else .running cfg codecFormat, format)
  | .running _ _, .stop => some (.stopped, format)
  | _, _ => none

/-- An event, if it can happen. -/
def next (s : State) : Event → Option State
  | .update update machine order =>
      if order.Perm (update.apply s.decodings) then
        some { s with decodings := order, format := choose machine order }
      else none
  | .serve id action =>
      (act s.format (s.services id) action).map fun r =>
        { s with services := Function.update s.services id r.1, format := r.2 }

/-- A peer that is registered reports that it can decode VP9. -/
def Event.ReportsVP9 : Event → Prop
  | .update (.update _ decoding) _ _ => decoding.Decodes .VP9
  | .update _ _ _ | .serve _ _ => True

instance (event : Event) : Decidable event.ReportsVP9 := by
  unfold Event.ReportsVP9
  split <;> infer_instance

/-- Every peer can decode what a service writes back, and a service remembers the format of its
encoder, if that is not VP9. -/
def FreshAct (decodings : PeerDecodings) (format : CodecFormat) : Phase → Action → Prop
  | .compared _ cfg current, .fallBack => current ≠ cfg.format → Decodable decodings cfg.format
  | .settled _ cfg, .remember => format = cfg.format ∨ cfg.format = .VP9
  | _, _ => True

instance (decodings : PeerDecodings) (format : CodecFormat) (phase : Phase) (action : Action) :
    Decidable (FreshAct decodings format phase action) := by
  unfold FreshAct Decodable
  split <;> infer_instance

/-- The actions of the services are such. -/
def Fresh (s : State) : Event → Prop
  | .serve id action => FreshAct s.decodings s.format (s.services id) action
  | .update _ _ _ => True

instance (s : State) (event : Event) : Decidable (Fresh s event) := by
  unfold Fresh
  split <;> infer_instance

/-- Every peer can decode what the services show that go on. -/
def Shown (s : State) : Prop :=
  ∀ id cfg codecFormat, s.services id = .running cfg codecFormat → codecFormat = s.format →
    Decodable s.decodings cfg.format

/-- What a service has remembered is the format of its encoder, or this is VP9. -/
def Phase.Agrees : Phase → Prop
  | .remembered _ cfg codecFormat => codecFormat = cfg.format ∨ cfg.format = .VP9
  | .running cfg codecFormat => codecFormat = cfg.format ∨ cfg.format = .VP9
  | _ => True

/-- What holds in runs in which services write back and remember what they should. -/
structure Kept (s : State) : Prop where
  vp9 : Decodable s.decodings .VP9
  format : Decodable s.decodings s.format
  services : ∀ id, (s.services id).Agrees

theorem kept_init : Kept {}
  := ⟨nofun, nofun, fun _ => trivial⟩

theorem Kept.shown {s : State} (h : Kept s) : Shown s
  := by
  intro id cfg codecFormat hrunning hcheck
  have hagrees := h.services id
  rw [hrunning] at hagrees
  rcases hagrees with heq | hvp9
  · rw [← heq, hcheck]
    exact h.format
  · rw [hvp9]
    exact h.vp9

/-- What is written back is the format of the encoder, or nothing is written. -/
theorem decodable_writeBack {decodings : PeerDecodings} {cfg : EncoderCfg}
    {current format : CodecFormat} (hformat : Decodable decodings format)
    (hcfg : current ≠ cfg.format → Decodable decodings cfg.format) :
  Decodable decodings (writeBack cfg current format)
  := by
  rw [writeBack]
  split_ifs with hcurrent
  · apply hcfg hcurrent
  · exact hformat

/-- An action keeps the format decodable, and what the service has remembered. -/
theorem act_kept {decodings : PeerDecodings} {format : CodecFormat} {phase : Phase}
    {action : Action} {r : Phase × CodecFormat} (hact : act format phase action = some r)
    (hfresh : FreshAct decodings format phase action) (hagrees : phase.Agrees)
    (hvp9 : Decodable decodings .VP9) (hformat : Decodable decodings format) :
  r.1.Agrees ∧ Decodable decodings r.2
  := by
  unfold act at hact
  split at hact
  · cases hact
    exact ⟨trivial, hformat⟩
  · cases hact
    exact ⟨trivial, hformat⟩
  · cases hact
    exact ⟨trivial, hformat⟩
  · cases hact
    exact ⟨trivial, decodable_writeBack hformat hfresh⟩
  · cases hact
    exact ⟨hfresh, hformat⟩
  · cases hact
    exact ⟨hagrees, hformat⟩
  · cases hact
    constructor
    · dsimp only
      split_ifs <;> trivial
    · dsimp only
      split_ifs
      · exact hvp9
      · exact hformat
  · cases hact
    exact ⟨trivial, hformat⟩
  · cases hact
    exact ⟨trivial, decodable_writeBack hformat fun _ => hvp9⟩
  · cases hact
    constructor
    · dsimp only
      split_ifs
      · trivial
      · exact hagrees
    · exact hformat
  · cases hact
    exact ⟨trivial, hformat⟩
  · cases hact

/-- A peer that is registered by an update is one that was, or reports VP9. -/
theorem decodes_vp9_of_apply {decodings order : PeerDecodings} {update : EncodingUpdate}
    {machine : Machine} (h : Decodable decodings .VP9)
    (hreports : (Event.update update machine order).ReportsVP9) :
  Decodable (update.apply decodings) .VP9
  := by
  have hinsert {id : Int} {decoding : SupportedDecoding} (hdecodes : decoding.Decodes .VP9) :
      Decodable (insertPeer id decoding decodings) .VP9 := by
    intro peer hpeer
    rw [insertPeer, List.mem_cons] at hpeer
    rcases hpeer with rfl | hpeer
    · exact hdecodes
    · apply h peer (List.mem_of_mem_filter hpeer)
  cases update with
  | update id decoding => apply hinsert hreports
  | remove id =>
      intro peer hpeer
      apply h peer (List.mem_of_mem_filter hpeer)
  | newOnlyVP9 id =>
      apply hinsert
      decide
  | check => exact h

/-- Every event keeps what holds, when the services write back and remember what they should. -/
theorem Kept.next {s s' : State} {event : Event} (h : Kept s) (hreports : event.ReportsVP9)
    (hfresh : Fresh s event) (hnext : Codec.next s event = some s') :
  Kept s'
  := by
  cases event with
  | update update machine order =>
      rw [Codec.next] at hnext
      split_ifs at hnext with hperm
      cases hnext
      have hvp9 : Decodable order .VP9 := by
        intro peer hpeer
        apply decodes_vp9_of_apply h.vp9 hreports peer (hperm.mem_iff.mp hpeer)
      exact ⟨hvp9, decodable_choose hvp9, h.services⟩
  | serve id action =>
      obtain ⟨r, hact, rfl⟩ := Option.map_eq_some_iff.mp hnext
      obtain ⟨hagrees, hformat⟩ := act_kept hact hfresh (h.services id) h.vp9 h.format
      constructor
      · exact h.vp9
      · exact hformat
      · intro id'
        dsimp only
        rw [Function.update_apply]
        split_ifs
        · exact hagrees
        · apply h.services

/-- Every peer can decode what it is shown, as long as the services write back and remember what they
should. -/
theorem shown_of_run {h : List (State × Event)} {s : State}
    (hrun : Run (fun s event s' => next s event = some s') {} h s)
    (hreports : ∀ x ∈ h, x.2.ReportsVP9) (hfresh : ∀ x ∈ h, Fresh x.1 x.2) :
  (∀ x ∈ h, Shown x.1) ∧ Shown s
  := by
  apply hrun.forall_of (fun s event => event.ReportsVP9 ∧ Fresh s event) Kept Shown kept_init
  · exact fun _ hkept => hkept.shown
  · rintro s event s' hkept ⟨hreports, hfresh⟩ hnext
    apply hkept.next hreports hfresh hnext
  · intro x hx
    exact ⟨hreports x hx, hfresh x hx⟩

/-- A peer that can decode VP9 and AV1. -/
def av1Peer : SupportedDecoding where
  abilityVp9 := 1
  abilityAv1 := 1

/-- A service starts while a peer is registered, and goes on. -/
def oneService : List Event :=
  [.update (.update 1 av1Peer) {} [(1, av1Peer)], .serve 0 .start, .serve 0 (.configure {}),
    .serve 0 .compare, .serve 0 .fallBack, .serve 0 .remember, .serve 0 (.newEncoder true),
    .serve 0 .check]

theorem shown_oneService :
  ∃ h s, Run (fun s event s' => next s event = some s') {} h s ∧
    s.services 0 = .running .AOM .AV1 ∧ Shown s
  := by
  obtain ⟨h, s, hrun, htest⟩ := Run.exists_of_traceM next {} oneService
    (fun h s => (∀ x ∈ h, x.2.ReportsVP9 ∧ Fresh x.1 x.2) ∧ s.services 0 = .running .AOM .AV1)
    (by decide +kernel)
  obtain ⟨hsteps, hservice⟩ := of_decide_eq_true htest
  refine ⟨h, s, hrun, hservice, ?_⟩
  apply (shown_of_run hrun (fun x hx => (hsteps x hx).1) (fun x hx => (hsteps x hx).2)).2

/-- A peer that can only decode VP9 joins between the read of `get_encoder_config` and that of
`set_fallback`, and is shown AV1. -/
def peerJoins : List Event :=
  [.update (.update 1 av1Peer) {} [(1, av1Peer)], .serve 0 .start, .serve 0 (.configure {}),
    .update (.newOnlyVP9 2) {} [(2, { abilityVp9 := 1 }), (1, av1Peer)],
    .serve 0 .compare, .serve 0 .fallBack, .serve 0 .remember, .serve 0 (.newEncoder true),
    .serve 0 .check]

theorem not_shown :
  ¬ ∀ (h : List (State × Event)) (s : State),
    Run (fun s event s' => next s event = some s') {} h s →
    (∀ x ∈ h, x.2.ReportsVP9) → (∀ x ∈ h, Shown x.1) ∧ Shown s
  := by
  intro hshown
  obtain ⟨h, s, hrun, htest⟩ := Run.exists_of_traceM next {} peerJoins
    (fun h s => (∀ x ∈ h, x.2.ReportsVP9) ∧ s.services 0 = .running .AOM .AV1 ∧ s.format = .AV1 ∧
      ¬ ∀ peer ∈ s.decodings, peer.2.Decodes .AV1)
    (by decide +kernel)
  obtain ⟨hreports, hservice, hformat, hnot⟩ := of_decide_eq_true htest
  apply hnot
  apply (hshown h s hrun hreports).2 0 _ _ hservice hformat.symm

end VynxDesk.Codec
