import Mathlib.Data.List.Induction
import VynxDesk.Connection.Message

/-!
# The negotiated codec

`Encoder::update` of `scrap/src/common/codec.rs` chooses a format for the peers that are registered:
what most of them prefer of what all of them can decode, or else the best that all of them can
decode.  With peers that can all decode VP9 all of them can decode what is chosen
(`decodable_choose`).
-/

namespace VynxDesk.Codec

/-- `CodecFormat`. -/
inductive CodecFormat where
  | VP8
  | VP9
  | AV1
  | H264
  | H265
  | Unknown
  deriving DecidableEq, Repr

/-- `PreferCodec`. -/
inductive PreferCodec where
  | Auto
  | VP8
  | VP9
  | AV1
  | H264
  | H265
  deriving DecidableEq

/-- `SupportedDecoding`, as far as it is about formats. -/
structure SupportedDecoding where
  abilityVp8 : Int := 0
  abilityVp9 : Int := 0
  abilityAv1 : Int := 0
  abilityH264 : Int := 0
  abilityH265 : Int := 0
  prefer : EnumOrUnknown PreferCodec := .known .Auto
  deriving DecidableEq

/-- A peer reports that it can decode a format. -/
def SupportedDecoding.Decodes (decoding : SupportedDecoding) : CodecFormat → Prop
  | .VP8 => 0 < decoding.abilityVp8
  | .VP9 => 0 < decoding.abilityVp9
  | .AV1 => 0 < decoding.abilityAv1
  | .H264 => 0 < decoding.abilityH264
  | .H265 => 0 < decoding.abilityH265
  | .Unknown => False

instance (decoding : SupportedDecoding) (format : CodecFormat) :
    Decidable (decoding.Decodes format) := by
  cases format <;> unfold SupportedDecoding.Decodes <;> infer_instance

/-- `PEER_DECODINGS`: the peers that are registered, each once. -/
abbrev PeerDecodings := List (Int × SupportedDecoding)

/-- Every registered peer can decode a format. -/
def Decodable (decodings : PeerDecodings) (format : CodecFormat) : Prop :=
  ∀ peer ∈ decodings, peer.2.Decodes format

/-- `EncodingUpdate`. -/
inductive EncodingUpdate where
  | update (id : Int) (decoding : SupportedDecoding)
  | remove (id : Int)
  | newOnlyVP9 (id : Int)
  | check
  deriving DecidableEq

/-- `HashMap::insert`. -/
def insertPeer (id : Int) (decoding : SupportedDecoding) (decodings : PeerDecodings) :
    PeerDecodings :=
  (id, decoding) :: decodings.filter fun peer => peer.1 ≠ id

/-- The peers that are registered after an update. -/
def EncodingUpdate.apply (decodings : PeerDecodings) : EncodingUpdate → PeerDecodings
  | .update id decoding => insertPeer id decoding decodings
  | .remove id => decodings.filter fun peer => peer.1 ≠ id
  | .newOnlyVP9 id => insertPeer id { abilityVp9 := 1 } decodings
  | .check => decodings

/-- What `update` finds of this machine: whether AV1 is disabled or has failed its test, which
encoders are enabled and available, and whether there are at most 4 GB of memory. -/
structure Machine where
  disableAv1 : Bool := false
  av1Test : Bool := true
  h264vram : Bool := false
  h265vram : Bool := false
  h264hw : Bool := false
  h265hw : Bool := false
  smallMemory : Bool := false
  deriving DecidableEq

/-- There are peers, and all of them have an ability. -/
def allSupport (ability : SupportedDecoding → Int) (decodings : PeerDecodings) : Bool :=
  0 < decodings.length && decodings.all fun peer => 0 < ability peer.2

/-- `h264vram_encoding || h264hw_encoding.is_some()`: an encoder is looked for when all peers can
decode its format. -/
def h264Encoding (machine : Machine) (decodings : PeerDecodings) : Bool :=
  allSupport (·.abilityH264) decodings && (machine.h264vram || machine.h264hw)

/-- `h265vram_encoding || h265hw_encoding.is_some()`. -/
def h265Encoding (machine : Machine) (decodings : PeerDecodings) : Bool :=
  allSupport (·.abilityH265) decodings && (machine.h265vram || machine.h265hw)

/-- What can be used with the registered peers. -/
structure Usable where
  vp8 : Bool
  av1 : Bool
  h264 : Bool
  h265 : Bool
  deriving DecidableEq

/-- `vp8_useable`, `av1_useable`, `h264_useable` and `h265_useable`. -/
def usable (machine : Machine) (decodings : PeerDecodings) : Usable where
  vp8 := allSupport (·.abilityVp8) decodings
  av1 := allSupport (·.abilityAv1) decodings && !machine.disableAv1
  h264 := allSupport (·.abilityH264) decodings && h264Encoding machine decodings
  h265 := allSupport (·.abilityH265) decodings && h265Encoding machine decodings

/-- The preferences that can be met. -/
def preferences (useable : Usable) (decodings : PeerDecodings) : List (EnumOrUnknown PreferCodec) :=
  (decodings.filter fun peer =>
    peer.2.prefer = .known .VP9
      || peer.2.prefer = .known .VP8 && useable.vp8
      || peer.2.prefer = .known .AV1 && useable.av1
      || peer.2.prefer = .known .H264 && useable.h264
      || peer.2.prefer = .known .H265 && useable.h265).map fun peer => peer.2.prefer

/-- One more preference is counted. -/
def count (pref : EnumOrUnknown PreferCodec) :
    List (EnumOrUnknown PreferCodec × ℕ) → List (EnumOrUnknown PreferCodec × ℕ)
  | [] => [(pref, 1)]
  | (p, n) :: counts => if p = pref then (p, n + 1) :: counts else (p, n) :: count pref counts

/-- The most frequent preference: of those that are equally frequent the one that was found first. -/
def mostFrequent (prefs : List (EnumOrUnknown PreferCodec)) : EnumOrUnknown PreferCodec :=
  let counts := prefs.foldl (fun counts pref => count pref counts) []
  let maxCount := (counts.map Prod.snd).max?.getD 0
  ((counts.find? fun x => x.2 = maxCount).getD (.known .Auto, 0)).1

/-- `auto_codec`. -/
def autoCodec (machine : Machine) (useable : Usable) : CodecFormat :=
  let auto := if useable.av1 && machine.av1Test then CodecFormat.AV1 else .VP9
  let auto := if useable.h264 then .H264 else auto
  let auto := if useable.h265 then .H265 else auto
  if (auto = .VP9 || auto = .AV1) && useable.vp8 && machine.smallMemory then .VP8 else auto

/-- The format that `update` writes, with the registered peers in the order of their iteration. -/
def choose (machine : Machine) (decodings : PeerDecodings) : CodecFormat :=
  let useable := usable machine decodings
  let auto := autoCodec machine useable
  match (mostFrequent (preferences useable decodings)).enumValue.getD .Auto with
  | .VP8 => .VP8
  | .VP9 => .VP9
  | .AV1 => .AV1
  | .H264 => if h264Encoding machine decodings then .H264 else auto
  | .H265 => if h265Encoding machine decodings then .H265 else auto
  | .Auto => auto

/-! ### All peers can decode what is chosen -/

variable {machine : Machine} {decodings : PeerDecodings}

theorem mem_count {pref x : EnumOrUnknown PreferCodec}
    {counts : List (EnumOrUnknown PreferCodec × ℕ)} (h : x ∈ (count pref counts).map Prod.fst) :
  x = pref ∨ x ∈ counts.map Prod.fst
  := by
  induction counts with
  | nil =>
      left
      simpa [count] using h
  | cons first counts ih =>
      obtain ⟨p, n⟩ := first
      rw [count] at h
      split_ifs at h
      · right
        exact h
      · rw [List.map_cons, List.mem_cons] at h ⊢
        rcases h with h | h
        · right
          left
          exact h
        · rcases ih h with h | h
          · left
            exact h
          · right
            right
            exact h

/-- Only preferences are counted. -/
theorem mem_counts {prefs : List (EnumOrUnknown PreferCodec)} {x : EnumOrUnknown PreferCodec}
    (h : x ∈ (prefs.foldl (fun counts pref => count pref counts) []).map Prod.fst) :
  x ∈ prefs
  := by
  induction prefs using List.reverseRecOn with
  | nil => exact h
  | append_singleton prefs pref ih =>
      rw [List.foldl_append, List.foldl_cons, List.foldl_nil] at h
      rw [List.mem_append, List.mem_singleton]
      rcases mem_count h with h | h
      · right
        exact h
      · left
        apply ih h

/-- The most frequent preference is one of them, if there are any. -/
theorem mostFrequent_mem (prefs : List (EnumOrUnknown PreferCodec)) :
  mostFrequent prefs = .known .Auto ∨ mostFrequent prefs ∈ prefs
  := by
  rw [mostFrequent]
  generalize hfound : List.find? _ _ = found
  cases found with
  | none =>
      left
      rfl
  | some x =>
      right
      apply mem_counts
      apply List.mem_map_of_mem
      apply List.mem_of_find?_eq_some hfound

/-- An ability that all peers have is one that each of them has. -/
theorem lt_of_allSupport {ability : SupportedDecoding → Int}
    (h : allSupport ability decodings = true) :
  ∀ peer ∈ decodings, 0 < ability peer.2
  := by
  rw [allSupport, Bool.and_eq_true, List.all_eq_true] at h
  intro peer hpeer
  apply of_decide_eq_true (h.2 peer hpeer)

theorem decodable_ite {b : Bool} {format format' : CodecFormat}
    (h : b = true → Decodable decodings format) (h' : Decodable decodings format') :
  Decodable decodings (if b then format else format')
  := by
  split_ifs with hb
  · apply h hb
  · exact h'

/-- The best format that can be used is one that all peers can decode. -/
theorem decodable_autoCodec (hvp9 : Decodable decodings .VP9) :
  Decodable decodings (autoCodec machine (usable machine decodings))
  := by
  rw [autoCodec]
  apply decodable_ite
  · intro hvp8
    rw [Bool.and_eq_true, Bool.and_eq_true] at hvp8
    apply lt_of_allSupport hvp8.1.2
  · apply decodable_ite
    · intro hh265
      rw [usable, Bool.and_eq_true] at hh265
      apply lt_of_allSupport hh265.1
    · apply decodable_ite
      · intro hh264
        rw [usable, Bool.and_eq_true] at hh264
        apply lt_of_allSupport hh264.1
      · apply decodable_ite
        · intro hav1
          rw [usable, Bool.and_eq_true, Bool.and_eq_true] at hav1
          apply lt_of_allSupport hav1.1.1
        · exact hvp9

/-- A preference that is counted can be met. -/
theorem useable_of_preference {useable : Usable} {pref : EnumOrUnknown PreferCodec}
    (h : pref ∈ preferences useable decodings) :
  (pref = .known .VP8 → useable.vp8 = true) ∧ (pref = .known .AV1 → useable.av1 = true)
  := by
  obtain ⟨peer, hpeer, rfl⟩ := List.mem_map.mp h
  have hmet := (List.mem_filter.mp hpeer).2
  constructor
  · intro hvp8
    simpa [hvp8] using hmet
  · intro hav1
    simpa [hav1] using hmet

/-- Peers that can all decode VP9 can all decode what is chosen for them. -/
theorem decodable_choose (hvp9 : Decodable decodings .VP9) :
  Decodable decodings (choose machine decodings)
  := by
  have hauto := @decodable_autoCodec machine decodings hvp9
  rw [choose]
  generalize hpref : mostFrequent (preferences (usable machine decodings) decodings) = pref
  have hmem := mostFrequent_mem (preferences (usable machine decodings) decodings)
  rw [hpref] at hmem
  cases pref with
  | unknown value => exact hauto
  | known codec =>
      cases codec with
      | Auto => exact hauto
      | VP8 =>
          have hvp8 := (useable_of_preference (hmem.resolve_left nofun)).1 rfl
          apply lt_of_allSupport hvp8
      | VP9 => exact hvp9
      | AV1 =>
          have hav1 := (useable_of_preference (hmem.resolve_left nofun)).2 rfl
          rw [usable, Bool.and_eq_true] at hav1
          apply lt_of_allSupport hav1.1
      | H264 =>
          apply decodable_ite _ hauto
          intro hencoding
          rw [h264Encoding, Bool.and_eq_true] at hencoding
          apply lt_of_allSupport hencoding.1
      | H265 =>
          apply decodable_ite _ hauto
          intro hencoding
          rw [h265Encoding, Bool.and_eq_true] at hencoding
          apply lt_of_allSupport hencoding.1

end VynxDesk.Codec
