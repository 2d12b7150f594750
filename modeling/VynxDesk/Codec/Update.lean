import Mathlib.Data.List.Nodup
import Mathlib.Logic.Function.Basic
import VynxDesk.Codec.Negotiation
import VynxDesk.Lib.Run

/-!
# Updates of the negotiated codec

Every call of `Encoder::update` finds the format anew from the peers that are then registered, in
whatever order their map is gone through.  The format is VP9 or one that can be used with all of
them; it is a preference of most of those whose preference can be met, or the best that can be used
where no preference can be met; and `USABLE_ENCODING` tells what can be used
(`negotiated_of_run`).  What can be used leaves AV1 out on hosts of 32 bits, even where all peers
can decode it (`not_negotiated`).
-/

namespace VynxDesk.Codec

/-! ### The most frequent preference -/

section

variable {pref : EnumOrUnknown PreferCodec} {keys : List (EnumOrUnknown PreferCodec)}
  (n : EnumOrUnknown PreferCodec → ℕ)

/-- A preference that was counted before is counted once more. -/
theorem count_map_of_mem (hnodup : keys.Nodup) (hpref : pref ∈ keys) :
  count pref (keys.map fun p => (p, n p))
    = keys.map fun p => (p, if p = pref then n p + 1 else n p)
  := by
  induction keys with
  | nil => cases hpref
  | cons key keys ih =>
      rw [List.nodup_cons] at hnodup
      rw [List.map_cons, List.map_cons, count]
      split_ifs with hkey
      · subst hkey
        rw [List.cons_inj_right, List.map_inj_left]
        intro p hp
        rw [if_neg (ne_of_mem_of_not_mem hp hnodup.1)]
      · rw [ih hnodup.2 ((List.mem_cons.mp hpref).resolve_left (Ne.symm hkey))]

/-- A preference that was not counted before is counted behind the others. -/
theorem count_map_of_notMem (hpref : pref ∉ keys) :
  count pref (keys.map fun p => (p, n p)) = (keys.map fun p => (p, n p)) ++ [(pref, 1)]
  := by
  induction keys with
  | nil => rfl
  | cons key keys ih =>
      rw [List.mem_cons, not_or] at hpref
      rw [List.map_cons, count, if_neg (Ne.symm hpref.1), ih hpref.2, List.cons_append]

end

/-- Every preference is counted once, with how often it was found. -/
theorem counts_eq (prefs : List (EnumOrUnknown PreferCodec)) :
  ∃ keys : List (EnumOrUnknown PreferCodec), keys.Nodup ∧ (∀ pref, pref ∈ keys ↔ pref ∈ prefs) ∧
    prefs.foldl (fun counts pref => count pref counts) []
      = keys.map fun pref => (pref, prefs.count pref)
  := by
  induction prefs using List.reverseRecOn with
  | nil => exact ⟨[], List.nodup_nil, fun _ => Iff.rfl, rfl⟩
  | append_singleton prefs pref ih =>
      obtain ⟨keys, hnodup, hkeys, hcounts⟩ := ih
      rw [List.foldl_append, List.foldl_cons, List.foldl_nil, hcounts]
      by_cases hpref : pref ∈ keys
      · refine ⟨keys, hnodup, ?_, ?_⟩
        · intro p
          rw [hkeys, List.mem_append, List.mem_singleton]
          constructor
          · exact Or.inl
          · rintro (hp | rfl)
            · exact hp
            · exact (hkeys _).mp hpref
        · rw [count_map_of_mem _ hnodup hpref, List.map_inj_left]
          intro p _
          rw [List.count_append, List.count_singleton]
          split_ifs <;> simp_all
      · refine ⟨keys ++ [pref], ?_, ?_, ?_⟩
        · rw [List.nodup_append]
          refine ⟨hnodup, List.nodup_singleton _, ?_⟩
          intro a ha b hb
          rw [List.mem_singleton] at hb
          exact hb ▸ ne_of_mem_of_not_mem ha hpref
        · intro p
          rw [List.mem_append, List.mem_append, hkeys]
        · have hzero : prefs.count pref = 0 := List.count_eq_zero.mpr (mt (hkeys _).mpr hpref)
          rw [count_map_of_notMem _ hpref, List.map_append, List.map_singleton]
          congr 1
          · rw [List.map_inj_left]
            intro p hp
            rw [List.count_append, List.count_singleton,
              if_neg (by simpa using (ne_of_mem_of_not_mem hp hpref).symm), Nat.add_zero]
          · rw [List.count_append, hzero, List.count_singleton_self]

/-- Of preferences that there are, none is more frequent than the most frequent one. -/
theorem mostFrequent_spec {prefs : List (EnumOrUnknown PreferCodec)} (hprefs : prefs ≠ []) :
  mostFrequent prefs ∈ prefs ∧ ∀ pref ∈ prefs, prefs.count pref ≤ prefs.count (mostFrequent prefs)
  := by
  obtain ⟨keys, hnodup, hkeys, hcounts⟩ := counts_eq prefs
  have hmap : (keys.map fun pref => (pref, prefs.count pref)).map Prod.snd = keys.map prefs.count :=
    List.map_map
  obtain ⟨pref, hpref⟩ := List.exists_mem_of_ne_nil _ hprefs
  obtain ⟨m, hm⟩ := Option.isSome_iff_exists.mp
    (List.isSome_max?_of_mem (List.mem_map_of_mem (f := prefs.count) ((hkeys pref).mpr hpref)))
  obtain ⟨hmem, hle⟩ := List.max?_eq_some_iff.mp hm
  obtain ⟨top, htop, rfl⟩ := List.mem_map.mp hmem
  rw [mostFrequent, hcounts, hmap, hm, Option.getD_some]
  generalize hfound : List.find? _ _ = found
  cases found with
  | none =>
      rw [List.find?_eq_none] at hfound
      have hnot := hfound _ (List.mem_map_of_mem htop)
      simp at hnot
  | some x =>
      obtain ⟨key, hkey, rfl⟩ := List.mem_map.mp (List.mem_of_find?_eq_some hfound)
      have hx : prefs.count key = prefs.count top := by
        simpa using List.find?_some hfound
      constructor
      · exact (hkeys key).mp hkey
      · intro pref hpref
        rw [Option.getD_some, hx]
        apply hle _ (List.mem_map_of_mem ((hkeys pref).mpr hpref))

/-! ### What can be used, and what is wanted of the format -/

/-- An encoder provides H264 and H265; the other formats need none. -/
def Machine.HasEncoder (machine : Machine) : CodecFormat → Prop
  | .H264 => machine.h264vram ∨ machine.h264hw
  | .H265 => machine.h265vram ∨ machine.h265hw
  | .VP8 | .VP9 | .AV1 | .Unknown => True

instance (machine : Machine) (format : CodecFormat) : Decidable (machine.HasEncoder format) := by
  cases format <;> unfold Machine.HasEncoder <;> infer_instance

/-- There are peers, all of them report a format, and it can be encoded. -/
def InCommon (machine : Machine) (decodings : PeerDecodings) (format : CodecFormat) : Prop :=
  decodings ≠ [] ∧ Decodable decodings format ∧ machine.HasEncoder format

instance (machine : Machine) (decodings : PeerDecodings) :
    DecidablePred (InCommon machine decodings) :=
  fun format => by
    unfold InCommon Decodable
    infer_instance

/-- A format that is in common can be used, but AV1 only where it is not disabled. -/
def CanUse (machine : Machine) (decodings : PeerDecodings) (format : CodecFormat) : Prop :=
  InCommon machine decodings format ∧ (format = .AV1 → machine.disableAv1 = false)

instance (machine : Machine) (decodings : PeerDecodings) :
    DecidablePred (CanUse machine decodings) :=
  fun format => by
    unfold CanUse
    infer_instance

/-- The format that is preferred. -/
def PreferCodec.format : PreferCodec → Option CodecFormat
  | .Auto => none
  | .VP8 => some .VP8
  | .VP9 => some .VP9
  | .AV1 => some .AV1
  | .H264 => some .H264
  | .H265 => some .H265

/-- The format that is preferred, if the preference is known. -/
def formatOf (pref : EnumOrUnknown PreferCodec) : Option CodecFormat :=
  pref.enumValue.bind PreferCodec.format

section

variable (U : CodecFormat → Prop)

/-- A preference can be met that is for VP9, or for a format of `U`. -/
def Met (pref : EnumOrUnknown PreferCodec) : Prop :=
  ∃ format, formatOf pref = some format ∧ (format = .VP9 ∨ U format)

instance [DecidablePred U] : DecidablePred (Met U) := fun pref =>
  match h : formatOf pref with
  | none => isFalse (by rintro ⟨_, hformat, _⟩; rw [h] at hformat; cases hformat)
  | some format => decidable_of_iff (format = .VP9 ∨ U format) (by simp [Met, h])

/-- How many peers have a preference. -/
def supporters (decodings : PeerDecodings) (pref : EnumOrUnknown PreferCodec) : ℕ :=
  decodings.countP fun peer => peer.2.prefer = pref

variable [DecidablePred U]

/-- The best format of `U`, where AV1 has to have passed its test and VP8 is the best one on a small
machine that encodes in software. -/
def automatic (machine : Machine) : CodecFormat :=
  if U .H265 then .H265
  else if U .H264 then .H264
  else if U .VP8 ∧ machine.smallMemory then .VP8
  else if U .AV1 ∧ machine.av1Test then .AV1
  else .VP9

end

/-- The registered peers, `ENCODE_CODEC_FORMAT` and `USABLE_ENCODING`. -/
structure Negotiated where
  decodings : PeerDecodings := []
  format : CodecFormat := .VP9
  usableEncoding : Option Usable := none
  deriving DecidableEq

/-- A call of `Encoder::update`: what it is called with, what it finds of the machine, and the order
it finds the peers in. -/
structure UpdateCall where
  update : EncodingUpdate
  machine : Machine
  order : PeerDecodings
  deriving DecidableEq

/-- `Encoder::update`. -/
def Negotiated.update (s : Negotiated) (call : UpdateCall) : Option Negotiated :=
  if call.order.Perm (call.update.apply s.decodings) then
    some {
      decodings := call.order
      format := choose call.machine call.order
      usableEncoding := some (usable call.machine call.order) }
  else none

/-- What a call leaves, where the formats of `U` are those that can be used: the format can be used;
where a preference can be met it is one that most peers have, and else the best one; and what can be
used is told. -/
structure Negotiated.Right (s : Negotiated) (machine : Machine) (U : CodecFormat → Prop)
    [DecidablePred U] : Prop where
  format : s.format = .VP9 ∨ U s.format
  majority : (∃ peer ∈ s.decodings, Met U peer.2.prefer) →
    ∃ pref, Met U pref ∧ formatOf pref = some s.format ∧
      ∀ pref', Met U pref' → supporters s.decodings pref' ≤ supporters s.decodings pref
  automatic : (∀ peer ∈ s.decodings, ¬ Met U peer.2.prefer) → s.format = automatic U machine
  usableEncoding : s.usableEncoding = some ⟨U .VP8, U .AV1, U .H264, U .H265⟩

/-! ### What a call leaves -/

section

variable {machine : Machine} {decodings : PeerDecodings}

theorem allSupport_iff (ability : SupportedDecoding → Int) :
  allSupport ability decodings = true ↔ decodings ≠ [] ∧ ∀ peer ∈ decodings, 0 < ability peer.2
  := by
  rw [allSupport, Bool.and_eq_true, List.all_eq_true, decide_eq_true_iff, List.length_pos_iff]
  simp only [decide_eq_true_iff]

/-- What `update` finds can be used. -/
theorem usable_eq (machine : Machine) (decodings : PeerDecodings) :
  usable machine decodings
    = ⟨CanUse machine decodings .VP8, CanUse machine decodings .AV1,
        CanUse machine decodings .H264, CanUse machine decodings .H265⟩
  := by
  have hable (ability : SupportedDecoding → Int) (format : CodecFormat)
      (hformat : ∀ decoding : SupportedDecoding, decoding.Decodes format ↔ 0 < ability decoding) :
      allSupport ability decodings = true ↔ decodings ≠ [] ∧ Decodable decodings format := by
    simp only [allSupport_iff, Decodable, hformat]
  rw [usable, h264Encoding, h265Encoding, Usable.mk.injEq]
  refine ⟨?_, ?_, ?_, ?_⟩ <;> rw [Bool.eq_iff_iff, decide_eq_true_iff, CanUse, InCommon]
  · rw [hable _ .VP8 fun _ => Iff.rfl]
    simp [Machine.HasEncoder]
  · rw [Bool.and_eq_true, hable _ .AV1 fun _ => Iff.rfl]
    simp [Machine.HasEncoder]
  · rw [Bool.and_eq_true, Bool.and_eq_true, hable _ .H264 fun _ => Iff.rfl]
    simp +contextual [Machine.HasEncoder, and_assoc]
  · rw [Bool.and_eq_true, Bool.and_eq_true, hable _ .H265 fun _ => Iff.rfl]
    simp +contextual [Machine.HasEncoder, and_assoc]

/-- An encoder for a format that can be used is found. -/
theorem encoding_of_canUse :
  (CanUse machine decodings .H264 → h264Encoding machine decodings = true) ∧
    (CanUse machine decodings .H265 → h265Encoding machine decodings = true)
  := by
  have husable := usable_eq machine decodings
  rw [usable, Usable.mk.injEq] at husable
  obtain ⟨-, -, hh264, hh265⟩ := husable
  constructor
  · intro h
    exact (Bool.and_eq_true_iff.mp (hh264.trans (decide_eq_true h))).2
  · intro h
    exact (Bool.and_eq_true_iff.mp (hh265.trans (decide_eq_true h))).2

/-- The automatic choice is the best format that can be used. -/
theorem autoCodec_eq (machine : Machine) (decodings : PeerDecodings) :
  autoCodec machine (usable machine decodings) = automatic (CanUse machine decodings) machine
  := by
  rw [usable_eq, autoCodec, automatic]
  by_cases hh265 : CanUse machine decodings .H265
  · simp [hh265]
  · by_cases hh264 : CanUse machine decodings .H264
    · simp [hh265, hh264]
    · by_cases hav1 : CanUse machine decodings .AV1 ∧ machine.av1Test = true
      · simp [hh265, hh264, hav1]
      · simp [hh265, hh264, hav1]

/-- The preferences that are counted are those that can be met. -/
theorem preferences_eq (machine : Machine) (decodings : PeerDecodings) :
  preferences (usable machine decodings) decodings
    = (decodings.map fun peer => peer.2.prefer).filter (Met (CanUse machine decodings))
  := by
  rw [List.filter_map, preferences]
  congr 1
  apply List.filter_congr
  intro peer _
  rw [usable_eq, Function.comp_apply, Bool.eq_iff_iff, decide_eq_true_iff, Met]
  cases peer.2.prefer with
  | unknown value => simp [formatOf, EnumOrUnknown.enumValue]
  | known codec => cases codec <;> simp [formatOf, PreferCodec.format]

/-- A preference that can be met is counted for every peer that has it. -/
theorem count_preferences {pref : EnumOrUnknown PreferCodec}
    (hmet : Met (CanUse machine decodings) pref) :
  (preferences (usable machine decodings) decodings).count pref = supporters decodings pref
  := by
  rw [preferences_eq, List.count_filter, List.count_eq_countP, List.countP_map]
  · rfl
  · apply decide_eq_true hmet

/-- The format of a preference that is counted is chosen. -/
theorem formatOf_mostFrequent {pref : EnumOrUnknown PreferCodec}
    (hpref : mostFrequent (preferences (usable machine decodings) decodings) = pref)
    (hmet : Met (CanUse machine decodings) pref) :
  formatOf pref = some (choose machine decodings)
  := by
  obtain ⟨format, hformat, hcan⟩ := hmet
  rw [choose, hpref]
  cases pref with
  | unknown value => cases hformat
  | known codec =>
      cases codec with
      | Auto => cases hformat
      | VP8 => rfl
      | VP9 => rfl
      | AV1 => rfl
      | H264 =>
          cases hformat
          have hencoding := encoding_of_canUse.1 (hcan.resolve_left (by decide))
          simp [formatOf, PreferCodec.format, hencoding]
      | H265 =>
          cases hformat
          have hencoding := encoding_of_canUse.2 (hcan.resolve_left (by decide))
          simp [formatOf, PreferCodec.format, hencoding]

/-- The best format can be used, or it is VP9. -/
theorem automatic_cases (U : CodecFormat → Prop) [DecidablePred U] (machine : Machine) :
  automatic U machine = .VP9 ∨ U (automatic U machine)
  := by
  rw [automatic]
  split_ifs with hh265 hh264 hvp8 hav1
  · exact .inr hh265
  · exact .inr hh264
  · exact .inr hvp8.1
  · exact .inr hav1.1
  · exact .inl rfl

/-- Where no preference can be met the automatic choice is made. -/
theorem choose_of_forall_not
    (hnone : ∀ peer ∈ decodings, ¬ Met (CanUse machine decodings) peer.2.prefer) :
  choose machine decodings = automatic (CanUse machine decodings) machine
  := by
  have hprefs : preferences (usable machine decodings) decodings = [] := by
    rw [preferences_eq, List.filter_eq_nil_iff]
    intro pref hpref
    obtain ⟨peer, hpeer, rfl⟩ := List.mem_map.mp hpref
    simpa using hnone peer hpeer
  rw [choose, hprefs, ← autoCodec_eq]
  rfl

/-- Where some preference can be met one is chosen that most peers have. -/
theorem choose_of_exists
    (hsome : ∃ peer ∈ decodings, Met (CanUse machine decodings) peer.2.prefer) :
  ∃ pref, Met (CanUse machine decodings) pref ∧ formatOf pref = some (choose machine decodings) ∧
    ∀ pref', Met (CanUse machine decodings) pref' →
      supporters decodings pref' ≤ supporters decodings pref
  := by
  have hprefs : preferences (usable machine decodings) decodings ≠ [] := by
    rw [preferences_eq, Ne, List.filter_eq_nil_iff]
    intro hnone
    obtain ⟨peer, hpeer, hmet⟩ := hsome
    apply hnone _ (List.mem_map_of_mem hpeer) (decide_eq_true hmet)
  obtain ⟨hmem, hmost⟩ := mostFrequent_spec hprefs
  generalize hpref : mostFrequent (preferences (usable machine decodings) decodings) = pref at *
  have hmet : Met (CanUse machine decodings) pref := by
    rw [preferences_eq, List.mem_filter] at hmem
    apply of_decide_eq_true hmem.2
  refine ⟨pref, hmet, formatOf_mostFrequent hpref hmet, ?_⟩
  intro pref' hmet'
  rw [← count_preferences hmet', ← count_preferences hmet]
  by_cases hmem' : pref' ∈ preferences (usable machine decodings) decodings
  · apply hmost pref' hmem'
  · rw [List.count_eq_zero.mpr hmem']
    apply Nat.zero_le _

end

/-- What a call leaves is right, where the formats that can be used are those that all peers report
and that can be encoded, without AV1 where it is disabled. -/
theorem Negotiated.Right.update {s s' : Negotiated} {call : UpdateCall}
    (h : s.update call = some s') :
  s'.Right call.machine (CanUse call.machine s'.decodings)
  := by
  rw [Negotiated.update] at h
  split_ifs at h
  cases h
  constructor
  · change choose _ _ = _ ∨ CanUse _ _ (choose _ _)
    by_cases hsome : ∃ peer ∈ call.order, Met (CanUse call.machine call.order) peer.2.prefer
    · obtain ⟨pref, ⟨format, hformat, hcan⟩, hchosen, -⟩ := choose_of_exists hsome
      rw [hformat, Option.some_inj] at hchosen
      exact hchosen ▸ hcan
    · rw [choose_of_forall_not (by simpa using hsome)]
      apply automatic_cases
  · exact choose_of_exists
  · exact choose_of_forall_not
  · apply congrArg some (usable_eq _ _)

/-! ### The registered peers -/

/-- The peers that are registered after an update, as a map. -/
def EncodingUpdate.register (peers : Int → Option SupportedDecoding) :
    EncodingUpdate → Int → Option SupportedDecoding
  | .update id decoding => Function.update peers id (some decoding)
  | .remove id => Function.update peers id none
  | .newOnlyVP9 id => Function.update peers id (some { abilityVp9 := 1 })
  | .check => peers

/-- The peers that are registered after some updates, the first one first. -/
def registered (updates : List EncodingUpdate) : Int → Option SupportedDecoding :=
  updates.foldl EncodingUpdate.register fun _ => none

/-- The peers of a map are listed, each once. -/
structure Lists (decodings : PeerDecodings) (peers : Int → Option SupportedDecoding) : Prop where
  nodup : (decodings.map Prod.fst).Nodup
  mem_iff : ∀ id decoding, (id, decoding) ∈ decodings ↔ peers id = some decoding

section

variable {decodings : PeerDecodings} {peers : Int → Option SupportedDecoding}

theorem Lists.remove (h : Lists decodings peers) (id : Int) :
  Lists (decodings.filter fun peer => peer.1 ≠ id) (Function.update peers id none)
  := by
  constructor
  · apply h.nodup.sublist (List.filter_sublist.map _)
  · intro id' decoding
    rw [List.mem_filter, h.mem_iff, decide_eq_true_iff, Function.update_apply]
    split_ifs with hid
    · simp [hid]
    · simp [hid]

theorem Lists.insert (h : Lists decodings peers) (id : Int) (decoding : SupportedDecoding) :
  Lists (insertPeer id decoding decodings) (Function.update peers id (some decoding))
  := by
  have hremove := h.remove id
  rw [insertPeer]
  constructor
  · rw [List.map_cons, List.nodup_cons]
    refine ⟨?_, hremove.nodup⟩
    intro hmem
    obtain ⟨peer, hpeer, hid⟩ := List.mem_map.mp hmem
    apply of_decide_eq_true (List.mem_filter.mp hpeer).2 hid
  · intro id' decoding'
    rw [List.mem_cons, hremove.mem_iff, Prod.mk.injEq, Function.update_apply, Function.update_apply]
    split_ifs with hid
    · simp [hid, eq_comm]
    · simp [hid]

/-- An update registers the same peers in the list and in the map. -/
theorem Lists.apply (h : Lists decodings peers) (update : EncodingUpdate) :
  Lists (update.apply decodings) (update.register peers)
  := by
  cases update with
  | update id decoding => exact h.insert id decoding
  | remove id => exact h.remove id
  | newOnlyVP9 id => exact h.insert id _
  | check => exact h

theorem Lists.perm {order : PeerDecodings} (h : Lists decodings peers)
    (hperm : order.Perm decodings) :
  Lists order peers
  := by
  constructor
  · exact (hperm.map _).nodup_iff.mpr h.nodup
  · intro id decoding
    rw [hperm.mem_iff, h.mem_iff]

theorem Lists.update {s s' : Negotiated} {call : UpdateCall} (h : Lists s.decodings peers)
    (hstep : s.update call = some s') :
  Lists s'.decodings (call.update.register peers)
  := by
  rw [Negotiated.update] at hstep
  split_ifs at hstep with hperm
  cases hstep
  exact (h.apply call.update).perm hperm

end

/-- The peers that are registered are those of the calls, in every run. -/
theorem lists_of_run {h : List (Negotiated × UpdateCall)} {s : Negotiated}
    (hrun : Run (fun s call s' => Negotiated.update s call = some s') {} h s) :
  Lists s.decodings (registered (h.map fun x => x.2.update))
  := by
  apply hrun.history_invariant fun h s => Lists s.decodings (registered (h.map fun x => x.2.update))
  · exact ⟨List.nodup_nil, by simp [registered]⟩
  · intro h s call s' _ hlists hstep
    rw [List.map_append, List.map_singleton, registered, List.foldl_append]
    apply hlists.update hstep

/-- After every call of a run the registered peers are those of the calls, and what the call leaves
is right. -/
theorem negotiated_of_run {h : List (Negotiated × UpdateCall)} {s s' : Negotiated}
    {call : UpdateCall}
    (hrun : Run (fun s call s' => Negotiated.update s call = some s') {} h s)
    (hstep : s.update call = some s') :
  Lists s'.decodings (registered ((h.map fun x => x.2.update) ++ [call.update])) ∧
    s'.Right call.machine (CanUse call.machine s'.decodings)
  := by
  constructor
  · rw [registered, List.foldl_append]
    exact (lists_of_run hrun).update hstep
  · exact .update hstep

/-- A peer that can decode all formats but VP8 and prefers AV1. -/
def av1Preferred : SupportedDecoding where
  abilityVp9 := 1
  abilityAv1 := 1
  abilityH264 := 1
  abilityH265 := 1
  prefer := .known .AV1

/-- A peer that can decode the same and prefers H265. -/
def h265Preferred : SupportedDecoding := { av1Preferred with prefer := .known .H265 }

/-- Of three peers that join, two prefer AV1. -/
theorem negotiated_sample :
  ∃ (h : List (Negotiated × UpdateCall)) (s s' : Negotiated) (call : UpdateCall),
    Run (fun s call s' => Negotiated.update s call = some s') {} h s ∧
      s'.decodings.length = 3 ∧ s'.format = .AV1 ∧
      s'.Right call.machine (CanUse call.machine s'.decodings)
  := by
  obtain ⟨h, s, hrun, htest⟩ := Run.exists_of_traceM Negotiated.update {}
    [⟨.update 1 h265Preferred, {}, [(1, h265Preferred)]⟩,
      ⟨.update 2 av1Preferred, {}, [(1, h265Preferred), (2, av1Preferred)]⟩]
    (fun _ s => (s.update ⟨.update 3 av1Preferred, { h265hw := true },
      [(1, h265Preferred), (3, av1Preferred), (2, av1Preferred)]⟩).any fun s' =>
        s'.decodings.length = 3 ∧ s'.format = .AV1)
    (by decide +kernel)
  obtain ⟨s', hstep, hs'⟩ := (Option.any_eq_true _ _).mp htest
  obtain ⟨hlength, hformat⟩ := of_decide_eq_true hs'
  exact ⟨h, s, s', _, hrun, hlength, hformat, (negotiated_of_run hrun hstep).2⟩

/-- On a host of 32 bits the only peer can decode AV1 and prefers it, and VP9 is chosen. -/
theorem not_negotiated :
  ¬ ∀ (h : List (Negotiated × UpdateCall)) (s s' : Negotiated) (call : UpdateCall),
    Run (fun s call s' => Negotiated.update s call = some s') {} h s → s.update call = some s' →
      s'.Right call.machine (InCommon call.machine s'.decodings)
  := by
  intro hall
  have hright := hall [] {} ⟨[(1, av1Preferred)], .VP9, some ⟨false, false, false, false⟩⟩
    ⟨.update 1 av1Preferred, { disableAv1 := true }, [(1, av1Preferred)]⟩ .nil (by decide)
  obtain ⟨pref, -, hformat, hmost⟩ := hright.majority ⟨(1, av1Preferred), by decide, by decide⟩
  have hav1 := hmost (.known .AV1) (by decide)
  cases pref with
  | unknown value => cases hformat
  | known codec =>
      revert hformat hav1
      cases codec <;> decide

end VynxDesk.Codec
