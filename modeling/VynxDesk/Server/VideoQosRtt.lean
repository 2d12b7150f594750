import Mathlib.Algebra.Order.Floor.Semifield
import Mathlib.Tactic.NormNum
import VynxDesk.Server.VideoQosRun

/-!
# The estimate of the round trip

`RttCalculator` keeps a window of samples and some minima up to date.  Its state after any delays
is what these delays say at once (`foldl_update`), so that its estimate lies between the least
delay of all and the least one of the window (`getRtt_mem_of_delays`).
-/

namespace VynxDesk.VideoQos

open Significand Window

/-- The least delay with one more. -/
theorem lowered_min? (delays : List ℕ) (delay : ℕ) :
  lowered delays.min? delay = (delays ++ [delay]).min?
  := by
  symm
  cases hmin : delays.min? with
  | none => rw [lowered, List.min?_eq_none_iff.mp hmin, List.nil_append, List.min?_singleton]
  | some m =>
      obtain ⟨hmem, hle⟩ := List.min?_eq_some_iff.mp hmin
      rw [lowered]
      split_ifs with hlt
      · rw [List.min?_eq_some_iff]
        simp only [List.mem_append, List.mem_singleton]
        refine ⟨.inr trivial, ?_⟩
        rintro x (hx | rfl)
        · exact hlt.le.trans (hle x hx)
        · exact le_refl x
      · rw [List.min?_eq_some_iff]
        simp only [List.mem_append, List.mem_singleton]
        refine ⟨.inl hmem, ?_⟩
        rintro x (hx | rfl)
        · exact hle x hx
        · exact Nat.le_of_not_lt hlt

/-- What `RttCalculator` should hold after `delays`, computed from all of them. -/
def rttOf (delays : List ℕ) : RttCalculator where
  minRtt := delays.min?
  windowMinRtt := (delays.rtake WINDOW_SAMPLES).min?
  smoothedRtt :=
    if WINDOW_SAMPLES ≤ delays.length then
      match delays.min?, (delays.rtake WINDOW_SAMPLES).min? with
      | some min, some windowMin => some (weightedAverage min windowMin)
      | _, _ => none
    else none
  samples := delays.rtake WINDOW_SAMPLES

theorem min?_of_pos {delays : List ℕ} (h : 0 < delays.length) :
  ∃ m, delays.min? = some m
  := Option.isSome_iff_exists.mp (List.isSome_min?_of_ne_nil (List.ne_nil_of_length_pos h))

theorem update_rttOf (delays : List ℕ) (delay : ℕ) :
  (rttOf delays).update delay = rttOf (delays ++ [delay])
  := by
  have hlength := length_rtake WINDOW_SAMPLES (delays ++ [delay])
  have hpos : 0 < (delays ++ [delay]).length := by simp
  obtain ⟨m, hm⟩ := min?_of_pos hpos
  have hwindow : 0 < ((delays ++ [delay]).rtake WINDOW_SAMPLES).length := by
    rw [hlength, List.length_append, List.length_singleton, WINDOW_SAMPLES]
    omega
  obtain ⟨w, hw⟩ := min?_of_pos hwindow
  have hsamples : pushBack (WINDOW_SAMPLES ≤ (rttOf delays).samples.length)
      (rttOf delays).samples delay = (delays ++ [delay]).rtake WINDOW_SAMPLES :=
    pushBack_rtake (by decide) delays delay
  have hlowered : lowered (rttOf delays).minRtt delay = (delays ++ [delay]).min? :=
    lowered_min? delays delay
  rw [RttCalculator.update, hsamples, hlowered, rttOf, rttOf]
  dsimp only
  rw [hm, hw, hlength, List.length_append, List.length_singleton]
  congr 1
  split_ifs <;> first | rfl | omega

/-- The state of `RttCalculator` is what its delays say. -/
theorem foldl_update (delays : List ℕ) :
  delays.foldl RttCalculator.update {} = rttOf delays
  := by
  induction delays using List.reverseRecOn with
  | nil => rfl
  | append_singleton delays delay ih =>
      rw [List.foldl_append, ih]
      exact update_rttOf delays delay

/-! ### The estimate -/

theorem f32_natCast_div_two {n : ℕ} (hn : n ≤ 2 ^ 24) :
  f32 ((n : ℚ) / 2) = (n : ℚ) / 2
  := by
  apply roundSig_of_le (n := n) (e := -1) (by decide) hn
  rw [zpow_neg_one, div_eq_mul_inv]

/-- The weighted average is exact below `2 ^ 23`. -/
theorem weightedAverage_eq {m w : ℕ} (hm : m ≤ 2 ^ 23) (hw : w ≤ 2 ^ 23) :
  weightedAverage m w = (m + w) / 2
  := by
  have hALPHA : ALPHA = 1 / 2 := by
    have h := f32_natCast_div_two (n := 1) (by decide)
    rw [ALPHA]
    norm_num at h ⊢
    exact h
  have hrest : f32 (1 - ALPHA) = 1 / 2 := by
    have h := f32_natCast_div_two (n := 1) (by decide)
    rw [hALPHA]
    norm_num at h ⊢
    exact h
  have hhalf : ∀ n : ℕ, n ≤ 2 ^ 23 → f32 (1 / 2 * f32 n) = (n : ℚ) / 2 := by
    intro n hn
    rw [f32_natCast (by omega), one_div, mul_comm, ← div_eq_mul_inv]
    apply f32_natCast_div_two
    omega
  have hsum : (m : ℚ) / 2 + w / 2 = ((m + w : ℕ) : ℚ) / 2 := by
    push_cast
    ring
  rw [weightedAverage, hrest, hALPHA, hhalf m hm, hhalf w hw, hsum, f32_natCast_div_two (by omega)]
  exact_mod_cast Nat.floor_div_eq_div (K := ℚ) (m + w) 2

/-- With ten to fifty-nine delays the estimate is the least of them. -/
theorem getRtt_of_few {delays : List ℕ} (hfew : delays.length < WINDOW_SAMPLES) :
  (rttOf delays).getRtt = if MIN_SAMPLES ≤ delays.length then delays.min? else none
  := by
  have hlength : (rttOf delays).samples.length = delays.length := by
    rw [rttOf, length_rtake]
    omega
  have hsmoothed : (rttOf delays).smoothedRtt = none := if_neg (Nat.not_le_of_gt hfew)
  rw [RttCalculator.getRtt, hsmoothed, hlength]
  rfl

/-- With more of them it is the weighted average of two minima. -/
theorem getRtt_of_many {delays : List ℕ} (hmany : WINDOW_SAMPLES ≤ delays.length) {m w : ℕ}
    (hm : delays.min? = some m) (hw : (delays.rtake WINDOW_SAMPLES).min? = some w) :
  (rttOf delays).getRtt = some (weightedAverage m w)
  := by
  have hsmoothed : (rttOf delays).smoothedRtt = some (weightedAverage m w) := by
    rw [rttOf, if_pos hmany, hm, hw]
  rw [RttCalculator.getRtt, hsmoothed]

/-- From the tenth delay on there is an estimate, and it is between the least delay of all and the
least one of the last sixty. -/
theorem getRtt_mem_of_delays {delays : List ℕ} (hdelays : ∀ delay ∈ delays, delay ≤ 2 ^ 23) :
  ((delays.foldl RttCalculator.update {}).getRtt = none ↔ delays.length < 10) ∧
    ∀ rtt, (delays.foldl RttCalculator.update {}).getRtt = some rtt →
      (∃ delay ∈ delays, delay ≤ rtt) ∧ ∀ delay ∈ delays.rtake 60, rtt ≤ delay
  := by
  rw [foldl_update]
  have hsub : ∀ delay ∈ delays.rtake 60, delay ∈ delays := fun _ => List.mem_of_mem_drop
  rcases Nat.lt_or_ge delays.length WINDOW_SAMPLES with hfew | hmany
  · rw [getRtt_of_few hfew]
    split_ifs with hten
    · have hpos : 0 < delays.length := Nat.lt_of_lt_of_le (by decide) hten
      obtain ⟨m, hm⟩ := min?_of_pos hpos
      obtain ⟨hmem, hle⟩ := List.min?_eq_some_iff.mp hm
      rw [hm]
      refine ⟨⟨fun hnone => ?_, fun hlt => absurd hten (Nat.not_le_of_gt hlt)⟩, ?_⟩
      · cases hnone
      rintro rtt hrtt
      obtain rfl := Option.some.inj hrtt
      exact ⟨⟨m, hmem, le_refl m⟩, fun delay hdelay => hle delay (hsub delay hdelay)⟩
    · refine ⟨⟨fun _ => Nat.lt_of_not_le hten, fun _ => rfl⟩, ?_⟩
      rintro rtt hrtt
      cases hrtt
  · have hlength : (delays.rtake WINDOW_SAMPLES).length = WINDOW_SAMPLES := by
      rw [length_rtake, Nat.min_eq_left hmany]
    have hpos : 0 < delays.length := Nat.lt_of_lt_of_le (by decide) hmany
    obtain ⟨m, hm⟩ := min?_of_pos hpos
    have hwindow : 0 < (delays.rtake WINDOW_SAMPLES).length := by
      rw [hlength]
      decide
    obtain ⟨w, hw⟩ := min?_of_pos hwindow
    obtain ⟨hmem, hle⟩ := List.min?_eq_some_iff.mp hm
    obtain ⟨hmem', hle'⟩ := List.min?_eq_some_iff.mp hw
    have hmw : m ≤ w := hle w (hsub w hmem')
    rw [getRtt_of_many hmany hm hw,
      weightedAverage_eq (hdelays m hmem) (hdelays w (hsub w hmem'))]
    refine ⟨⟨fun hnone => ?_, fun hlt => absurd (hmany.trans_lt hlt) (by decide)⟩, ?_⟩
    · cases hnone
    rintro rtt hrtt
    obtain rfl := Option.some.inj hrtt
    constructor
    · exact ⟨m, hmem, by omega⟩
    · intro delay hdelay
      have hw' := hle' delay hdelay
      omega

theorem getRtt_mem_of_delays_sample :
  ∃ rtt, ((90 :: List.replicate 60 35).foldl RttCalculator.update {}).getRtt = some rtt ∧ rtt ≤ 35
  := by
  have hdelays : ∀ delay ∈ 90 :: List.replicate 60 35, delay ≤ 2 ^ 23 := by
    decide +kernel
  obtain ⟨hnone, hmem⟩ := getRtt_mem_of_delays hdelays
  have hten : ¬(90 :: List.replicate 60 35).length < 10 := by
    decide
  obtain ⟨rtt, hrtt⟩ := Option.ne_none_iff_exists'.mp (mt hnone.mp hten)
  have hwindow : 35 ∈ (90 :: List.replicate 60 35).rtake 60 := by
    decide +kernel
  exact ⟨rtt, hrtt, (hmem rtt hrtt).2 35 hwindow⟩

end VynxDesk.VideoQos
