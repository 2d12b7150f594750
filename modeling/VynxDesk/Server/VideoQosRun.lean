import Mathlib.Tactic.NormNum
import VynxDesk.Server.VideoQos

/-!
# What the quality control keeps

In every run of calls the frame rate and the ratio stay in their ranges, so that the fallbacks of
`fps` and `ratio` are never taken and no bounds of a `clamp` are out of order
(`controlled_of_run`).
-/

namespace VynxDesk.VideoQos

open Significand Window

/-! ### The constants -/

theorem f32_mono {x y : ℚ} (hx : 0 ≤ x) (hxy : x ≤ y) :
  f32 x ≤ f32 y
  := roundSig_mono (by decide) hx hxy

theorem f32_nonneg {x : ℚ} (hx : 0 ≤ x) :
  0 ≤ f32 x
  := roundSig_nonneg hx

/-- A value of type `f32`. -/
def IsF32 (x : ℚ) : Prop :=
  f32 x = x

theorem isF32_f32 {x : ℚ} (hx : 0 ≤ x) :
  IsF32 (f32 x)
  := roundSig_roundSig (by decide) hx

theorem IsF32.max {x y : ℚ} (hx : IsF32 x) (hy : IsF32 y) :
  IsF32 (max x y)
  := by
  rcases max_choice x y with h | h <;> rwa [h]

theorem IsF32.min {x y : ℚ} (hx : IsF32 x) (hy : IsF32 y) :
  IsF32 (min x y)
  := by
  rcases min_choice x y with h | h <;> rwa [h]

theorem f32_natCast {n : ℕ} (hn : n ≤ 2 ^ 24) :
  f32 n = n
  := roundSig_natCast (by decide) hn

theorem BR_MIN_HIGH_RESOLUTION_le_BR_MIN :
  BR_MIN_HIGH_RESOLUTION ≤ BR_MIN
  := f32_mono (by norm_num) (by norm_num)

theorem BR_MIN_le_BR_SPEED :
  BR_MIN ≤ BR_SPEED
  := f32_mono (by norm_num) (by norm_num)

theorem BR_SPEED_le_BR_BALANCED :
  BR_SPEED ≤ BR_BALANCED
  := f32_mono (by norm_num) (by norm_num)

theorem BR_BALANCED_le_BR_BEST :
  BR_BALANCED ≤ BR_BEST
  := f32_mono (by norm_num) (by norm_num)

theorem BR_BEST_le_BR_MAX :
  BR_BEST ≤ BR_MAX
  := f32_mono (by norm_num) (by norm_num)

theorem mul_MAX_BR_MULTIPLE (x : ℚ) :
  x * MAX_BR_MULTIPLE = x
  := by
  have hone : MAX_BR_MULTIPLE = 1 := by
    rw [MAX_BR_MULTIPLE, ← Nat.cast_one, f32_natCast (by decide)]
  rw [hone, mul_one]

/-! ### The ratio -/

/-- The ratio is of type `f32` and one that a viewer can ask for. -/
structure Quality.Valid (quality : Quality) : Prop where
  le : BR_MIN ≤ quality.ratio
  ge : quality.ratio ≤ BR_MAX
  isF32 : IsF32 quality.ratio

theorem Quality.valid_best :
  Quality.best.Valid where
  le := BR_MIN_le_BR_SPEED.trans (BR_SPEED_le_BR_BALANCED.trans BR_BALANCED_le_BR_BEST)
  ge := BR_BEST_le_BR_MAX
  isF32 := isF32_f32 (by norm_num)

theorem Quality.valid_balanced :
  Quality.balanced.Valid where
  le := BR_MIN_le_BR_SPEED.trans BR_SPEED_le_BR_BALANCED
  ge := BR_BALANCED_le_BR_BEST.trans BR_BEST_le_BR_MAX
  isF32 := isF32_f32 (by norm_num)

theorem Quality.valid_low :
  Quality.low.Valid where
  le := BR_MIN_le_BR_SPEED
  ge := BR_SPEED_le_BR_BALANCED.trans (BR_BALANCED_le_BR_BEST.trans BR_BEST_le_BR_MAX)
  isF32 := isF32_f32 (by norm_num)

theorem convertQuality_valid (values : ImageQuality) (imageQuality : ℤ) :
  (convertQuality values imageQuality).Valid
  := by
  rw [convertQuality]
  split_ifs
  · exact Quality.valid_balanced
  · exact Quality.valid_low
  · exact Quality.valid_best
  · have hlimits : BR_MIN ≤ BR_MAX := Quality.valid_low.le.trans Quality.valid_low.ge
    refine ⟨le_max_left _ _, max_le hlimits (min_le_right _ _), ?_⟩
    apply IsF32.max (isF32_f32 (by norm_num))
    apply IsF32.min _ (isF32_f32 (by norm_num))
    apply isF32_f32
    apply div_nonneg _ (f32_nonneg (by norm_num))
    apply f32_nonneg
    rw [Int.cast_nonneg_iff]
    omega

/-- The bounds of `adjust_ratio` are in order, and its least ratio is in the range. -/
theorem minRatio_le {quality : Quality} (hquality : quality.Valid) (ratio1mbps : Option ℚ) :
  minRatio quality ratio1mbps ≤ quality.ratio
  := by
  have hlow := BR_MIN_HIGH_RESOLUTION_le_BR_MIN.trans hquality.le
  cases quality with
  | best =>
      apply max_le _ hquality.le
      have hbound : f32 (BR_BEST / f32 2.5) ≤ BR_BEST := by
        decide +kernel
      cases ratio1mbps with
      | none => exact hbound
      | some ratio =>
          change (if ratio < _ then ratio else _) ≤ _
          split_ifs with hlt
          · exact hlt.le.trans hbound
          · exact hbound
  | balanced =>
      apply max_le _ hlow
      have hbound : min (f32 (BR_BALANCED / f32 2)) (f32 0.4) ≤ BR_BALANCED := by
        decide +kernel
      cases ratio1mbps with
      | none => exact hbound
      | some ratio =>
          change (if ratio < _ then ratio else _) ≤ _
          split_ifs with hlt
          · exact hlt.le.trans hbound
          · exact hbound
  | low => exact hlow
  | custom v => exact hlow

theorem le_minRatio (quality : Quality) (ratio1mbps : Option ℚ) :
  BR_MIN_HIGH_RESOLUTION ≤ minRatio quality ratio1mbps
  := by
  cases quality with
  | best => exact BR_MIN_HIGH_RESOLUTION_le_BR_MIN.trans (le_max_right _ _)
  | balanced => exact le_max_right _ _
  | low => exact le_refl _
  | custom v => exact le_refl _

theorem mem_of_latest {qualities : List (ℤ × Quality)} {x : ℤ × Quality}
    (h : latest qualities = some x) :
  x ∈ qualities
  := by
  cases qualities with
  | nil => simp [latest] at h
  | cons first rest =>
      obtain rfl := Option.some.inj h
      clear h
      induction rest generalizing first with
      | nil => exact List.mem_singleton_self first
      | cons second rest ih =>
          rw [List.foldl_cons]
          split_ifs
          · have hmem := ih first
            rw [List.mem_cons] at hmem ⊢
            exact hmem.imp_right (List.mem_cons_of_mem second)
          · apply List.mem_cons_of_mem first (ih second)

/-! ### The frame rate -/

theorem clamp_eq {α : Type*} [LinearOrder α] {x low high : α} (h : low ≤ high) :
  clamp x low high = some (max low (min x high))
  := if_pos h

variable {q q' : VideoQoS} {b : Build} {now : ℕ} {id : ℤ} {u : UserData}

theorem MIN_FPS_le_highestFps (q : VideoQoS) :
  MIN_FPS ≤ q.highestFps
  := le_max_left _ _

theorem highestFps_le_MAX_FPS (q : VideoQoS) :
  q.highestFps ≤ MAX_FPS
  := max_le (by decide) (min_le_right _ _)

/-- `adjust_fps` sets the frame rate and nothing else. -/
theorem adjustFps_eq (q : VideoQoS) (now : ℕ) :
  q.adjustFps now =
    some { q with fps := max MIN_FPS (min (q.wantedFps now) q.highestFps) }
  := by
  rw [VideoQoS.adjustFps, clamp_eq (MIN_FPS_le_highestFps q)]
  rfl

/-- What is stored of the delays of a viewer is bounded, and so are its counts and its rate. -/
structure UserDelay.Valid (d : UserDelay) : Prop where
  delayHistory : d.delayHistory.length ≤ HISTORY_DELAY_LEN + 1
  samples : d.rttCalculator.samples.length ≤ WINDOW_SAMPLES
  fps : ∀ fps ∈ d.fps, MIN_FPS ≤ fps ∧ fps ≤ MAX_FPS
  quickIncreaseFpsCount : d.quickIncreaseFpsCount < 3
  increaseFpsCount : d.increaseFpsCount < 3

theorem UserDelay.valid_default :
  UserDelay.Valid {} where
  delayHistory := by decide
  samples := by decide
  fps := by simp
  quickIncreaseFpsCount := by decide
  increaseFpsCount := by decide

theorem UserDelay.Valid.addDelay {d : UserDelay} (h : d.Valid) (delay : ℕ) :
  (d.addDelay delay).Valid
  := by
  refine ⟨?_, ?_, h.fps, h.quickIncreaseFpsCount, h.increaseFpsCount⟩
  · apply length_pushBack (by decide) _ h.delayHistory
    intro heq
    rw [heq]
    rfl
  · apply length_pushBack (by decide) _ h.samples
    intro heq
    rw [heq]
    rfl

theorem adaptFps_quick {minFps normalFps oldAvgDelay avgDelay fps quick : ℕ} (h : quick < 3) :
  (adaptFps minFps normalFps oldAvgDelay avgDelay fps quick).2 < 3
  := by
  rw [adaptFps]
  dsimp only
  split_ifs <;> first | exact h | (dsimp only; omega)

theorem UserDelay.Valid.report {d : UserDelay} (h : d.Valid) {highestFps : ℕ}
    (hlow : MIN_FPS ≤ highestFps) (hhigh : highestFps ≤ MAX_FPS) (minFps normalFps fps delay : ℕ) :
  ∃ d', d.report highestFps minFps normalFps fps delay = some d' ∧ d'.Valid
  := by
  have hadd := h.addDelay (max delay 10)
  rw [UserDelay.report, clamp_eq hlow]
  refine ⟨_, rfl, hadd.delayHistory, hadd.samples, ?_, ?_, ?_⟩
  · rintro fps' hfps'
    obtain rfl := Option.some.inj hfps'
    exact ⟨le_max_left _ _, max_le (by decide) ((min_le_right _ _).trans hhigh)⟩
  · change (if 50 < _ then 0 else _) < 3
    split_ifs
    · decide
    · exact adaptFps_quick h.quickIncreaseFpsCount
  · have hcount := hadd.increaseFpsCount
    dsimp only
    split_ifs <;> omega

/-! ### The state -/

/-- What is stored of a viewer was checked. -/
structure UserData.Valid (u : UserData) : Prop where
  autoAdjustFps : ∀ fps ∈ u.autoAdjustFps, MIN_FPS ≤ fps ∧ fps ≤ MAX_FPS
  customFps : ∀ fps ∈ u.customFps, MIN_FPS ≤ fps ∧ fps ≤ MAX_FPS
  quality : ∀ x ∈ u.quality, x.2.Valid
  delay : u.delay.Valid

theorem UserData.valid_default :
  UserData.Valid {} where
  autoAdjustFps := by simp
  customFps := by simp
  quality := by simp
  delay := UserDelay.valid_default

/-- The frame rate and the ratio are in their ranges, and what is stored of the viewers is valid. -/
structure VideoQoS.Valid (q : VideoQoS) : Prop where
  fps : MIN_FPS ≤ q.fps ∧ q.fps ≤ MAX_FPS
  ratio : BR_MIN_HIGH_RESOLUTION ≤ q.ratio ∧ q.ratio ≤ BR_MAX
  keys : Entries.Keyed q.users
  users : ∀ id u, (id, u) ∈ q.users → u.Valid

theorem VideoQoS.valid_default (now : ℕ) :
  (VideoQoS.default now).Valid where
  fps := ⟨show 1 ≤ 30 by decide, show 30 ≤ 120 by decide⟩
  ratio :=
    ⟨BR_MIN_HIGH_RESOLUTION_le_BR_MIN.trans Quality.valid_balanced.le, Quality.valid_balanced.ge⟩
  keys := List.nodup_nil
  users := by simp [VideoQoS.default]

theorem VideoQoS.Valid.reorder (h : q.Valid) {users : List (ℤ × UserData)}
    (hperm : users.Perm q.users) :
  (q.reorder users).Valid where
  fps := h.fps
  ratio := h.ratio
  keys := h.keys.perm hperm
  users id u hu := h.users id u (hperm.mem_iff.mp hu)

theorem VideoQoS.Valid.withFps (h : q.Valid) {fps : ℕ} (hfps : MIN_FPS ≤ fps ∧ fps ≤ MAX_FPS) :
  { q with fps }.Valid where
  fps := hfps
  ratio := h.ratio
  keys := h.keys
  users := h.users

theorem VideoQoS.Valid.withRatio (h : q.Valid) {ratio : ℚ}
    (hratio : BR_MIN_HIGH_RESOLUTION ≤ ratio ∧ ratio ≤ BR_MAX) (adjustRatioInstant : ℕ) :
  { q with ratio, adjustRatioInstant }.Valid where
  fps := h.fps
  ratio := hratio
  keys := h.keys
  users := h.users

theorem VideoQoS.Valid.withDisplays (h : q.Valid) (displays : List (String × DisplayData)) :
  { q with displays }.Valid where
  fps := h.fps
  ratio := h.ratio
  keys := h.keys
  users := h.users

/-- A change of one viewer that keeps what is stored of it valid. -/
theorem VideoQoS.Valid.modify (h : q.Valid) (id : ℤ) {f : UserData → UserData}
    (hf : ∀ u, u.Valid → (f u).Valid) :
  { q with users := Entries.modify id f q.users }.Valid where
  fps := h.fps
  ratio := h.ratio
  keys := h.keys.modify id f
  users id' u hu := by
    rcases Entries.mem_modify.mp hu with ⟨hu, -⟩ | ⟨v, hv, heq⟩
    · exact h.users id' u hu
    · obtain ⟨rfl, rfl⟩ := Prod.mk.inj heq
      apply hf
      exact h.users id' v hv

theorem VideoQoS.Valid.latestQuality (h : q.Valid) :
  q.latestQuality.Valid
  := by
  rw [VideoQoS.latestQuality]
  cases hlatest : latest (q.users.filterMap fun u => u.2.quality) with
  | none => exact Quality.valid_balanced
  | some x =>
      obtain ⟨⟨id, u⟩, hu, hx⟩ := List.mem_filterMap.mp (mem_of_latest hlatest)
      apply (h.users id u hu).quality x hx

/-- What a viewer asks for is in the range of the ratio. -/
theorem Quality.Valid.range {quality : Quality} (h : quality.Valid) :
  BR_MIN_HIGH_RESOLUTION ≤ quality.ratio ∧ quality.ratio ≤ BR_MAX
  := ⟨BR_MIN_HIGH_RESOLUTION_le_BR_MIN.trans h.le, h.ge⟩

/-- `adjust_fps` leaves a frame rate that nobody has forbidden. -/
theorem VideoQoS.Valid.adjustFps (h : q.Valid) (now : ℕ) :
  ∃ q', q.adjustFps now = some q' ∧ q'.Valid
  := by
  rw [adjustFps_eq]
  refine ⟨_, rfl, h.withFps ⟨le_max_left _ _, ?_⟩⟩
  apply max_le (by decide)
  exact (min_le_right _ _).trans (highestFps_le_MAX_FPS q)

theorem VideoQoS.Valid.of_adjustFps (h : q.Valid) (hadjust : q.adjustFps now = some q') :
  q'.Valid
  := by
  obtain ⟨q₁, hadjust', hq₁⟩ := h.adjustFps now
  rw [hadjust] at hadjust'
  rwa [Option.some.inj hadjust']

/-- `adjust_ratio` sets the ratio and the time of the adjustment, if anything. -/
theorem VideoQoS.Valid.adjustRatio (h : q.Valid) (now : ℕ) (dynamicScreen : Bool) :
  ∃ ratio time, q.adjustRatio now dynamicScreen =
      some { q with ratio, adjustRatioInstant := time } ∧
    BR_MIN_HIGH_RESOLUTION ≤ ratio ∧ ratio ≤ BR_MAX
  := by
  rw [VideoQoS.adjustRatio]
  split_ifs
  · cases (q.users.map fun u => u.2.delay.avgDelay).max? with
    | none => exact ⟨q.ratio, q.adjustRatioInstant, rfl, h.ratio⟩
    | some maxDelay =>
        have hquality := h.latestQuality
        have hmax : f32 (q.latestQuality.ratio * MAX_BR_MULTIPLE) = q.latestQuality.ratio := by
          rw [mul_MAX_BR_MULTIPLE, hquality.isF32]
        dsimp only
        rw [hmax, clamp_eq (minRatio_le hquality _)]
        refine ⟨_, now, rfl, ?_, ?_⟩
        · exact (le_minRatio _ _).trans (le_max_left _ _)
        · apply (max_le (minRatio_le hquality _) (min_le_right _ _)).trans hquality.ge
  · exact ⟨q.ratio, q.adjustRatioInstant, rfl, h.ratio⟩

theorem VideoQoS.Valid.getRatio (h : q.Valid) :
  q.getRatio = q
  := by
  apply if_neg
  rintro (hlt | hlt)
  · exact not_lt_of_ge h.ratio.1 hlt
  · exact not_lt_of_ge h.ratio.2 hlt

/-- No call panics, and each keeps the ranges. -/
theorem VideoQoS.Valid.call (h : q.Valid) (b : Build) (now : ℕ) (c : Call) :
  ∃ q', q.call b now c = some q' ∧ q'.Valid
  := by
  cases c with
  | onConnectionOpen id enableAbr =>
      refine ⟨_, rfl, h.fps, h.ratio, h.keys.insert id {}, ?_⟩
      intro id' u hu
      rcases Entries.mem_insert.mp hu with heq | ⟨hu, -⟩
      · obtain ⟨-, rfl⟩ := Prod.mk.inj heq
        exact UserData.valid_default
      · exact h.users id' u hu
  | onConnectionClose id =>
      refine ⟨_, rfl, ?_⟩
      rw [VideoQoS.onConnectionClose]
      split_ifs
      · exact VideoQoS.valid_default now
      · refine ⟨h.fps, h.ratio, h.keys.remove id, ?_⟩
        intro id' u hu
        apply h.users id' u (Entries.mem_remove.mp hu).1
  | userCustomFps id fps =>
      refine ⟨_, rfl, ?_⟩
      rw [VideoQoS.userCustomFps]
      split_ifs with hfps
      · exact h
      · apply h.modify id
        intro u hu
        refine ⟨hu.autoAdjustFps, ?_, hu.quality, hu.delay⟩
        rintro fps' hfps'
        obtain rfl := Option.some.inj hfps'
        omega
  | userAutoAdjustFps id fps =>
      refine ⟨_, rfl, ?_⟩
      rw [VideoQoS.userAutoAdjustFps]
      split_ifs with hfps
      · exact h
      · apply h.modify id
        intro u hu
        refine ⟨?_, hu.customFps, hu.quality, hu.delay⟩
        rintro fps' hfps'
        obtain rfl := Option.some.inj hfps'
        omega
  | userImageQuality id imageQuality time =>
      refine ⟨_, rfl, ?_⟩
      rw [VideoQoS.userImageQuality]
      split_ifs
      · have hmodify : VideoQoS.Valid _ := h.modify id
          (f := fun u => { u with
            quality := some (time, convertQuality b.imageQuality imageQuality) }) (by
          intro u hu
          refine ⟨hu.autoAdjustFps, hu.customFps, ?_, hu.delay⟩
          rintro x hx
          obtain rfl := Option.some.inj hx
          apply convertQuality_valid)
        exact hmodify.withRatio hmodify.latestQuality.range _
      · exact h
  | userRecord id v =>
      refine ⟨_, rfl, ?_⟩
      apply h.modify id
      intro u hu
      exact ⟨hu.autoAdjustFps, hu.customFps, hu.quality, hu.delay⟩
  | userNetworkDelay id delay =>
      change ∃ q', q.userNetworkDelay b.linux now id delay = some q' ∧ _
      rw [VideoQoS.userNetworkDelay]
      cases hlookup : q.users.lookup id with
      | none => exact h.adjustFps now
      | some user =>
          have huser := (h.users id user (Entries.mem_of_lookup hlookup)).delay
          obtain ⟨d, hreport, hd⟩ := huser.report (MIN_FPS_le_highestFps q)
            (highestFps_le_MAX_FPS q) q.delayFps.1 q.delayFps.2 q.fps delay
          have hmodify := h.modify id (f := fun u => { u with delay := d }) (by
            intro u hu
            exact ⟨hu.autoAdjustFps, hu.customFps, hu.quality, hd⟩)
          obtain ⟨q₁, hadjust, hq₁⟩ := hmodify.adjustFps now
          dsimp only
          rw [hreport, Option.bind_some, hadjust, Option.bind_some]
          split_ifs
          · obtain ⟨ratio, time, hratio, hrange⟩ := hq₁.adjustRatio now false
            exact ⟨_, hratio, hq₁.withRatio hrange time⟩
          · exact ⟨q₁, rfl, hq₁⟩
  | userDelayResponseElapsed id elapsed =>
      change ∃ q', q.userDelayResponseElapsed now id elapsed = some q' ∧ _
      rw [VideoQoS.userDelayResponseElapsed]
      split_ifs
      · apply VideoQoS.Valid.adjustFps
        apply h.modify id
        intro u hu
        refine ⟨hu.autoAdjustFps, hu.customFps, hu.quality, ?_⟩
        apply UserDelay.Valid.addDelay
        exact ⟨hu.delay.delayHistory, hu.delay.samples, hu.delay.fps,
          hu.delay.quickIncreaseFpsCount, hu.delay.increaseFpsCount⟩
      · refine ⟨_, rfl, ?_⟩
        apply h.modify id
        intro u hu
        refine ⟨hu.autoAdjustFps, hu.customFps, hu.quality, ?_⟩
        exact ⟨hu.delay.delayHistory, hu.delay.samples, hu.delay.fps,
          hu.delay.quickIncreaseFpsCount, hu.delay.increaseFpsCount⟩
      · exact ⟨q, rfl, h⟩
  | ratio =>
      refine ⟨_, rfl, ?_⟩
      rwa [h.getRatio]
  | storeBitrate bitrate => exact ⟨_, rfl, h.fps, h.ratio, h.keys, h.users⟩
  | setSupportChangingQuality name support => exact ⟨_, rfl, h.fps, h.ratio, h.keys, h.users⟩
  | newDisplay name => exact ⟨_, rfl, h.fps, h.ratio, h.keys, h.users⟩
  | removeDisplay name => exact ⟨_, rfl, h.fps, h.ratio, h.keys, h.users⟩
  | updateDisplayData name sendCounter =>
      change ∃ q', q.updateDisplayData now name sendCounter = some q' ∧ _
      rw [VideoQoS.updateDisplayData]
      obtain ⟨q₁, hadjust, hq₁⟩ := (h.withDisplays (Entries.modify name (fun d =>
        { d with sendCounter := d.sendCounter + sendCounter }) q.displays)).adjustFps now
      dsimp only
      rw [hadjust, Option.bind_some]
      split_ifs
      · obtain ⟨ratio, time, hratio, hrange⟩ := (hq₁.withDisplays (q₁.displays.map
          fun (d : String × DisplayData) => (d.1, { d.2 with sendCounter := 0 }))).adjustRatio
            now (q₁.displays.any fun d =>
              ADJUST_RATIO_INTERVAL * DYNAMIC_SCREEN_THRESHOLD ≤ d.2.sendCounter)
        exact ⟨_, hratio, (hq₁.withDisplays _).withRatio hrange time⟩
      · exact ⟨q₁, rfl, hq₁⟩
      · exact ⟨_, rfl, hq₁.withRatio hq₁.latestQuality.range q₁.adjustRatioInstant⟩

theorem VideoQoS.Valid.of_call (h : q.Valid) {c : Call} (hcall : q.call b now c = some q') :
  q'.Valid
  := by
  obtain ⟨q₁, hcall', hq₁⟩ := h.call b now c
  rw [hcall] at hcall'
  rwa [Option.some.inj hcall']

/-- Every state of a run is valid. -/
theorem valid_of_run {start : ℕ} {h : List (VideoQoS × ℕ × Call)}
    (hrun : Run (Step b) (VideoQoS.default start) h q) :
  q.Valid
  := by
  apply hrun.invariant VideoQoS.Valid (VideoQoS.valid_default start)
  rintro q₀ ⟨now, c⟩ q₁ hq₀ ⟨users, hperm, hcall⟩
  exact (hq₀.reorder hperm).of_call hcall

/-- In every run no call panics, the fallbacks of `fps` and `ratio` are never taken, and what is
stored of each viewer stays bounded. -/
theorem controlled_of_run {start : ℕ} {h : List (VideoQoS × ℕ × Call)}
    (hrun : Run (Step b) (VideoQoS.default start) h q) :
  (∀ now c users, users.Perm q.users → ((q.reorder users).call b now c).isSome) ∧
    q.getFps = q.fps ∧ q.getRatio = q ∧
    ∀ id u, (id, u) ∈ q.users → u.delay.delayHistory.length ≤ 3 ∧
      u.delay.rttCalculator.samples.length ≤ 60
  := by
  have hvalid := valid_of_run hrun
  refine ⟨?_, if_pos hvalid.fps, hvalid.getRatio, ?_⟩
  · intro now c users hperm
    obtain ⟨q', hcall, -⟩ := (hvalid.reorder hperm).call b now c
    rw [hcall, Option.isSome_some]
  · intro id u hu
    have hdelay := (hvalid.users id u hu).delay
    exact ⟨hdelay.delayHistory, hdelay.samples⟩

/-- Calls one after the other make a run, and what a test of it says is so. -/
theorem exists_run (b : Build) (q : VideoQoS) (calls : List (ℕ × Call))
    (test : List (VideoQoS × ℕ × Call) → VideoQoS → Bool)
    (htest : (Run.traceM (fun q c => q.call b c.1 c.2) q calls).map (fun x => test x.1 x.2) =
      some true) :
  ∃ h q', Run (Step b) q h q' ∧ test h q' = true
  := by
  obtain ⟨h, q', hrun, hholds⟩ := Run.exists_of_traceM _ q calls test htest
  refine ⟨h, q', hrun.mono ?_, hholds⟩
  intro q c q' hcall
  exact ⟨q.users, List.Perm.refl _, hcall⟩

/-- A build with the numbers of the messages, not for Linux. -/
def sampleBuild : Build where
  imageQuality := { balanced := 3, low := 2, best := 4 }
  linux := false

/-- A viewer comes, asks for the best quality, reports a delay of 20 ms, and a second passes. -/
def sampleCalls : List (ℕ × Call) :=
  [(0, .onConnectionOpen 7 true), (10, .newDisplay "monitor0"), (500, .userImageQuality 7 4 500),
    (2000, .userNetworkDelay 7 20), (4000, .updateDisplayData "monitor0" 30)]

theorem controlled_of_run_sample :
  ∃ h q, Run (Step sampleBuild) (VideoQoS.default 0) h q ∧ h.length = 5 ∧
    q.getFps = q.fps ∧ q.getRatio = q
  := by
  obtain ⟨h, q, hrun, hlength⟩ := exists_run sampleBuild (VideoQoS.default 0) sampleCalls
    (fun h _ => h.length = 5) (by decide +kernel)
  obtain ⟨-, hfps, hratio, -⟩ := controlled_of_run hrun
  exact ⟨h, q, hrun, of_decide_eq_true hlength, hfps, hratio⟩

end VynxDesk.VideoQos
