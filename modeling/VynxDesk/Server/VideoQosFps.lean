import VynxDesk.Server.VideoQosRun

/-!
# The frame rate of the stream

The slowest viewer sets the pace.  From an adjustment on, the frame rate is at most the cap of each
viewer until that viewer calls again, whatever the others do (`fps_le_cap_of_run`); so a report of a
long delay holds the rate down (`fps_le_of_report`).  With one viewer and short delays, sixty
reports bring the rate to the highest allowed (`fps_eq_highestFps_of_run`).
-/

namespace VynxDesk.VideoQos

variable {q q' q₁ q₂ : VideoQoS} {b : Build} {now : ℕ} {id : ℤ} {u : UserData}

/-! ### The cap of a viewer -/

/-- The highest rate that a viewer allows: its limit, the rate of its last report, and the least
while an answer is overdue. -/
def UserData.cap (u : UserData) : ℕ :=
  min u.limit
    (if u.delay.responseDelayed then min (u.delay.fps.getD INIT_FPS) (MIN_FPS + 1)
      else u.delay.fps.getD INIT_FPS)

theorem min?_getD_le {xs : List ℕ} {x : ℕ} (hx : x ∈ xs) (y : ℕ) :
  xs.min?.getD y ≤ x
  := by
  cases hmin : xs.min? with
  | none =>
      rw [List.min?_eq_none_iff.mp hmin] at hx
      cases hx
  | some m => exact (List.min?_eq_some_iff.mp hmin).2 x hx

theorem UserData.Valid.limit (h : u.Valid) :
  MIN_FPS ≤ u.limit ∧ u.limit ≤ MAX_FPS
  := by
  have hcustom : MIN_FPS ≤ u.customFps.getD FPS ∧ u.customFps.getD FPS ≤ MAX_FPS := by
    cases hfps : u.customFps with
    | none => exact ⟨show 1 ≤ 30 by decide, show 30 ≤ 120 by decide⟩
    | some fps => exact h.customFps fps hfps
  rw [UserData.limit]
  cases hauto : u.autoAdjustFps with
  | none => exact hcustom
  | some auto =>
      dsimp only
      split_ifs
      · exact h.autoAdjustFps auto hauto
      · exact hcustom

theorem highestFps_le_limit (hu : (id, u) ∈ q.users) (hvalid : u.Valid) :
  q.highestFps ≤ u.limit
  := by
  apply max_le hvalid.limit.1
  apply (min_le_left _ _).trans
  apply min?_getD_le
  rw [List.mem_filter, decide_eq_true_iff]
  exact ⟨List.mem_map.mpr ⟨(id, u), hu, rfl⟩, hvalid.limit.1⟩

theorem wantedFps_le_getD (hu : (id, u) ∈ q.users) (now : ℕ) :
  q.wantedFps now ≤ u.delay.fps.getD INIT_FPS
  := by
  have hmin := min?_getD_le (List.mem_map_of_mem (f := fun u : ℤ × UserData =>
    u.2.delay.fps.getD INIT_FPS) hu) INIT_FPS
  rw [VideoQoS.wantedFps]
  dsimp only at hmin ⊢
  split_ifs <;> omega

theorem wantedFps_le_of_responseDelayed (hu : (id, u) ∈ q.users)
    (hdelayed : u.delay.responseDelayed = true) (now : ℕ) :
  q.wantedFps now ≤ MIN_FPS + 1
  := by
  have hany : (q.users.any fun u => u.2.delay.responseDelayed) = true :=
    List.any_eq_true.mpr ⟨(id, u), hu, hdelayed⟩
  simp only [VideoQoS.wantedFps, hany, true_and, INIT_FPS, MIN_FPS]
  split_ifs <;> omega

/-- The frame rate that `adjust_fps` sets. -/
def VideoQoS.adjustedFps (q : VideoQoS) (now : ℕ) : ℕ :=
  max MIN_FPS (min (q.wantedFps now) q.highestFps)

/-- An adjustment keeps to the cap of every viewer. -/
theorem adjustedFps_le_cap (hu : (id, u) ∈ q.users) (hvalid : u.Valid) (now : ℕ) :
  q.adjustedFps now ≤ max MIN_FPS u.cap
  := by
  apply max_le_max_left
  rw [UserData.cap]
  apply le_min
  · exact (min_le_right _ _).trans (highestFps_le_limit hu hvalid)
  · apply (min_le_left _ _).trans
    split_ifs with hdelayed
    · apply le_min (wantedFps_le_getD hu now) (wantedFps_le_of_responseDelayed hu hdelayed now)
    · exact wantedFps_le_getD hu now

/-! ### The calls that adjust the rate -/

/-- A call left the viewers `users` and adjusted the rate to them. -/
structure Adjusted (q : VideoQoS) (viewers : List (ℤ × UserData)) (now : ℕ) (q' : VideoQoS) :
    Prop where
  users : q'.users = viewers
  newUserInstant : q'.newUserInstant = q.newUserInstant
  fps : q'.fps = (q.reorder viewers).adjustedFps now

variable {users : List (ℤ × UserData)}

theorem adjusted_of_adjustFps (hadjust : (q.reorder users).adjustFps now = some q') :
  Adjusted q users now q'
  := by
  rw [adjustFps_eq] at hadjust
  obtain rfl := Option.some.inj hadjust
  exact ⟨rfl, rfl, rfl⟩

/-- `adjust_ratio` leaves the viewers and the rate alone. -/
theorem Adjusted.adjustRatio (h : Adjusted q users now q₁) (hvalid : q₁.Valid)
    {dynamicScreen : Bool} (hadjust : q₁.adjustRatio now dynamicScreen = some q') :
  Adjusted q users now q'
  := by
  obtain ⟨ratio, time, heq, -⟩ := hvalid.adjustRatio now dynamicScreen
  rw [hadjust] at heq
  obtain rfl := Option.some.inj heq
  exact ⟨h.users, h.newUserInstant, h.fps⟩

theorem adjusted_of_updateDisplayData (hvalid : q.Valid) {name : String} {sendCounter : ℕ}
    (hcall : q.updateDisplayData now name sendCounter = some q') :
  Adjusted q q.users now q'
  := by
  rw [VideoQoS.updateDisplayData] at hcall
  obtain ⟨q₁, hadjust, hcall⟩ := Option.bind_eq_some_iff.mp hcall
  have hq₁ : Adjusted q q.users now q₁ := by
    rw [adjustFps_eq] at hadjust
    obtain rfl := Option.some.inj hadjust
    exact ⟨rfl, rfl, rfl⟩
  have hvalid₁ : q₁.Valid := VideoQoS.Valid.of_adjustFps (hvalid.withDisplays _) hadjust
  split_ifs at hcall
  · have hdisplays : ∀ displays, Adjusted q q.users now { q₁ with displays } :=
      fun displays => ⟨hq₁.users, hq₁.newUserInstant, hq₁.fps⟩
    apply (hdisplays _).adjustRatio (hvalid₁.withDisplays _) hcall
  · rwa [← Option.some.inj hcall]
  · obtain rfl := Option.some.inj hcall
    exact ⟨hq₁.users, hq₁.newUserInstant, hq₁.fps⟩

theorem adjusted_of_userNetworkDelay (hvalid : q.Valid) {linux : Bool} {delay : ℕ}
    (hcall : q.userNetworkDelay linux now id delay = some q') (hu : (id, u) ∈ q.users) :
  ∃ d, u.delay.report q.highestFps q.delayFps.1 q.delayFps.2 q.fps delay = some d ∧ d.Valid ∧
    Adjusted q (Entries.modify id (fun u => { u with delay := d }) q.users) now q'
  := by
  rw [VideoQoS.userNetworkDelay, hvalid.keys.lookup_eq_some hu] at hcall
  obtain ⟨d, hreport, hcall⟩ := Option.bind_eq_some_iff.mp hcall
  obtain ⟨q₁, hadjust, hcall⟩ := Option.bind_eq_some_iff.mp hcall
  obtain ⟨d', hreport', hd⟩ := (hvalid.users id u hu).delay.report (MIN_FPS_le_highestFps q)
    (highestFps_le_MAX_FPS q) q.delayFps.1 q.delayFps.2 q.fps delay
  rw [hreport] at hreport'
  obtain rfl := Option.some.inj hreport'
  refine ⟨d, hreport, hd, ?_⟩
  have hmodify := hvalid.modify id (f := fun u => { u with delay := d }) (by
    intro u hu
    exact ⟨hu.autoAdjustFps, hu.customFps, hu.quality, hd⟩)
  have hq₁ := adjusted_of_adjustFps hadjust
  split_ifs at hcall
  · exact hq₁.adjustRatio (hmodify.of_adjustFps hadjust) hcall
  · rwa [← Option.some.inj hcall]

/-! ### What the calls leave alone -/

/-- The calls that change the cap of the viewer `id`. -/
def Call.changes (id : ℤ) : Call → Bool
  | .onConnectionOpen id' _ => id' = id
  | .onConnectionClose id' => id' = id
  | .userCustomFps id' _ => id' = id
  | .userAutoAdjustFps id' _ => id' = id
  | .userNetworkDelay id' _ => id' = id
  | .userDelayResponseElapsed id' _ => id' = id
  | _ => false

/-- The viewer `id` caps the rate at `cap`, and the rate is within the cap. -/
structure Capped (id : ℤ) (cap : ℕ) (q : VideoQoS) : Prop where
  viewer : ∃ u, (id, u) ∈ q.users ∧ u.cap = cap
  fps : q.fps ≤ max MIN_FPS cap

variable {cap : ℕ} {f : UserData → UserData}

/-- The calls that change the limit that the viewer `id` has asked for. -/
def Call.setsCustom (id : ℤ) : Call → Bool
  | .onConnectionOpen id' _ => id' = id
  | .onConnectionClose id' => id' = id
  | .userCustomFps id' _ => id' = id
  | _ => false

/-- What a call leaves of a viewer `u`, who is `u'` behind it: the limit that was asked for, and the
cap unless `keep` is `false`; and the rate is as before, or within the cap. -/
structure Viewed (id : ℤ) (u : UserData) (keep : Bool) (q q' : VideoQoS) (u' : UserData) :
    Prop where
  mem : (id, u') ∈ q'.users
  customFps : u'.customFps = u.customFps
  cap : keep = true → u'.cap = u.cap
  fps : q'.fps = q.fps ∨ q'.fps ≤ max MIN_FPS u'.cap

theorem Adjusted.fps_le_cap (h : Adjusted q users now q') (hvalid : q'.Valid)
    (hu : (id, u) ∈ users) :
  q'.fps ≤ max MIN_FPS u.cap
  := by
  rw [h.fps]
  apply adjustedFps_le_cap hu
  apply hvalid.users id u
  rwa [h.users]

variable {keep : Bool}

theorem Viewed.of_eq (hu : (id, u) ∈ q.users) (husers : q'.users = q.users) (hfps : q'.fps = q.fps) :
  Viewed id u keep q q' u
  := ⟨by rwa [husers], rfl, fun _ => rfl, .inl hfps⟩

/-- A viewer behind a change of one viewer. -/
theorem exists_modify (id' : ℤ) (f : UserData → UserData) (hu : (id, u) ∈ users) :
  ∃ u', (id, u') ∈ Entries.modify id' f users ∧ (id' ≠ id ∧ u' = u ∨ id' = id ∧ u' = f u)
  := by
  by_cases hid : id' = id
  · subst hid
    exact ⟨f u, Entries.mem_modify.mpr (.inr ⟨u, hu, rfl⟩), .inr ⟨rfl, rfl⟩⟩
  · exact ⟨u, Entries.mem_modify.mpr (.inl ⟨hu, Ne.symm hid⟩), .inl ⟨hid, rfl⟩⟩

/-- A change of one viewer that does not touch the limit of `id`, and the cap only when it may. -/
theorem exists_viewed_modify (hu : (id, u) ∈ q.users) (id' : ℤ)
    (husers : q'.users = Entries.modify id' f q.users) (hfps : q'.fps = q.fps)
    (hcustom : id' = id → (f u).customFps = u.customFps)
    (hcap : id' = id → keep = true → (f u).cap = u.cap) :
  ∃ u', Viewed id u keep q q' u'
  := by
  obtain ⟨u', hu', hcases⟩ := exists_modify id' f hu
  rw [← husers] at hu'
  rcases hcases with ⟨-, rfl⟩ | ⟨hid, rfl⟩
  · exact ⟨u', hu', rfl, fun _ => rfl, .inl hfps⟩
  · exact ⟨f u, hu', hcustom hid, hcap hid, .inl hfps⟩

/-- An adjustment behind such a change. -/
theorem exists_viewed_adjusted (hu : (id, u) ∈ q.users) (hvalid : q'.Valid) (id' : ℤ)
    (h : Adjusted q (Entries.modify id' f q.users) now q')
    (hcustom : id' = id → (f u).customFps = u.customFps)
    (hcap : id' = id → keep = true → (f u).cap = u.cap) :
  ∃ u', Viewed id u keep q q' u'
  := by
  obtain ⟨u', hu', hcases⟩ := exists_modify id' f hu
  have hfps := h.fps_le_cap hvalid hu'
  rw [← h.users] at hu'
  rcases hcases with ⟨-, rfl⟩ | ⟨hid, rfl⟩
  · exact ⟨u', hu', rfl, fun _ => rfl, .inr hfps⟩
  · exact ⟨f u, hu', hcustom hid, hcap hid, .inr hfps⟩

/-- What a call leaves of a viewer whose limit it does not change. -/
theorem exists_viewed (hvalid : q.Valid) (hu : (id, u) ∈ q.users) {c : Call}
    (hc : c.setsCustom id = false) (hcall : q.call b now c = some q') :
  ∃ u', Viewed id u (!c.changes id) q q' u'
  := by
  have hvalid' := hvalid.of_call hcall
  have hsame : ∀ {id' : ℤ} {v w : ℕ}, id' = id → (!decide (id' = id)) = true → v = w := by
    intro id' v w hid hkeep
    rw [decide_eq_true hid] at hkeep
    cases hkeep
  cases c with
  | onConnectionOpen id' enableAbr =>
      obtain rfl := Option.some.inj hcall
      have hne := Ne.symm (of_decide_eq_false hc)
      exact ⟨u, Entries.mem_insert.mpr (.inr ⟨hu, hne⟩), rfl, fun _ => rfl, .inl rfl⟩
  | onConnectionClose id' =>
      obtain rfl := Option.some.inj hcall
      have hremove : (id, u) ∈ Entries.remove id' q.users :=
        Entries.mem_remove.mpr ⟨hu, Ne.symm (of_decide_eq_false hc)⟩
      rw [VideoQoS.onConnectionClose, if_neg]
      · exact ⟨u, hremove, rfl, fun _ => rfl, .inl rfl⟩
      · intro hempty
        rw [List.isEmpty_iff.mp hempty] at hremove
        cases hremove
  | userCustomFps id' fps =>
      obtain rfl := Option.some.inj hcall
      rw [VideoQoS.userCustomFps]
      split_ifs
      · exact ⟨u, .of_eq hu rfl rfl⟩
      · have hid : id' ≠ id := of_decide_eq_false hc
        exact exists_viewed_modify (f := fun u => { u with customFps := some fps }) hu id' rfl rfl
          (fun h => absurd h hid) fun h => absurd h hid
  | userAutoAdjustFps id' fps =>
      obtain rfl := Option.some.inj hcall
      rw [VideoQoS.userAutoAdjustFps]
      split_ifs
      · exact ⟨u, .of_eq hu rfl rfl⟩
      · exact exists_viewed_modify (f := fun u => { u with autoAdjustFps := some fps }) hu id'
          rfl rfl (fun _ => rfl) hsame
  | userImageQuality id' imageQuality time =>
      obtain rfl := Option.some.inj hcall
      rw [VideoQoS.userImageQuality]
      split_ifs
      · let quality : Option (ℤ × Quality) :=
          some (time, convertQuality b.imageQuality imageQuality)
        exact exists_viewed_modify (f := fun u => { u with quality }) hu id' rfl rfl (fun _ => rfl)
          fun _ _ => rfl
      · exact ⟨u, .of_eq hu rfl rfl⟩
  | userRecord id' v =>
      obtain rfl := Option.some.inj hcall
      exact exists_viewed_modify (f := fun u => { u with record := v }) hu id' rfl rfl
        (fun _ => rfl) fun _ _ => rfl
  | userNetworkDelay id' delay =>
      change q.userNetworkDelay b.linux now id' delay = some q' at hcall
      cases hlookup : q.users.lookup id' with
      | none =>
          rw [VideoQoS.userNetworkDelay, hlookup] at hcall
          have hadjusted : Adjusted q q.users now q' := adjusted_of_adjustFps hcall
          exact ⟨u, by rwa [hadjusted.users], rfl, fun _ => rfl, .inr (hadjusted.fps_le_cap hvalid' hu)⟩
      | some user =>
          obtain ⟨d, -, -, hadjusted⟩ :=
            adjusted_of_userNetworkDelay hvalid hcall (Entries.mem_of_lookup hlookup)
          exact exists_viewed_adjusted hu hvalid' id' hadjusted (fun _ => rfl) hsame
  | userDelayResponseElapsed id' elapsed =>
      change q.userDelayResponseElapsed now id' elapsed = some q' at hcall
      rw [VideoQoS.userDelayResponseElapsed] at hcall
      split_ifs at hcall
      · have hadjusted : Adjusted q _ now q' := adjusted_of_adjustFps hcall
        exact exists_viewed_adjusted hu hvalid' id' hadjusted (fun _ => rfl) hsame
      · obtain rfl := Option.some.inj hcall
        let answered (u : UserData) : UserData :=
          { u with delay := { u.delay with responseDelayed := false } }
        exact exists_viewed_modify (f := answered) hu id' rfl rfl (fun _ => rfl) hsame
      · rw [← Option.some.inj hcall]
        exact ⟨u, .of_eq hu rfl rfl⟩
  | ratio =>
      obtain rfl := Option.some.inj hcall
      rw [VideoQoS.getRatio]
      split_ifs <;> exact ⟨u, .of_eq hu rfl rfl⟩
  | storeBitrate bitrate =>
      obtain rfl := Option.some.inj hcall
      exact ⟨u, .of_eq hu rfl rfl⟩
  | setSupportChangingQuality name support =>
      obtain rfl := Option.some.inj hcall
      exact ⟨u, .of_eq hu rfl rfl⟩
  | newDisplay name =>
      obtain rfl := Option.some.inj hcall
      exact ⟨u, .of_eq hu rfl rfl⟩
  | removeDisplay name =>
      obtain rfl := Option.some.inj hcall
      exact ⟨u, .of_eq hu rfl rfl⟩
  | updateDisplayData name sendCounter =>
      have hadjusted := adjusted_of_updateDisplayData hvalid hcall
      exact ⟨u, by rwa [hadjusted.users], rfl, fun _ => rfl, .inr (hadjusted.fps_le_cap hvalid' hu)⟩

theorem Adjusted.capped (h : Adjusted q users now q') (hvalid : q'.Valid)
    (hviewer : ∃ u, (id, u) ∈ users ∧ u.cap = cap) :
  Capped id cap q'
  := by
  obtain ⟨u, hu, rfl⟩ := hviewer
  exact ⟨⟨u, by rwa [h.users], rfl⟩, h.fps_le_cap hvalid hu⟩

/-- A call that does not change the cap of a viewer does not change its limit. -/
theorem setsCustom_of_changes {c : Call} (hc : c.changes id = false) :
  c.setsCustom id = false
  := by
  cases c <;> first | exact hc | rfl

/-- A call that does not change the cap of `id` leaves the rate within it, whoever calls. -/
theorem Capped.call (hvalid : q.Valid) (h : Capped id cap q) {c : Call} (hc : c.changes id = false)
    (hcall : q.call b now c = some q') :
  Capped id cap q'
  := by
  obtain ⟨u, hu, rfl⟩ := h.viewer
  obtain ⟨u', hu', -, hcap, hfps⟩ := exists_viewed hvalid hu (setsCustom_of_changes hc) hcall
  have hsame := hcap (by rw [hc]; rfl)
  refine ⟨⟨u', hu', hsame⟩, ?_⟩
  rcases hfps with hfps | hfps
  · rw [hfps]
    exact h.fps
  · rwa [← hsame]

/-- From a state within the cap of a viewer on the rate stays there until the viewer calls. -/
theorem Capped.run {h : List (VideoQoS × ℕ × Call)} (hvalid : q.Valid) (hcapped : Capped id cap q)
    (hrun : Run (Step b) q h q') (hkeep : ∀ x ∈ h, x.2.2.changes id = false) :
  Capped id cap q'
  := by
  have hboth : q'.Valid ∧ Capped id cap q' := by
    apply hrun.invariant_of (fun _ i => i.2.changes id = false) (fun q => q.Valid ∧ Capped id cap q)
      ⟨hvalid, hcapped⟩ _ hkeep
    rintro q₀ ⟨now, c⟩ q₁ ⟨hq₀, hcap⟩ hc ⟨users, hperm, hcall⟩
    have hreorder := hq₀.reorder hperm
    refine ⟨hreorder.of_call hcall, ?_⟩
    apply Capped.call hreorder _ hc hcall
    obtain ⟨u, hu, heq⟩ := hcap.viewer
    exact ⟨⟨u, hperm.mem_iff.mpr hu, heq⟩, hcap.fps⟩
  exact hboth.2

/-- The calls that adjust the rate: the report of a delay, an overdue answer of a viewer, and the
tick of a display. -/
def Call.adjusts (q : VideoQoS) : Call → Bool
  | .userNetworkDelay _ _ => true
  | .userDelayResponseElapsed id elapsed => 2000 < elapsed && q.users.any fun u => u.1 = id
  | .updateDisplayData _ _ => true
  | _ => false

theorem adjusts_reorder (hperm : users.Perm q.users) (c : Call) :
  c.adjusts (q.reorder users) = c.adjusts q
  := by
  cases c with
  | userDelayResponseElapsed id elapsed =>
      rw [Call.adjusts, Call.adjusts, ← hperm.any_eq]
      rfl
  | _ => rfl

theorem adjusted_of_adjusts (hvalid : q.Valid) {c : Call} (hc : c.adjusts q = true)
    (hcall : q.call b now c = some q') :
  Adjusted q q'.users now q'
  := by
  cases c with
  | userNetworkDelay id delay =>
      change q.userNetworkDelay b.linux now id delay = some q' at hcall
      cases hlookup : q.users.lookup id with
      | none =>
          rw [VideoQoS.userNetworkDelay, hlookup] at hcall
          have hadjusted : Adjusted q q.users now q' := adjusted_of_adjustFps hcall
          rwa [hadjusted.users]
      | some user =>
          obtain ⟨d, -, -, hadjusted⟩ :=
            adjusted_of_userNetworkDelay hvalid hcall (Entries.mem_of_lookup hlookup)
          rwa [hadjusted.users]
  | userDelayResponseElapsed id elapsed =>
      rw [Call.adjusts, Bool.and_eq_true, decide_eq_true_eq, List.any_eq_true] at hc
      obtain ⟨hoverdue, ⟨id', user⟩, hmem, hid⟩ := hc
      obtain rfl : id' = id := of_decide_eq_true hid
      have hviewer : (q.users.lookup id').isSome = true := by
        by_contra hnone
        rw [Bool.not_eq_true, Option.isSome_eq_false_iff, Option.isNone_iff_eq_none,
          List.lookup_eq_none_iff] at hnone
        simpa using hnone (id', user) hmem
      change q.userDelayResponseElapsed now id' elapsed = some q' at hcall
      rw [VideoQoS.userDelayResponseElapsed, if_pos hviewer, if_pos hoverdue] at hcall
      have hadjusted : Adjusted q _ now q' := adjusted_of_adjustFps hcall
      rwa [hadjusted.users]
  | updateDisplayData name sendCounter =>
      have hadjusted := adjusted_of_updateDisplayData hvalid hcall
      rwa [hadjusted.users]
  | _ => cases hc

/-- After an adjustment the rate stays within the cap of each viewer until that viewer calls
again. -/
theorem fps_le_cap_of_run {start : ℕ} {before after : List (VideoQoS × ℕ × Call)} {c : Call}
    (hrun : Run (Step b) (VideoQoS.default start) before q) (hstep : Step b q (now, c) q₁)
    (hc : c.adjusts q = true) (hu : (id, u) ∈ q₁.users) (hafter : Run (Step b) q₁ after q₂)
    (hkeep : ∀ x ∈ after, x.2.2.changes id = false) :
  q₂.fps ≤ max MIN_FPS u.cap
  := by
  obtain ⟨users, hperm, hcall⟩ := hstep
  have hvalid := (valid_of_run hrun).reorder hperm
  have hvalid₁ := hvalid.of_call hcall
  rw [← adjusts_reorder hperm] at hc
  have hcapped := (adjusted_of_adjusts hvalid hc hcall).capped hvalid₁ ⟨u, hu, rfl⟩
  exact (hcapped.run hvalid₁ hafter hkeep).fps

/-! ### The limit that a viewer asks for -/

theorem cap_le_customFps {v : ℕ} (hcustom : u.customFps = some v) (hpos : MIN_FPS ≤ v) :
  u.cap ≤ v
  := by
  have hzero : v ≠ 0 := by
    rw [MIN_FPS] at hpos
    omega
  apply (min_le_left _ _).trans
  rw [UserData.limit, hcustom]
  cases u.autoAdjustFps with
  | none => exact le_refl v
  | some auto =>
      dsimp only
      rw [Option.getD_some]
      split_ifs with hless
      · exact (hless.resolve_left hzero).le
      · exact le_refl v

/-- Behind an accepted limit of a viewer, until the viewer asks for another one, comes or goes, each
adjustment keeps to it. -/
theorem fps_le_customFps {start v : ℕ} {h after : List (VideoQoS × ℕ × Call)}
    (hrun : Run (Step b) (VideoQoS.default start) h q) (hu : (id, u) ∈ q.users)
    (hlow : MIN_FPS ≤ v) (hhigh : v ≤ MAX_FPS) (hstep : Step b q (now, .userCustomFps id v) q₁)
    (hafter : Run (Step b) q₁ after q₂) (hkeep : ∀ x ∈ after, x.2.2.setsCustom id = false) :
  (∃ x ∈ after, x.2.2.adjusts x.1 = true) → q₂.fps ≤ v
  := by
  obtain ⟨users, hperm, hcall⟩ := hstep
  have hvalid := (valid_of_run hrun).reorder hperm
  have hvalid₁ := hvalid.of_call hcall
  have hset : ∃ u, (id, u) ∈ q₁.users ∧ u.customFps = some v := by
    obtain rfl := Option.some.inj hcall
    rw [VideoQoS.userCustomFps, if_neg (by omega)]
    obtain ⟨u', hu', hcases⟩ := exists_modify id (fun u => { u with customFps := some v })
      (hperm.mem_iff.mpr hu)
    refine ⟨u', hu', ?_⟩
    rcases hcases with ⟨hne, -⟩ | ⟨-, rfl⟩
    · exact absurd rfl hne
    · rfl
  have hall : q₂.Valid ∧ (∃ u, (id, u) ∈ q₂.users ∧ u.customFps = some v) ∧
      ((∃ x ∈ after, x.2.2.adjusts x.1 = true) → q₂.fps ≤ v) := by
    revert hkeep
    apply hafter.history_invariant fun after q₂ =>
      (∀ x ∈ after, x.2.2.setsCustom id = false) →
        q₂.Valid ∧ (∃ u, (id, u) ∈ q₂.users ∧ u.customFps = some v) ∧
          ((∃ x ∈ after, x.2.2.adjusts x.1 = true) → q₂.fps ≤ v)
    · intro _
      refine ⟨hvalid₁, hset, ?_⟩
      rintro ⟨x, hx, -⟩
      cases hx
    · rintro after q ⟨now, c⟩ q' - ih ⟨users, hperm, hcall⟩ hkeep
      rw [List.forall_mem_append, List.forall_mem_singleton] at hkeep
      obtain ⟨hvalid, ⟨u, hu, hcustom⟩, hfps⟩ := ih hkeep.1
      have hreorder := hvalid.reorder hperm
      have hvalid' := hreorder.of_call hcall
      obtain ⟨u', hu', hsame, -, hview⟩ :=
        exists_viewed hreorder (hperm.mem_iff.mpr hu) hkeep.2 hcall
      have hcap := max_le hlow (cap_le_customFps (hsame.trans hcustom) hlow)
      refine ⟨hvalid', ⟨u', hu', hsame.trans hcustom⟩, ?_⟩
      rintro ⟨x, hx, hadjusts⟩
      rw [List.mem_append, List.mem_singleton] at hx
      rcases hx with hx | rfl
      · rcases hview with hview | hview
        · rw [hview]
          exact hfps ⟨x, hx, hadjusts⟩
        · exact hview.trans hcap
      · rw [← adjusts_reorder hperm] at hadjusts
        have hadjusted := adjusted_of_adjusts hreorder hadjusts hcall
        exact (hadjusted.fps_le_cap hvalid' hu').trans hcap
  exact hall.2.2

/-- The state after a call that does not panic. -/
def sampleNext (q : VideoQoS) (c : ℕ × Call) : VideoQoS :=
  (q.call sampleBuild c.1 c.2).getD q

theorem step_sampleNext {q : VideoQoS} {c : ℕ × Call}
    (h : (q.call sampleBuild c.1 c.2).isSome = true) :
  Step sampleBuild q c (sampleNext q c)
  := by
  obtain ⟨q', hq'⟩ := Option.isSome_iff_exists.mp h
  refine ⟨q.users, List.Perm.refl _, ?_⟩
  change q.call sampleBuild c.1 c.2 = _
  rw [sampleNext, hq', Option.getD_some]

/-- Two viewers have come. -/
def sampleTwo : VideoQoS :=
  sampleNext (sampleNext (VideoQoS.default 0) (0, .onConnectionOpen 7 true))
    (0, .onConnectionOpen 8 true)

theorem exists_run_sampleTwo :
  ∃ h, Run (Step sampleBuild) (VideoQoS.default 0) h sampleTwo
  := ⟨_, (Run.nil.snoc (step_sampleNext rfl)).snoc (step_sampleNext rfl)⟩

/-- The first one reports a long delay, and then the other one a short delay. -/
def sampleLong : VideoQoS :=
  sampleNext sampleTwo (3000, .userNetworkDelay 7 1000)

theorem run_sampleLong :
  Run (Step sampleBuild) sampleLong [(sampleLong, (3500, .userNetworkDelay 8 20))]
    (sampleNext sampleLong (3500, .userNetworkDelay 8 20))
  := Run.nil.snoc (step_sampleNext (by decide +kernel))

theorem fps_le_cap_of_run_sample :
  (sampleNext sampleLong (3500, .userNetworkDelay 8 20)).fps ≤
    max MIN_FPS ((sampleLong.users.lookup 7).getD {}).cap
  := by
  obtain ⟨h, hrun⟩ := exists_run_sampleTwo
  have hmem : (7, (sampleLong.users.lookup 7).getD {}) ∈ sampleLong.users := by
    apply Entries.mem_of_lookup
    decide +kernel
  apply fps_le_cap_of_run (c := .userNetworkDelay 7 1000) hrun
    (step_sampleNext (by decide +kernel)) rfl hmem run_sampleLong
  intro x hx
  obtain rfl := List.mem_singleton.mp hx
  decide

/-! ### A long delay -/

theorem delayFps_le (q : VideoQoS) :
  q.delayFps.1 ≤ 12
  := by
  rw [VideoQoS.delayFps]
  dsimp only
  split_ifs <;> decide

/-- A report of a long delay leaves no more frames than fit in 1800 ms of it. -/
theorem report_fps_le {d d' : UserDelay} {highestFps minFps normalFps fps delay : ℕ}
    (hlow : MIN_FPS ≤ highestFps) (hmin : minFps ≤ 12)
    (havg : 300 ≤ (d.addDelay (max delay 10)).avgDelay)
    (hreport : d.report highestFps minFps normalFps fps delay = some d') :
  ∃ fps', d'.fps = some fps' ∧ fps' ≤ max MIN_FPS (1800 / (d.addDelay (max delay 10)).avgDelay)
  := by
  generalize hd : d.addDelay (max delay 10) = added at havg hreport ⊢
  have hmax : max added.avgDelay 10 = added.avgDelay := max_eq_left (by omega)
  rw [UserDelay.report, hd, hmax, clamp_eq hlow] at hreport
  obtain rfl := Option.some.inj hreport
  refine ⟨_, rfl, ?_⟩
  have hnot : ¬ added.avgDelay < DELAY_THRESHOLD_150MS := by
    rw [DELAY_THRESHOLD_150MS]
    omega
  apply max_le_max_left
  apply (min_le_left _ _).trans
  rw [if_neg hnot, if_neg (by decide), adaptFps]
  have hdividend : DELAY_THRESHOLD_150MS * minFps / added.avgDelay ≤ 1800 / added.avgDelay := by
    apply Nat.div_le_div_right
    rw [DELAY_THRESHOLD_150MS]
    omega
  dsimp only
  rw [if_neg (by omega), if_neg (by omega), if_neg hnot, if_neg (by omega), if_neg (by omega)]
  split_ifs
  · exact hdividend
  · exact (min_le_left _ _).trans hdividend

/-- A report of an average delay of 300 ms or more holds the rate down until the viewer calls again:
no more frames are sent than fit in 1800 ms of that delay, or one. -/
theorem fps_le_of_report {start delay : ℕ} {before after : List (VideoQoS × ℕ × Call)}
    (hrun : Run (Step b) (VideoQoS.default start) before q) (hu : (id, u) ∈ q.users)
    (hstep : Step b q (now, .userNetworkDelay id delay) q₁)
    (havg : 300 ≤ (u.delay.addDelay (max delay 10)).avgDelay)
    (hafter : Run (Step b) q₁ after q₂) (hkeep : ∀ x ∈ after, x.2.2.changes id = false) :
  q₂.fps ≤ max MIN_FPS (1800 / (u.delay.addDelay (max delay 10)).avgDelay)
  := by
  obtain ⟨users, hperm, hcall⟩ := hstep
  have hvalid := (valid_of_run hrun).reorder hperm
  have hvalid₁ := hvalid.of_call hcall
  have hu' : (id, u) ∈ users := hperm.mem_iff.mpr hu
  obtain ⟨d, hreport, hd, hadjusted⟩ := adjusted_of_userNetworkDelay hvalid hcall hu'
  obtain ⟨fps, hfps, hle⟩ :=
    report_fps_le (MIN_FPS_le_highestFps _) (delayFps_le _) havg hreport
  have hcapped := hadjusted.capped hvalid₁ ⟨{ u with delay := d },
    Entries.mem_modify.mpr (.inr ⟨u, hu', rfl⟩), rfl⟩
  apply (hcapped.run hvalid₁ hafter hkeep).fps.trans
  apply max_le (le_max_left _ _)
  apply le_trans _ hle
  apply (min_le_right _ _).trans
  rw [hfps]
  split_ifs
  · exact min_le_left _ _
  · exact le_refl _

theorem fps_le_of_report_sample :
  (sampleNext sampleLong (3500, .userNetworkDelay 8 20)).fps ≤ 1
  := by
  obtain ⟨h, hrun⟩ := exists_run_sampleTwo
  have hmem : ((7 : ℤ), ({} : UserData)) ∈ sampleTwo.users := by
    decide
  have hstep : Step sampleBuild sampleTwo (3000, .userNetworkDelay 7 1000) sampleLong :=
    step_sampleNext (by decide +kernel)
  apply fps_le_of_report hrun hmem hstep (by decide +kernel) run_sampleLong
  intro x hx
  obtain rfl := List.mem_singleton.mp hx
  decide

/-! ### Short delays -/

/-- A report of a short average delay adds a frame a second every third time, and five more at
every third report. -/
theorem report_short {d d' : UserDelay} {highestFps minFps normalFps fps delay : ℕ}
    (hlow : MIN_FPS ≤ highestFps) (havg : (d.addDelay (max delay 10)).avgDelay < 50)
    (hquick : d.quickIncreaseFpsCount < 3) (hincrease : d.increaseFpsCount < 3)
    (hreport : d.report highestFps minFps normalFps fps delay = some d') :
  (∃ fps', d'.fps = some fps' ∧ MIN_FPS ≤ fps' ∧ fps' ≤ highestFps ∧
      min highestFps (fps + 5 * ((d.quickIncreaseFpsCount + 1) / 3) +
        (d.increaseFpsCount + 1) / 3) ≤ fps') ∧
    d'.quickIncreaseFpsCount = (d.quickIncreaseFpsCount + 1) % 3 ∧
    d'.increaseFpsCount = (d.increaseFpsCount + 1) % 3 ∧
    d'.responseDelayed = d.responseDelayed
  := by
  have hsame : (d.addDelay (max delay 10)).quickIncreaseFpsCount = d.quickIncreaseFpsCount ∧
      (d.addDelay (max delay 10)).increaseFpsCount = d.increaseFpsCount ∧
      (d.addDelay (max delay 10)).responseDelayed = d.responseDelayed := ⟨rfl, rfl, rfl⟩
  generalize hd : d.addDelay (max delay 10) = added at havg hsame
  obtain ⟨hsame₁, hsame₂, hsame₃⟩ := hsame
  have hshort : max added.avgDelay 10 < 50 := max_lt havg (by decide)
  have hthreshold : max added.avgDelay 10 < DELAY_THRESHOLD_150MS := hshort.trans (by decide)
  rw [UserDelay.report, hd, clamp_eq hlow] at hreport
  obtain rfl := Option.some.inj hreport
  dsimp only
  rw [if_pos hthreshold, if_neg (Nat.not_lt_of_gt hshort), adaptFps, if_pos hshort, hsame₁, hsame₂]
  refine ⟨⟨_, rfl, le_max_left _ _, max_le hlow (min_le_right _ _), ?_⟩, ?_, ?_, hsame₃⟩
  · apply le_trans _ (le_max_right _ _)
    dsimp only
    split_ifs <;> omega
  · dsimp only
    split_ifs <;> omega
  · split_ifs <;> omega

/-- The calls with which the rate of a sole viewer with short delays climbs: its reports are of
short delays, its answers are not overdue, and neither the viewers nor their limits change. -/
def Call.undisturbed (id : ℤ) (q : VideoQoS) : Call → Bool
  | .onConnectionOpen _ _ => false
  | .onConnectionClose _ => false
  | .userCustomFps _ _ => false
  | .userAutoAdjustFps _ _ => false
  | .userNetworkDelay id' delay =>
      id' ≠ id ∨ q.users.all fun u =>
        u.1 ≠ id ∨ (u.2.delay.addDelay (max delay 10)).avgDelay < 50
  | .userDelayResponseElapsed id' elapsed => id' ≠ id ∨ elapsed ≤ 2000
  | _ => true

/-- Such a call a second after the viewer has come. -/
def Undisturbed (id : ℤ) (q : VideoQoS) (c : ℕ × Call) : Prop :=
  q.newUserInstant + 1000 ≤ c.1 ∧ c.2.undisturbed id q = true

instance (id : ℤ) (q : VideoQoS) (c : ℕ × Call) : Decidable (Undisturbed id q c) :=
  inferInstanceAs (Decidable (_ ∧ _))

/-- The call is a report of the viewer `id`. -/
def Call.isReport (id : ℤ) : Call → Bool
  | .userNetworkDelay id' _ => id' = id
  | _ => false

/-- The number of the reports of the viewer `id`. -/
def reports (id : ℤ) (h : List (VideoQoS × ℕ × Call)) : ℕ :=
  h.countP fun x => x.2.2.isReport id

/-- After `n` reports of the sole viewer `id` the rate is its own, and has grown with their
number; `k` and `i` are the counts before the first. -/
structure Climbing (id : ℤ) (limit newUserInstant k i n : ℕ) (q : VideoQoS) : Prop where
  valid : q.Valid
  newUserInstant : q.newUserInstant = newUserInstant
  viewer : ∃ u, q.users = [(id, u)] ∧ u.limit = limit ∧ u.delay.responseDelayed = false ∧
    u.delay.quickIncreaseFpsCount = (k + n) % 3 ∧ u.delay.increaseFpsCount = (i + n) % 3 ∧
    (0 < n → u.delay.fps = some q.fps ∧ q.fps ≤ limit)
  fps : min limit (5 * ((k + n) / 3) + (i + n) / 3) ≤ q.fps

variable {limit newUserInstant k i n : ℕ}

theorem highestFps_of_singleton (hvalid : u.Valid) (husers : q.users = [(id, u)]) :
  q.highestFps = u.limit
  := by
  have hlimit := hvalid.limit
  rw [VideoQoS.highestFps, husers]
  simp only [List.map_cons, List.map_nil]
  rw [List.filter_cons_of_pos (by simpa using hlimit.1)]
  simp only [List.filter_nil, List.min?_singleton, Option.getD_some]
  omega

theorem adjustedFps_of_singleton (hvalid : u.Valid) (husers : q.users = [(id, u)])
    (hdelayed : u.delay.responseDelayed = false) (hnow : q.newUserInstant + 1000 ≤ now) :
  q.adjustedFps now = max MIN_FPS (min (u.delay.fps.getD INIT_FPS) u.limit)
  := by
  have helapsed : ¬ (now - q.newUserInstant) / 1000 < 1 := by
    omega
  rw [VideoQoS.adjustedFps, highestFps_of_singleton hvalid husers, VideoQoS.wantedFps, husers]
  simp [hdelayed, helapsed]

/-- An adjustment that is no report keeps the rate of a viewer that has reported. -/
theorem Climbing.of_adjusted (hk : k < 3) (hi : i < 3)
    (h : Climbing id limit newUserInstant k i n q) (hnow : q.newUserInstant + 1000 ≤ now)
    (hadjusted : Adjusted q q.users now q')
    (hvalid' : q'.Valid) :
  Climbing id limit newUserInstant k i n q'
  := by
  obtain ⟨u, husers, hlimit, hdelayed, hquick, hincrease, hown⟩ := h.viewer
  have hu : u.Valid := h.valid.users id u (by simp [husers])
  have hfps : q'.fps = q.adjustedFps now := hadjusted.fps
  rw [adjustedFps_of_singleton hu husers hdelayed hnow, hlimit] at hfps
  have hfps' : 0 < n → q'.fps = q.fps := by
    intro hn
    obtain ⟨hrate, hle⟩ := hown hn
    rw [hfps, hrate, Option.getD_some, min_eq_left hle, max_eq_right h.valid.fps.1]
  refine ⟨hvalid', hadjusted.newUserInstant.trans h.newUserInstant, ?_, ?_⟩
  · refine ⟨u, hadjusted.users.trans husers, hlimit, hdelayed, hquick, hincrease, ?_⟩
    intro hn
    rw [hfps' hn]
    exact hown hn
  · rcases Nat.eq_zero_or_pos n with rfl | hn
    · omega
    · rw [hfps' hn]
      exact h.fps

theorem Climbing.of_eq (h : Climbing id limit newUserInstant k i n q) (hvalid' : q'.Valid)
    (husers : q'.users = q.users) (hfps : q'.fps = q.fps)
    (hinstant : q'.newUserInstant = q.newUserInstant) :
  Climbing id limit newUserInstant k i n q'
  := by
  refine ⟨hvalid', hinstant.trans h.newUserInstant, ?_, by rw [hfps]; exact h.fps⟩
  rw [husers, hfps]
  exact h.viewer

/-- A change of a viewer that keeps its limit and its rate keeps its climb. -/
theorem Climbing.modify (h : Climbing id limit newUserInstant k i n q) (id' : ℤ)
    (hvalid' : VideoQoS.Valid { q with users := Entries.modify id' f q.users })
    (hlimit : ∀ u, (f u).limit = u.limit) (hdelay : ∀ u, (f u).delay = u.delay ∨
      (f u).delay = { u.delay with responseDelayed := false }) :
  Climbing id limit newUserInstant k i n { q with users := Entries.modify id' f q.users }
  := by
  obtain ⟨u, husers, hlimit', hdelayed, hquick, hincrease, hown⟩ := h.viewer
  by_cases hid : id' = id
  · subst hid
    have husers' : Entries.modify id' f q.users = [(id', f u)] := by
      rw [husers]
      simp [Entries.modify]
    refine ⟨hvalid', h.newUserInstant, ⟨f u, husers', (hlimit u).trans hlimit', ?_⟩, h.fps⟩
    rcases hdelay u with heq | heq
    · rw [heq]
      exact ⟨hdelayed, hquick, hincrease, hown⟩
    · rw [heq]
      exact ⟨rfl, hquick, hincrease, hown⟩
  · have husers' : Entries.modify id' f q.users = q.users := by
      rw [husers]
      simp [Entries.modify, Ne.symm hid]
    exact h.of_eq hvalid' husers' rfl rfl

/-- A report of the viewer adds to its climb. -/
theorem Climbing.of_report (h : Climbing id limit newUserInstant k i n q) {linux : Bool}
    {delay : ℕ} (hnow : q.newUserInstant + 1000 ≤ now)
    (hshort : ∀ u, (id, u) ∈ q.users → (u.delay.addDelay (max delay 10)).avgDelay < 50)
    (hcall : q.userNetworkDelay linux now id delay = some q') (hvalid' : q'.Valid) :
  Climbing id limit newUserInstant k i (n + 1) q'
  := by
  obtain ⟨u, husers, hlimit, hdelayed, hquick, hincrease, -⟩ := h.viewer
  have hmem : (id, u) ∈ q.users := by
    simp [husers]
  have hu := h.valid.users id u hmem
  obtain ⟨d, hreport, hd, hadjusted⟩ := adjusted_of_userNetworkDelay h.valid hcall hmem
  obtain ⟨⟨fps, hrate, hlow, hhigh, hgrow⟩, hquick', hincrease', hdelayed'⟩ :=
    report_short (MIN_FPS_le_highestFps q) (hshort u hmem) hu.delay.quickIncreaseFpsCount
      hu.delay.increaseFpsCount hreport
  rw [highestFps_of_singleton hu husers, hlimit] at hgrow hhigh
  have husers' : q'.users = [(id, { u with delay := d })] := by
    rw [hadjusted.users, husers]
    simp [Entries.modify]
  have hu' : UserData.Valid { u with delay := d } :=
    hvalid'.users id _ (by simp [husers'])
  have hfps := hadjusted.fps
  rw [← hadjusted.users, adjustedFps_of_singleton (q := q.reorder q'.users) hu' husers'
    (hdelayed'.trans hdelayed) hnow] at hfps
  change q'.fps = max MIN_FPS (min (d.fps.getD INIT_FPS) u.limit) at hfps
  rw [hrate, hlimit, Option.getD_some, min_eq_left hhigh, max_eq_right hlow] at hfps
  refine ⟨hvalid', hadjusted.newUserInstant.trans h.newUserInstant, ?_, ?_⟩
  · refine ⟨_, husers', hlimit, hdelayed'.trans hdelayed, ?_, ?_, ?_⟩
    · change d.quickIncreaseFpsCount = _
      omega
    · change d.increaseFpsCount = _
      omega
    · intro _
      rw [hfps]
      exact ⟨hrate, hhigh⟩
  · have hbound := h.fps
    rw [hquick, hincrease] at hgrow
    omega

/-- An undisturbed call keeps the climb, and a report of the viewer adds to it. -/
theorem Climbing.call (hk : k < 3) (hi : i < 3) (h : Climbing id limit newUserInstant k i n q)
    {c : Call} (hc : Undisturbed id q (now, c)) (hcall : q.call b now c = some q') :
  Climbing id limit newUserInstant k i (n + (c.isReport id).toNat) q'
  := by
  have hvalid' := h.valid.of_call hcall
  obtain ⟨hnow, hc⟩ := hc
  cases c with
  | onConnectionOpen id' enableAbr => cases hc
  | onConnectionClose id' => cases hc
  | userCustomFps id' fps => cases hc
  | userAutoAdjustFps id' fps => cases hc
  | userImageQuality id' imageQuality time =>
      obtain rfl := Option.some.inj hcall
      rw [VideoQoS.userImageQuality] at hvalid' ⊢
      split_ifs at hvalid' ⊢
      · have hmodify := h.modify id' (f := fun u => { u with
          quality := some (time, convertQuality b.imageQuality imageQuality) })
          ⟨hvalid'.fps, h.valid.ratio, hvalid'.keys, hvalid'.users⟩ (fun _ => rfl)
          (fun _ => .inl rfl)
        exact hmodify.of_eq hvalid' rfl rfl rfl
      · exact h
  | userRecord id' v =>
      obtain rfl := Option.some.inj hcall
      exact h.modify id' hvalid' (fun _ => rfl) (fun _ => .inl rfl)
  | userNetworkDelay id' delay =>
      by_cases hid : id' = id
      · subst hid
        rw [Call.isReport, decide_eq_true rfl]
        apply h.of_report hnow _ hcall hvalid'
        intro u hu
        have hall := (of_decide_eq_true hc).resolve_left (not_not_intro rfl)
        have hshort := of_decide_eq_true (List.all_eq_true.mp hall _ hu)
        exact hshort.resolve_left (not_not_intro rfl)
      · rw [Call.isReport, decide_eq_false hid]
        obtain ⟨u, husers, -⟩ := h.viewer
        have hlookup : q.users.lookup id' = none := by
          rw [husers, List.lookup_eq_none_iff]
          simp [hid]
        change q.userNetworkDelay b.linux now id' delay = some q' at hcall
        rw [VideoQoS.userNetworkDelay, hlookup] at hcall
        apply h.of_adjusted hk hi hnow _ hvalid'
        exact adjusted_of_adjustFps hcall
  | userDelayResponseElapsed id' elapsed =>
      change q.userDelayResponseElapsed now id' elapsed = some q' at hcall
      rw [VideoQoS.userDelayResponseElapsed] at hcall
      split_ifs at hcall with hviewer hoverdue
      · exfalso
        obtain ⟨u, husers, -⟩ := h.viewer
        rcases of_decide_eq_true hc with hother | hanswered
        · have hlookup : q.users.lookup id' = none := by
            rw [husers, List.lookup_eq_none_iff]
            simp [hother]
          rw [hlookup] at hviewer
          cases hviewer
        · exact absurd hoverdue (Nat.not_lt_of_ge hanswered)
      · obtain rfl := Option.some.inj hcall
        exact h.modify id' hvalid' (fun _ => rfl) (fun _ => .inr rfl)
      · obtain rfl := Option.some.inj hcall
        exact h
  | ratio =>
      obtain rfl := Option.some.inj hcall
      rw [h.valid.getRatio]
      exact h
  | storeBitrate bitrate =>
      obtain rfl := Option.some.inj hcall
      exact h.of_eq hvalid' rfl rfl rfl
  | setSupportChangingQuality name support =>
      obtain rfl := Option.some.inj hcall
      exact h.of_eq hvalid' rfl rfl rfl
  | newDisplay name =>
      obtain rfl := Option.some.inj hcall
      exact h.of_eq hvalid' rfl rfl rfl
  | removeDisplay name =>
      obtain rfl := Option.some.inj hcall
      exact h.of_eq hvalid' rfl rfl rfl
  | updateDisplayData name sendCounter =>
      apply h.of_adjusted hk hi hnow _ hvalid'
      exact adjusted_of_updateDisplayData h.valid hcall

/-- Sixty reports of short delays bring the rate of a sole viewer to the highest that it allows. -/
theorem fps_eq_highestFps_of_run {start : ℕ} {before after : List (VideoQoS × ℕ × Call)}
    (hrun : Run (Step b) (VideoQoS.default start) before q) (husers : q.users = [(id, u)])
    (hdelayed : u.delay.responseDelayed = false) (hafter : Run (Step b) q after q')
    (hundisturbed : ∀ x ∈ after, Undisturbed id x.1 x.2) (hreports : 60 ≤ reports id after) :
  q'.fps = u.limit ∧ q'.highestFps = u.limit
  := by
  have hvalid := valid_of_run hrun
  have hu := hvalid.users id u (by simp [husers])
  have hk := hu.delay.quickIncreaseFpsCount
  have hi := hu.delay.increaseFpsCount
  have hclimb : (∀ x ∈ after, Undisturbed id x.1 x.2) → Climbing id u.limit q.newUserInstant
      u.delay.quickIncreaseFpsCount u.delay.increaseFpsCount (reports id after) q' := by
    apply hafter.history_invariant fun h q' => (∀ x ∈ h, Undisturbed id x.1 x.2) →
      Climbing id u.limit q.newUserInstant u.delay.quickIncreaseFpsCount u.delay.increaseFpsCount
        (reports id h) q'
    · intro _
      refine ⟨hvalid, rfl, ⟨u, husers, rfl, hdelayed, ?_, ?_, ?_⟩, ?_⟩
      · exact (Nat.mod_eq_of_lt hk).symm
      · exact (Nat.mod_eq_of_lt hi).symm
      · intro hpos
        exact (Nat.lt_irrefl 0 hpos).elim
      · change min u.limit (5 * ((_ + 0) / 3) + (_ + 0) / 3) ≤ q.fps
        omega
    · rintro h q₀ ⟨now, c⟩ q₁ - ih ⟨users, hperm, hcall⟩ hall
      simp only [List.forall_mem_append, List.forall_mem_singleton] at hall
      have hq₀ := ih hall.1
      obtain ⟨v, hv, -⟩ := hq₀.viewer
      have horder : users = q₀.users := by
        rw [hv] at hperm ⊢
        exact List.perm_singleton.mp hperm
      subst horder
      have hstep := hq₀.call hk hi hall.2 hcall
      have hcount : reports id (h ++ [(q₀, now, c)]) =
          reports id h + (c.isReport id).toNat := by
        rw [reports, List.countP_append, List.countP_singleton]
        cases c.isReport id <;> rfl
      rwa [hcount]
  have hend := hclimb hundisturbed
  obtain ⟨v, hv, hlimit, -, -, -, hown⟩ := hend.viewer
  have hhigh := highestFps_of_singleton (hend.valid.users id v (by simp [hv])) hv
  rw [hlimit] at hhigh
  refine ⟨?_, hhigh⟩
  have hle := (hown (by omega)).2
  have hmax : u.limit ≤ 120 := hu.limit.2
  have hbound := hend.fps
  omega

theorem fps_eq_highestFps_of_run_sample :
  ∃ h q, q.fps = 30 ∧
    Run (Step sampleBuild) (sampleNext (VideoQoS.default 0) (0, .onConnectionOpen 7 true)) h q
  := by
  obtain ⟨h, q, hrun, htest⟩ := exists_run sampleBuild
    (sampleNext (VideoQoS.default 0) (0, .onConnectionOpen 7 true))
    (List.replicate 60 (2000, .userNetworkDelay 7 20))
    (fun h _ => (∀ x ∈ h, Undisturbed 7 x.1 x.2) ∧ 60 ≤ reports 7 h) (by decide +kernel)
  obtain ⟨hundisturbed, hreports⟩ := of_decide_eq_true htest
  have husers : (sampleNext (VideoQoS.default 0) (0, .onConnectionOpen 7 true)).users
      = [((7 : ℤ), ({} : UserData))] := rfl
  obtain ⟨hfps, -⟩ := fps_eq_highestFps_of_run (Run.nil.snoc (step_sampleNext rfl)) husers rfl hrun
    hundisturbed hreports
  exact ⟨h, q, hfps, hrun⟩

end VynxDesk.VideoQos
