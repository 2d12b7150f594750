import Mathlib.Data.Finset.Card
import VynxDesk.Lib.Run

/-!
# Reporting refused channels

`TunnelHandle::first_report_at` of `port_forward_mux.rs`: which refusals of the peer become a
dialog.  Times are nanoseconds since the tunnel was made.  The set of reasons is remembered as a
list of entries, each a reason and the time of its latest refusal.
-/

namespace VynxDesk.Mux

/-- `REPORT_AGAIN_AFTER`. -/
def reportAgainAfter : ℕ := 10000000000

/-- `MAX_REPORTED_OPEN_ERRORS`. -/
def maxReportedOpenErrors : ℕ := 8

/-- A call of `first_report_at`. -/
structure Refusal where
  message : String
  now : ℕ
  deriving DecidableEq

/-- `reported`. -/
abbrev Reported := List (String × ℕ)

namespace Reported

/-- `reported.retain(|_, last| now.duration_since(*last) < REPORT_AGAIN_AFTER)`. -/
def retain (now : ℕ) (reported : Reported) : Reported :=
  reported.filter fun entry => now - entry.2 < reportAgainAfter

/-- `*last = now` for the entry of a message. -/
def refresh (refusal : Refusal) (reported : Reported) : Reported :=
  reported.map fun entry =>
    if entry.1 = refusal.message then (entry.1, refusal.now) else entry

/-- `first_report_at`: the set after it, and what it returns. -/
def firstReportAt (reported : Reported) (refusal : Refusal) : Reported × Option String :=
  if refusal.message = "" then (reported, none)
  else
    let reported := reported.retain refusal.now
    if refusal.message ∈ reported.map Prod.fst then (reported.refresh refusal, none)
    else if maxReportedOpenErrors ≤ reported.length then (reported, none)
    else (reported ++ [(refusal.message, refusal.now)], some refusal.message)

/-- One call. -/
def Step (reported : Reported) (refusal : Refusal) (reported' : Reported) : Prop :=
  reported' = (reported.firstReportAt refusal).1

/-- A call tracks its refusal: its message is remembered with its time. -/
def Tracks (reported : Reported) (refusal : Refusal) : Prop :=
  (refusal.message, refusal.now) ∈ (reported.firstReportAt refusal).1

/-- What the calls of a history report. -/
def reports (h : List (Reported × Refusal)) : List String :=
  h.filterMap fun x => (x.1.firstReportAt x.2).2

variable {reported : Reported} {refusal : Refusal} {h : List (Reported × Refusal)}
  {x : Reported × Refusal}

/-- What a call does. -/
inductive Effect (reported : Reported) (refusal : Refusal) : Prop where
  /-- An empty message is ignored. -/
  | ignored (hempty : refusal.message = "")
      (h : reported.firstReportAt refusal = (reported, none))
  /-- The message is remembered: the call refreshes it. -/
  | refreshed (hmessage : refusal.message ≠ "")
      (hmem : refusal.message ∈ (reported.retain refusal.now).map Prod.fst)
      (h : reported.firstReportAt refusal = ((reported.retain refusal.now).refresh refusal, none))
  /-- The set is full: the refusal is not tracked. -/
  | full (hmessage : refusal.message ≠ "")
      (hmem : refusal.message ∉ (reported.retain refusal.now).map Prod.fst)
      (hfull : maxReportedOpenErrors ≤ (reported.retain refusal.now).length)
      (h : reported.firstReportAt refusal = (reported.retain refusal.now, none))
  /-- The message is remembered from now on, and reported. -/
  | reported (hmessage : refusal.message ≠ "")
      (hmem : refusal.message ∉ (reported.retain refusal.now).map Prod.fst)
      (hroom : (reported.retain refusal.now).length < maxReportedOpenErrors)
      (h : reported.firstReportAt refusal =
        (reported.retain refusal.now ++ [(refusal.message, refusal.now)], some refusal.message))

theorem effect (reported : Reported) (refusal : Refusal) : reported.Effect refusal
  := by
  by_cases hempty : refusal.message = ""
  · apply Effect.ignored hempty
    rw [firstReportAt, if_pos hempty]
  · by_cases hmem : refusal.message ∈ (reported.retain refusal.now).map Prod.fst
    · apply Effect.refreshed hempty hmem
      rw [firstReportAt, if_neg hempty, if_pos hmem]
    · by_cases hfull : maxReportedOpenErrors ≤ (reported.retain refusal.now).length
      · apply Effect.full hempty hmem hfull
        rw [firstReportAt, if_neg hempty, if_neg hmem, if_pos hfull]
      · apply Effect.reported hempty hmem (Nat.lt_of_not_le hfull)
        rw [firstReportAt, if_neg hempty, if_neg hmem, if_neg hfull]

@[simp]
theorem mem_retain {now : ℕ} {entry : String × ℕ} :
  entry ∈ reported.retain now ↔ entry ∈ reported ∧ now - entry.2 < reportAgainAfter
  := by
  simp [retain]

theorem map_fst_refresh : (reported.refresh refusal).map Prod.fst = reported.map Prod.fst
  := by
  rw [refresh, List.map_map]
  apply List.map_congr_left
  intro entry _
  dsimp only [Function.comp_apply]
  split_ifs
  · rfl
  · rfl

/-- The remembered set: its entries are of different, non-empty messages, and there are at most
`MAX_REPORTED_OPEN_ERRORS` of them. -/
structure Bounded (reported : Reported) : Prop where
  nodup : (reported.map Prod.fst).Nodup
  length : reported.length ≤ maxReportedOpenErrors

theorem Bounded.retain (h : Bounded reported) (now : ℕ) : Bounded (reported.retain now)
  := by
  have hsublist : (reported.retain now).Sublist reported := List.filter_sublist
  constructor
  · apply h.nodup.sublist (hsublist.map _)
  · apply hsublist.length_le.trans h.length

/-- A call keeps the remembered set within its bound. -/
theorem Bounded.next (h : Bounded reported) (refusal : Refusal) :
  Bounded (reported.firstReportAt refusal).1
  := by
  have hretained := h.retain refusal.now
  cases reported.effect refusal with
  | ignored _ heq =>
      rw [heq]
      exact h
  | refreshed _ _ heq =>
      rw [heq]
      constructor
      · rw [map_fst_refresh]
        exact hretained.nodup
      · simpa [refresh] using hretained.length
  | full _ _ _ heq =>
      rw [heq]
      exact hretained
  | reported _ hmem hroom heq =>
      rw [heq]
      constructor
      · rw [List.map_append, List.map_singleton, ← List.concat_eq_append]
        apply List.Nodup.concat hmem hretained.nodup
      · rw [List.length_append, List.length_singleton]
        exact hroom

/-- A message remembered within the last `REPORT_AGAIN_AFTER` stays remembered, as of a time that
is not earlier. -/
theorem kept_of_mem {message : String} {last : ℕ} (hmem : (message, last) ∈ reported)
    (hrecent : refusal.now - last < reportAgainAfter) (hclock : last ≤ refusal.now) :
  ∃ last', last ≤ last' ∧ last' ≤ refusal.now ∧
    (message, last') ∈ (reported.firstReportAt refusal).1
  := by
  have hretained : (message, last) ∈ reported.retain refusal.now :=
    mem_retain.mpr ⟨hmem, hrecent⟩
  cases reported.effect refusal with
  | ignored _ heq =>
      use last, le_rfl, hclock
      rw [heq]
      exact hmem
  | refreshed _ _ heq =>
      rw [heq]
      by_cases hsame : message = refusal.message
      · use refusal.now, hclock, le_rfl
        apply List.mem_map.mpr
        use (message, last), hretained
        rw [if_pos hsame]
      · use last, le_rfl, hclock
        apply List.mem_map.mpr
        use (message, last), hretained
        rw [if_neg hsame]
  | full _ _ _ heq =>
      use last, le_rfl, hclock
      rw [heq]
      exact hretained
  | reported _ _ _ heq =>
      use last, le_rfl, hclock
      rw [heq]
      apply List.mem_append_left _ hretained

/-- What is remembered after a call was remembered before it, or it is the call's own. -/
theorem mem_of_mem_next {entry : String × ℕ}
    (hmem : entry ∈ (reported.firstReportAt refusal).1) :
  entry ∈ reported ∨ refusal.message ≠ "" ∧ entry = (refusal.message, refusal.now)
  := by
  cases reported.effect refusal with
  | ignored _ heq =>
      rw [heq] at hmem
      left
      exact hmem
  | refreshed hmessage _ heq =>
      rw [heq] at hmem
      obtain ⟨old, hold, rfl⟩ := List.mem_map.mp hmem
      split_ifs with hsame
      · right
        rw [hsame]
        exact ⟨hmessage, rfl⟩
      · left
        apply (mem_retain.mp hold).1
  | full _ _ _ heq =>
      rw [heq] at hmem
      left
      apply (mem_retain.mp hmem).1
  | reported hmessage _ _ heq =>
      rw [heq, List.mem_append, List.mem_singleton] at hmem
      rcases hmem with hold | hnew
      · left
        apply (mem_retain.mp hold).1
      · right
        exact ⟨hmessage, hnew⟩

/-- A call that reports tracks its refusal. -/
theorem reported_of_some {message : String}
    (h : (reported.firstReportAt refusal).2 = some message) :
  message = refusal.message ∧ refusal.message ≠ "" ∧ reported.Tracks refusal ∧
    refusal.message ∉ (reported.retain refusal.now).map Prod.fst ∧
    (reported.retain refusal.now).length < maxReportedOpenErrors
  := by
  cases reported.effect refusal with
  | ignored _ heq => simp [heq] at h
  | refreshed _ _ heq => simp [heq] at h
  | full _ _ _ heq => simp [heq] at h
  | reported hmessage hmem hroom heq =>
      rw [heq, Option.some_inj] at h
      refine ⟨h.symm, hmessage, ?_, hmem, hroom⟩
      rw [Tracks, heq]
      apply List.mem_append_right _ (List.mem_singleton_self _)

/-- The times of a history do not go back. -/
def Clocked (h : List (Reported × Refusal)) : Prop :=
  (h.map fun x => x.2.now).Pairwise (· ≤ ·)

theorem clocked_concat :
  Clocked (h ++ [x]) ↔ Clocked h ∧ ∀ y ∈ h, y.2.now ≤ x.2.now
  := by
  simp only [Clocked, List.map_append, List.map_singleton, List.pairwise_append,
    List.pairwise_singleton, List.mem_singleton, forall_eq, List.forall_mem_map, true_and]

/-- What is remembered was refused at the time that is remembered. -/
theorem refused_of_run (hrun : Run Step [] h reported) :
  ∀ entry ∈ reported, entry.1 ≠ "" ∧ ∃ x ∈ h, x.2 = ⟨entry.1, entry.2⟩
  := by
  induction hrun with
  | nil =>
      intro entry hentry
      cases hentry
  | snoc _ hstep ih =>
      intro entry hentry
      rw [hstep] at hentry
      rcases mem_of_mem_next hentry with hold | ⟨hmessage, rfl⟩
      · obtain ⟨hnonempty, x, hx, hrefused⟩ := ih entry hold
        use hnonempty, x, List.mem_append_left _ hx
      · use hmessage
        simp

/-- A refusal that was tracked is remembered for `REPORT_AGAIN_AFTER`. -/
theorem remembered_of_run (hrun : Run Step [] h reported) (hclock : Clocked h) :
  ∀ x ∈ h, x.1.Tracks x.2 → ∀ now, (∀ y ∈ h, y.2.now ≤ now) →
    now - x.2.now < reportAgainAfter →
    ∃ last, x.2.now ≤ last ∧ last ≤ now ∧ (x.2.message, last) ∈ reported
  := by
  induction hrun with
  | nil =>
      intro x hx
      cases hx
  | @snoc h reported _ refusal hrun hstep ih =>
      obtain ⟨hclock, hlast⟩ := clocked_concat.mp hclock
      intro x hx htracks now hnow hrecent
      have hbound : refusal.now ≤ now := hnow (reported, refusal) (by simp)
      rw [List.mem_append, List.mem_singleton] at hx
      rw [hstep]
      rcases hx with hx | rfl
      · obtain ⟨last, hfrom, hupto, hmem⟩ := ih hclock x hx htracks refusal.now hlast (by omega)
        obtain ⟨last', hlater, hupto', hkept⟩ := kept_of_mem hmem (by omega) hupto
        use last', hfrom.trans hlater, hupto'.trans hbound, hkept
      · use refusal.now, le_rfl, hbound, htracks

/-- The calls of a history that came within `REPORT_AGAIN_AFTER` from `start` on. -/
def window (start : ℕ) (h : List (Reported × Refusal)) : List (Reported × Refusal) :=
  h.filter fun x => start ≤ x.2.now ∧ x.2.now - start < reportAgainAfter

/-- The reasons refused within `REPORT_AGAIN_AFTER` before `now`. -/
def recent (now : ℕ) (h : List (Reported × Refusal)) : Finset String :=
  ((h.filter fun x => x.2.message ≠ "" ∧ now - x.2.now < reportAgainAfter).map
    fun x => x.2.message).toFinset

/-- The dialogs are limited: the remembered set is; calls in a window shorter than
`REPORT_AGAIN_AFTER` report at most `MAX_REPORTED_OPEN_ERRORS` messages, all different; a call
reports its own message, and that only when every tracked refusal of it is `REPORT_AGAIN_AFTER`
ago; and a message that was not refused since is reported when fewer than
`MAX_REPORTED_OPEN_ERRORS` reasons were. -/
structure Limited (h : List (Reported × Refusal)) (reported : Reported) : Prop where
  remembered : (∀ x ∈ h, x.1.length ≤ maxReportedOpenErrors) ∧
    reported.length ≤ maxReportedOpenErrors
  window : ∀ start, (reports (window start h)).length ≤ maxReportedOpenErrors ∧
    (reports (window start h)).Nodup
  again : ∀ before x after, h = before ++ x :: after →
    ∀ message, (x.1.firstReportAt x.2).2 = some message → message = x.2.message ∧
      ∀ y ∈ before, y.1.Tracks y.2 → y.2.message = message →
        reportAgainAfter ≤ x.2.now - y.2.now
  heard : ∀ before x after, h = before ++ x :: after → x.2.message ≠ "" →
    x.2.message ∉ recent x.2.now before → (recent x.2.now before).card < maxReportedOpenErrors →
      (x.1.firstReportAt x.2).2 = some x.2.message

theorem bounded_of_run (hrun : Run Step [] h reported) :
  Bounded reported
  := by
  apply hrun.invariant Bounded
  · exact ⟨List.nodup_nil, Nat.zero_le _⟩
  · rintro reported refusal _ hbounded rfl
    apply hbounded.next refusal

theorem clocked_before {before after : List (Reported × Refusal)}
    (hclock : Clocked (before ++ x :: after)) :
  Clocked before ∧ ∀ y ∈ before, y.2.now ≤ x.2.now
  := by
  have hsublist : (before ++ [x]).Sublist (before ++ x :: after) := by
    simp
  apply clocked_concat.mp
  apply List.Pairwise.sublist (hsublist.map _) hclock

/-- A message whose refusal is still tracked is not reported. -/
theorem again_of_run (hrun : Run Step [] h reported) (hclock : Clocked h)
    (hlast : ∀ y ∈ h, y.2.now ≤ refusal.now) {message : String}
    (hreport : (reported.firstReportAt refusal).2 = some message) (hx : x ∈ h)
    (htracks : x.1.Tracks x.2) (hmessage : x.2.message = message) :
  reportAgainAfter ≤ refusal.now - x.2.now
  := by
  obtain ⟨rfl, _, _, hforgotten, _⟩ := reported_of_some hreport
  by_contra hrecent
  obtain ⟨last, hfrom, _, hmem⟩ :=
    remembered_of_run hrun hclock x hx htracks refusal.now hlast (Nat.lt_of_not_le hrecent)
  apply hforgotten
  apply List.mem_map.mpr
  use (x.2.message, last), mem_retain.mpr ⟨hmem, by omega⟩, hmessage

/-- What was reported in the window of a call is still remembered when it comes. -/
theorem reports_subset (hrun : Run Step [] h reported) (hclock : Clocked h)
    (hlast : ∀ y ∈ h, y.2.now ≤ refusal.now) {start : ℕ}
    (hwindow : refusal.now - start < reportAgainAfter) :
  reports (Reported.window start h) ⊆ (reported.retain refusal.now).map Prod.fst
  := by
  intro message hmessage
  obtain ⟨x, hx, hreport⟩ := List.mem_filterMap.mp hmessage
  obtain ⟨hx, hin⟩ := List.mem_filter.mp hx
  obtain ⟨rfl, _, htracks, _⟩ := reported_of_some hreport
  rw [decide_eq_true_eq] at hin
  obtain ⟨last, hfrom, _, hmem⟩ :=
    remembered_of_run hrun hclock x hx htracks refusal.now hlast (by omega)
  apply List.mem_map.mpr
  use (x.2.message, last), mem_retain.mpr ⟨hmem, by omega⟩

theorem reports_concat (h : List (Reported × Refusal)) (x : Reported × Refusal) :
  reports (h ++ [x]) = reports h ++ (x.1.firstReportAt x.2).2.toList
  := by
  rw [reports, List.filterMap_append, reports]
  rcases hreport : (x.1.firstReportAt x.2).2 with _ | message
  all_goals simp [hreport]

/-- At most `MAX_REPORTED_OPEN_ERRORS` messages are reported in a window, all different. -/
theorem window_of_run (hrun : Run Step [] h reported) (hclock : Clocked h) (start : ℕ) :
  (reports (Reported.window start h)).length ≤ maxReportedOpenErrors ∧
    (reports (Reported.window start h)).Nodup
  := by
  induction hrun with
  | nil => exact ⟨Nat.zero_le _, List.nodup_nil⟩
  | @snoc h reported _ refusal hrun _ ih =>
      obtain ⟨hclock, hlast⟩ := clocked_concat.mp hclock
      obtain ⟨hlength, hnodup⟩ := ih hclock
      by_cases hin : start ≤ refusal.now ∧ refusal.now - start < reportAgainAfter
      · have hwindow : Reported.window start (h ++ [(reported, refusal)]) =
            Reported.window start h ++ [(reported, refusal)] := by
          simp [Reported.window, hin]
        rw [hwindow, reports_concat]
        rcases hreport : (reported.firstReportAt refusal).2 with _ | message
        · rw [Option.toList_none, List.append_nil]
          exact ⟨hlength, hnodup⟩
        · obtain ⟨rfl, _, _, hforgotten, hroom⟩ := reported_of_some hreport
          have hsubset := reports_subset hrun hclock hlast hin.2
          have hbefore : (reports (Reported.window start h)).length < maxReportedOpenErrors := by
            apply Nat.lt_of_le_of_lt _ hroom
            have hle := (hnodup.subperm hsubset).length_le
            rw [List.length_map] at hle
            exact hle
          have hnew : refusal.message ∉ reports (Reported.window start h) := by
            intro hmem
            apply hforgotten (hsubset hmem)
          rw [Option.toList_some]
          constructor
          · rw [List.length_append, List.length_singleton]
            exact hbefore
          · rw [← List.concat_eq_append]
            apply List.Nodup.concat hnew hnodup
      · have hwindow : Reported.window start (h ++ [(reported, refusal)]) =
            Reported.window start h := by
          simp [Reported.window, hin]
        rw [hwindow]
        exact ⟨hlength, hnodup⟩

/-- A message that was not refused lately is reported when few reasons were. -/
theorem heard_of_run (hrun : Run Step [] h reported) (hmessage : refusal.message ≠ "")
    (hfresh : refusal.message ∉ recent refusal.now h)
    (hfew : (recent refusal.now h).card < maxReportedOpenErrors) :
  (reported.firstReportAt refusal).2 = some refusal.message
  := by
  have hsubset : ∀ message ∈ (reported.retain refusal.now).map Prod.fst,
      message ∈ recent refusal.now h := by
    intro message hmem
    obtain ⟨entry, hentry, rfl⟩ := List.mem_map.mp hmem
    obtain ⟨hold, hrecent⟩ := mem_retain.mp hentry
    obtain ⟨hnonempty, x, hx, hrefused⟩ := refused_of_run hrun entry hold
    rw [recent, List.mem_toFinset]
    apply List.mem_map.mpr
    use x
    constructor
    · rw [List.mem_filter, hrefused]
      simpa [hx] using ⟨hnonempty, hrecent⟩
    · rw [hrefused]
  cases reported.effect refusal with
  | ignored hempty _ => exact absurd hempty hmessage
  | refreshed _ hmem _ => exact absurd (hsubset _ hmem) hfresh
  | full _ _ hfull _ =>
      have hnodup := ((bounded_of_run hrun).retain refusal.now).nodup
      have hcard := Finset.card_le_card (s := ((reported.retain refusal.now).map Prod.fst).toFinset)
        (fun message hmem => hsubset message (List.mem_toFinset.mp hmem))
      rw [List.toFinset_card_of_nodup hnodup, List.length_map] at hcard
      omega
  | reported _ _ _ heq => rw [heq]

/-- In every run of calls whose times do not go back, the dialogs are limited. -/
theorem limited_of_run {h : List (Reported × Refusal)} (hrun : Run Step [] h reported)
    (hclock : Clocked h) :
  Limited h reported
  := by
  constructor
  · constructor
    · intro x hx
      obtain ⟨before, after, rfl⟩ := List.append_of_mem hx
      apply (bounded_of_run hrun.before.1).length
    · apply (bounded_of_run hrun).length
  · apply window_of_run hrun hclock
  · rintro before x after rfl message hreport
    obtain ⟨hbefore, hlast⟩ := clocked_before hclock
    apply And.intro (reported_of_some hreport).1
    intro y hy
    apply again_of_run hrun.before.1 hbefore hlast hreport hy
  · rintro before x after rfl
    apply heard_of_run hrun.before.1

/-- The reason of a burst is reported, then again after a quiet spell. -/
def sampleBurst : List Refusal :=
  [⟨"down", 0⟩, ⟨"down", 8000000000⟩, ⟨"down", 16000000000⟩, ⟨"down", 27000000000⟩]

/-- The set after a call. -/
def next (reported : Reported) (refusal : Refusal) : Reported := (reported.firstReportAt refusal).1

theorem limited_burst :
  reports (Run.trace next [] sampleBurst) = ["down", "down"] ∧
    Limited (Run.trace next [] sampleBurst) (sampleBurst.foldl next [])
  := by
  constructor
  · decide +kernel
  · apply limited_of_run
    · apply Run.of_next
      intro reported refusal
      rfl
    · rw [Clocked]
      decide +kernel

end Reported

end VynxDesk.Mux
