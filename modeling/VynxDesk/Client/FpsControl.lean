import VynxDesk.Server.VideoQosFps

/-!
# The frame rate that a client asks for

`fps_control` of `src/client/io_loop.rs` asks the server for a frame rate that is below the decoding
speed of the slowest display, and refreshes a display whose queue does not shorten.  What it asks
for is in the range that the server accepts, and is within 9/10 of the decoding speed of each active
display or is 1 (`sent_of_run`); so the server keeps its rate within that (`fps_le_of_control`).  A
display is refreshed at most twenty times, more than ten seconds apart (`refreshed_of_run`).
-/

namespace VynxDesk.IoLoop

/-- `VIDEO_QUEUE_SIZE`. -/
def videoQueueSize : ℕ := 120

/-- `FpsControl`, with the times of the refreshes. -/
structure FpsControl where
  refreshTimes : ℕ := 0
  lastRefreshInstant : Option ℕ := none
  idleCounter : ℕ := 0
  inactiveCounter : ℕ := 0
  refreshed : List ℕ := []
  deriving DecidableEq

/-- `VideoThread`: the length of its queue, and its decoding speed. -/
structure VideoThread where
  len : ℕ := 0
  decodeFps : Option ℕ := none
  fpsControl : FpsControl := {}
  deriving DecidableEq

/-- The displays and their threads. -/
abbrev Threads : Type := List (ℕ × VideoThread)

/-- What the client knows, and what it has asked the server for. -/
structure State where
  threads : Threads := []
  customFps : Option ℕ := none
  lastAutoFps : Option ℕ := none
  sent : List ℕ := []
  deriving DecidableEq

/-- `inactive_threshold`. -/
def inactiveThreshold : ℕ := 15

/-- The part of `fps_control` that counts how long a display has shown no frame. -/
def countInactive (realFps : ℕ → ℤ) (threads : Threads) : Threads :=
  threads.map fun t =>
    (t.1, { t.2 with
      fpsControl :=
        { t.2.fpsControl with
          inactiveCounter := if realFps t.1 = 0 then t.2.fpsControl.inactiveCounter + 1 else 0 } })

/-- `custom_fps` of `fps_control`. -/
def customLimit (customFps : Option ℕ) : ℕ :=
  let customFps := customFps.getD 30
  if customFps < 5 ∨ 120 < customFps then 30 else customFps

/-- `max_queue_len`. -/
def maxQueueLen (threads : Threads) : ℕ :=
  (threads.map fun t => t.2.len).max?.getD 0

/-- `min_decode_fps`: there is none when an active display has not been decoded yet. -/
def minDecodeFps (threads : Threads) : Option ℕ :=
  let speeds := (threads.filter fun t => t.2.fpsControl.inactiveCounter < inactiveThreshold).map
    fun t => t.2.decodeFps
  if none ∈ speeds then none else (speeds.filterMap id).min?

/-- `limited_fps`. -/
def limitedFps (direct : Bool) (minDecodeFps customFps : ℕ) : ℕ :=
  min (if direct then minDecodeFps * 9 / 10 else minDecodeFps * 4 / 5) customFps

/-- A change of `idle_counter`. -/
def VideoThread.idle (t : VideoThread) (idleCounter : ℕ) : VideoThread :=
  { t with fpsControl := { t.fpsControl with idleCounter } }

/-- `fps_trending` of a display: whether the rate should go up, if it should change. -/
def VideoThread.trending (limitedFps lastAutoFps : ℕ) (t : VideoThread) :
    Option Bool × VideoThread :=
  match t.decodeFps with
  | none => (none, t)
  | some decodeFps =>
      if inactiveThreshold < t.fpsControl.inactiveCounter then (none, t)
      else if (1 < t.len ∧ limitedFps < lastAutoFps) ∨ max 1 (decodeFps / 2) < t.len then
        (some false, t.idle 0)
      else if t.len ≤ 1 then
        let idleCounter := t.fpsControl.idleCounter + 1
        (if 3 < idleCounter ∧ lastAutoFps + 3 ≤ limitedFps then some true else none,
          t.idle idleCounter)
      else (none, t.idle 0)

/-- `auto_fps`. -/
def autoFps (limitedFps maxQueueLen : ℕ) (shouldDecrease : Bool) : ℕ :=
  let autoFps := if shouldDecrease ∧ limitedFps < maxQueueLen then limitedFps / 2 else limitedFps
  if autoFps < 1 then 1 else autoFps

/-- The end of `fps_control` for a display. -/
def VideoThread.refresh (minDecodeFps now : ℕ) (t : VideoThread) : VideoThread :=
  let ctl := t.fpsControl
  let late : Bool := ctl.lastRefreshInstant.any fun last => 10 < (now - last) / 1000
  if ctl.refreshTimes < 20 ∧ min minDecodeFps (videoQueueSize / 2) < t.len
      ∧ (ctl.refreshTimes = 0 ∨ late) then
    { t with
      fpsControl :=
        { ctl with
          refreshTimes := ctl.refreshTimes + 1
          lastRefreshInstant := some now
          refreshed := ctl.refreshed ++ [now] } }
  else t

/-- The client asks for a rate, unless it is the one it has asked for. -/
def State.ask (s : State) (autoFps : ℕ) : State :=
  if some autoFps ≠ s.lastAutoFps then
    { s with lastAutoFps := some autoFps, sent := s.sent ++ [autoFps] }
  else s

/-- `fps_control`. -/
def State.fpsControl (s : State) (direct : Bool) (realFps : ℕ → ℤ) (now : ℕ) : State :=
  let threads := countInactive realFps s.threads
  let customFps := customLimit s.customFps
  match minDecodeFps threads with
  | none => { s with threads }
  | some minDecode =>
      let limited := limitedFps direct minDecode customFps
      let lastAutoFps := s.lastAutoFps.getD customFps
      let trendings := threads.map fun t => (t.1, t.2.trending limited lastAutoFps)
      let shouldDecrease := trendings.any fun t => t.2.1 = some false
      let shouldIncrease := !shouldDecrease && trendings.any fun t => t.2.1 = some true
      let asked :=
        if s.lastAutoFps.isNone ∨ shouldDecrease ∨ shouldIncrease then
          s.ask (autoFps limited (maxQueueLen threads) shouldDecrease)
        else s
      { asked with threads := trendings.map fun t => (t.1, t.2.2.refresh minDecode now) }

/-- The events: a display begins; frames arrive or are decoded; the user sets a limit; a timer. -/
inductive Event where
  | newVideoThread (display : ℕ)
  | video (display len : ℕ) (decodeFps : Option ℕ)
  | custom (customFps : Option ℕ)
  | tick (direct : Bool) (realFps : ℕ → ℤ) (now : ℕ)

def State.step (s : State) : Event → State
  | .newVideoThread display => { s with threads := Entries.insert display {} s.threads }
  | .video display len decodeFps =>
      { s with threads := Entries.modify display (fun t => { t with len, decodeFps }) s.threads }
  | .custom customFps => { s with customFps }
  | .tick direct realFps now => s.fpsControl direct realFps now

/-- A step of the client. -/
def Step (s : State) (e : Event) (s' : State) : Prop :=
  s' = s.step e

/-! ### What is asked for -/

variable {s s' : State} {h : List (State × Event)}

/-- A rate is right for a tick: it is within 9/10 of the decoding speed of each active display or is
1, and within the limit of the user. -/
def Right (fps : ℕ) (x : State × Event) : Prop :=
  ∃ direct realFps now, x.2 = .tick direct realFps now ∧ fps ≤ customLimit x.1.customFps ∧
    ∀ t ∈ countInactive realFps x.1.threads, t.2.fpsControl.inactiveCounter < inactiveThreshold →
      ∃ decodeFps, t.2.decodeFps = some decodeFps ∧ fps ≤ max 1 (decodeFps * 9 / 10)

theorem customLimit_bounds (customFps : Option ℕ) :
  5 ≤ customLimit customFps ∧ customLimit customFps ≤ 120
  := by
  rw [customLimit]
  split_ifs <;> omega

/-- What `min_decode_fps` is at most. -/
theorem minDecodeFps_le {threads : Threads} {m : ℕ} (hmin : minDecodeFps threads = some m)
    {t : ℕ × VideoThread} (ht : t ∈ threads)
    (hactive : t.2.fpsControl.inactiveCounter < inactiveThreshold) :
  ∃ decodeFps, t.2.decodeFps = some decodeFps ∧ m ≤ decodeFps
  := by
  rw [minDecodeFps] at hmin
  generalize hspeeds : (threads.filter fun t =>
    decide (t.2.fpsControl.inactiveCounter < inactiveThreshold)).map (fun t => t.2.decodeFps)
      = speeds at hmin
  have hmem : t.2.decodeFps ∈ speeds := by
    rw [← hspeeds]
    exact List.mem_map.mpr ⟨t, List.mem_filter.mpr ⟨ht, decide_eq_true hactive⟩, rfl⟩
  split_ifs at hmin with hnone
  cases hdecode : t.2.decodeFps with
  | none => exact absurd (hdecode ▸ hmem) hnone
  | some decodeFps =>
      refine ⟨decodeFps, rfl, (List.min?_eq_some_iff.mp hmin).2 decodeFps ?_⟩
      exact List.mem_filterMap.mpr ⟨_, hmem, hdecode⟩

theorem autoFps_bounds (limited maxQueueLen : ℕ) (shouldDecrease : Bool) :
  1 ≤ autoFps limited maxQueueLen shouldDecrease ∧
    autoFps limited maxQueueLen shouldDecrease ≤ max 1 limited
  := by
  rw [autoFps]
  split_ifs <;> omega

theorem limitedFps_le (direct : Bool) (minDecode customFps : ℕ) :
  limitedFps direct minDecode customFps ≤ minDecode * 9 / 10 ∧
    limitedFps direct minDecode customFps ≤ customFps
  := by
  rw [limitedFps]
  split_ifs <;> omega

/-- What is asked for at a tick: nothing, or a rate that is right and another one than the last. -/
theorem sent_fpsControl (direct : Bool) (realFps : ℕ → ℤ) (now : ℕ) :
  ((s.fpsControl direct realFps now).sent = s.sent ∧
      (s.fpsControl direct realFps now).lastAutoFps = s.lastAutoFps) ∨
    ∃ fps, (s.fpsControl direct realFps now).sent = s.sent ++ [fps] ∧
      (s.fpsControl direct realFps now).lastAutoFps = some fps ∧ some fps ≠ s.lastAutoFps ∧
      1 ≤ fps ∧ Right fps (s, .tick direct realFps now)
  := by
  rw [State.fpsControl]
  dsimp only
  cases hmin : minDecodeFps (countInactive realFps s.threads) with
  | none => exact .inl ⟨rfl, rfl⟩
  | some minDecode =>
      dsimp only
      generalize s.lastAutoFps.getD (customLimit s.customFps) = lastAutoFps
      generalize hlimited : limitedFps direct minDecode (customLimit s.customFps) = limited
      obtain ⟨hdecode, hcustom⟩ := limitedFps_le direct minDecode (customLimit s.customFps)
      rw [hlimited] at hdecode hcustom
      generalize ((countInactive realFps s.threads).map fun t =>
        (t.1, t.2.trending limited lastAutoFps)) = trendings
      generalize (trendings.any fun t => decide (t.2.1 = some false)) = shouldDecrease
      split_ifs
      · obtain ⟨hlow, hhigh⟩ :=
          autoFps_bounds limited (maxQueueLen (countInactive realFps s.threads)) shouldDecrease
        generalize autoFps limited (maxQueueLen (countInactive realFps s.threads)) shouldDecrease
          = fps at hlow hhigh ⊢
        rw [State.ask]
        split_ifs with hnew
        · refine .inr ⟨fps, rfl, rfl, hnew, hlow, direct, realFps, now, rfl, ?_, ?_⟩
          · have hbounds := customLimit_bounds s.customFps
            dsimp only
            omega
          · intro t ht hactive
            obtain ⟨decodeFps, hspeed, hle⟩ := minDecodeFps_le hmin ht hactive
            refine ⟨decodeFps, hspeed, hhigh.trans (max_le_max_left _ (hdecode.trans ?_))⟩
            exact Nat.div_le_div_right (Nat.mul_le_mul_right _ hle)
        · exact .inl ⟨rfl, rfl⟩
      · exact .inl ⟨rfl, rfl⟩

/-- In every run no rate is asked for twice in a row, and each is right for the tick at which it is
asked for, and in the range that the server accepts. -/
theorem sent_of_run (hrun : Run Step {} h s) :
  s.lastAutoFps = s.sent.getLast? ∧ s.sent.IsChain (· ≠ ·) ∧
    ∀ fps ∈ s.sent, VideoQos.MIN_FPS ≤ fps ∧ fps ≤ VideoQos.MAX_FPS ∧ ∃ x ∈ h, Right fps x
  := by
  apply hrun.history_invariant fun h s => s.lastAutoFps = s.sent.getLast? ∧
    s.sent.IsChain (· ≠ ·) ∧
      ∀ fps ∈ s.sent, VideoQos.MIN_FPS ≤ fps ∧ fps ≤ VideoQos.MAX_FPS ∧ ∃ x ∈ h, Right fps x
  · exact ⟨rfl, .nil, by simp⟩
  · rintro h s e s' - ⟨hlast, hchain, hright⟩ rfl
    have hmore : ∀ fps ∈ s.sent, VideoQos.MIN_FPS ≤ fps ∧ fps ≤ VideoQos.MAX_FPS ∧
        ∃ x ∈ h ++ [(s, e)], Right fps x := by
      intro fps hfps
      obtain ⟨hlow, hhigh, x, hx, hfps⟩ := hright fps hfps
      exact ⟨hlow, hhigh, x, List.mem_append_left _ hx, hfps⟩
    cases e with
    | newVideoThread display => exact ⟨hlast, hchain, hmore⟩
    | video display len decodeFps => exact ⟨hlast, hchain, hmore⟩
    | custom customFps => exact ⟨hlast, hchain, hmore⟩
    | tick direct realFps now =>
        change (s.fpsControl direct realFps now).lastAutoFps
            = (s.fpsControl direct realFps now).sent.getLast? ∧
          (s.fpsControl direct realFps now).sent.IsChain _ ∧
            ∀ fps ∈ (s.fpsControl direct realFps now).sent, _
        obtain ⟨hsent, hsame⟩ | ⟨fps, hsent, hnew, hne, hlow, htick⟩ :=
          sent_fpsControl (s := s) direct realFps now
        · rw [hsent, hsame]
          exact ⟨hlast, hchain, hmore⟩
        · rw [hsent, hnew]
          refine ⟨List.getLast?_concat.symm, ?_, ?_⟩
          · refine List.isChain_append.mpr ⟨hchain, .singleton fps, ?_⟩
            intro last hmem first hfirst heq
            obtain rfl := Option.some.inj hfirst
            rw [← hlast, heq] at hmem
            exact hne hmem.symm
          · rw [List.forall_mem_append, List.forall_mem_singleton]
            refine ⟨hmore, hlow, ?_, _, List.mem_append_right _ (List.mem_singleton_self _), htick⟩
            obtain ⟨_, _, _, -, hcustom, -⟩ := htick
            exact hcustom.trans (customLimit_bounds _).2

/-- A rate of the client that a server has accepted from its viewer `id`: until the viewer asks for
another one, comes or goes, each adjustment of the server keeps the rate within 9/10 of the decoding
speed of each display that was active when the client asked, or at 1. -/
theorem fps_le_of_control {b : VideoQos.Build} {q q₁ q₂ : VideoQos.VideoQoS} {id : ℤ} {start now fps : ℕ}
    {u : VideoQos.UserData} {before after : List (VideoQos.VideoQoS × ℕ × VideoQos.Call)}
    (hrun : Run Step {} h s) (hfps : fps ∈ s.sent)
    (hbefore : Run (VideoQos.Step b) (.default start) before q) (hu : (id, u) ∈ q.users)
    (hstep : VideoQos.Step b q (now, .userCustomFps id fps) q₁)
    (hafter : Run (VideoQos.Step b) q₁ after q₂)
    (hkeep : ∀ x ∈ after, x.2.2.setsCustom id = false)
    (hadjusts : ∃ x ∈ after, x.2.2.adjusts x.1 = true) :
  ∃ x ∈ h, Right q₂.fps x
  := by
  obtain ⟨hlow, hhigh, x, hx, direct, realFps, now, htick, hcustom, hdecode⟩ :=
    (sent_of_run hrun).2.2 fps hfps
  have hle := VideoQos.fps_le_customFps hbefore hu hlow hhigh hstep hafter hkeep hadjusts
  refine ⟨x, hx, direct, realFps, now, htick, hle.trans hcustom, ?_⟩
  intro t ht hactive
  obtain ⟨decodeFps, hspeed, hright⟩ := hdecode t ht hactive
  exact ⟨decodeFps, hspeed, hle.trans hright⟩

/-- A display begins, and is decoded at 20 frames a second. -/
def sampleEvents : List Event :=
  [.newVideoThread 0, .video 0 0 (some 20), .tick true (fun _ => 20) 1000]

/-- A viewer comes, and asks for what the client sends then. -/
def sampleAsked : VideoQos.VideoQoS :=
  VideoQos.sampleNext
    (VideoQos.sampleNext (.default 0) (0, .onConnectionOpen 7 true)) (1000, .userCustomFps 7 18)

theorem fps_le_of_control_sample :
  ∃ x ∈ Run.trace State.step {} sampleEvents,
    Right (VideoQos.sampleNext sampleAsked (3000, .userNetworkDelay 7 20)).fps x
  := by
  have hrun : Run Step {} (Run.trace State.step {} sampleEvents) (sampleEvents.foldl State.step {}) :=
    Run.of_next (R := Step) (fun _ _ => rfl) _ _
  have hsent : 18 ∈ (sampleEvents.foldl State.step {}).sent := by
    decide +kernel
  have hopen : VideoQos.Step VideoQos.sampleBuild (.default 0) (0, .onConnectionOpen 7 true) _ :=
    VideoQos.step_sampleNext rfl
  have hviewer : ((7 : ℤ), ({} : VideoQos.UserData)) ∈
      (VideoQos.sampleNext (.default 0) (0, .onConnectionOpen 7 true)).users := by
    decide
  have hdelay : VideoQos.Step VideoQos.sampleBuild sampleAsked (3000, .userNetworkDelay 7 20) _ :=
    VideoQos.step_sampleNext (by decide +kernel)
  apply fps_le_of_control hrun hsent (Run.nil.snoc hopen) hviewer (VideoQos.step_sampleNext rfl)
    (Run.nil.snoc hdelay)
  · intro x hx
    obtain rfl := List.mem_singleton.mp hx
    rfl
  · exact ⟨_, List.mem_singleton_self _, rfl⟩

/-! ### What is refreshed -/

/-- The counter of a display and the time of its last refresh are those of its refreshes, of which
there are at most twenty, more than ten seconds apart. -/
structure FpsControl.Valid (ctl : FpsControl) : Prop where
  times : ctl.refreshTimes = ctl.refreshed.length
  last : ctl.lastRefreshInstant = ctl.refreshed.getLast?
  length : ctl.refreshed.length ≤ 20
  apart : ctl.refreshed.IsChain fun t t' => t + 11000 ≤ t'

/-- All displays are valid. -/
def Threads.Valid (threads : Threads) : Prop :=
  ∀ t ∈ threads, t.2.fpsControl.Valid

theorem FpsControl.valid_default :
  FpsControl.Valid {}
  := ⟨rfl, rfl, Nat.zero_le _, .nil⟩

theorem Threads.Valid.map {threads : Threads} (hvalid : threads.Valid)
    {f : ℕ × VideoThread → ℕ × VideoThread}
    (hf : ∀ t, t.2.fpsControl.Valid → (f t).2.fpsControl.Valid) :
  Threads.Valid (threads.map f)
  := by
  intro t ht
  obtain ⟨t', ht', rfl⟩ := List.mem_map.mp ht
  exact hf t' (hvalid t' ht')

theorem VideoThread.trending_valid {t : VideoThread} (hvalid : t.fpsControl.Valid)
    (limited lastAutoFps : ℕ) :
  (t.trending limited lastAutoFps).2.fpsControl.Valid
  := by
  have hidle : ∀ n, (t.idle n).fpsControl.Valid :=
    fun n => ⟨hvalid.times, hvalid.last, hvalid.length, hvalid.apart⟩
  rw [VideoThread.trending]
  split
  · exact hvalid
  · split_ifs
    · exact hvalid
    · exact hidle _
    · exact hidle _
    · exact hidle _

/-- A refresh comes more than ten seconds after the last one, and there were not enough. -/
theorem VideoThread.refresh_valid {t : VideoThread} (hvalid : t.fpsControl.Valid)
    (minDecode now : ℕ) :
  (t.refresh minDecode now).fpsControl.Valid
  := by
  rw [VideoThread.refresh]
  split_ifs with hrefresh
  · obtain ⟨henough, -, hlate⟩ := hrefresh
    constructor
    · simp [hvalid.times]
    · simp
    · rw [List.length_append, List.length_singleton, ← hvalid.times]
      exact henough
    · refine List.isChain_append.mpr ⟨hvalid.apart, .singleton now, ?_⟩
      intro last hlast first hfirst
      obtain rfl := Option.some.inj hfirst
      rw [← hvalid.last] at hlast
      rcases hlate with hzero | hlate
      · rw [hvalid.times, List.length_eq_zero_iff] at hzero
        rw [hvalid.last, hzero] at hlast
        cases hlast
      · rw [Option.mem_def.mp hlast, Option.any_some, decide_eq_true_eq] at hlate
        omega
  · exact hvalid

theorem Threads.Valid.fpsControl (hvalid : s.threads.Valid) (direct : Bool) (realFps : ℕ → ℤ)
    (now : ℕ) :
  (s.fpsControl direct realFps now).threads.Valid
  := by
  have hcounted : Threads.Valid (countInactive realFps s.threads) := by
    apply hvalid.map
    intro t ht
    exact ⟨ht.times, ht.last, ht.length, ht.apart⟩
  rw [State.fpsControl]
  dsimp only
  split
  · exact hcounted
  · dsimp only
    rw [List.map_map]
    apply hcounted.map
    intro t ht
    exact VideoThread.refresh_valid (VideoThread.trending_valid ht _ _) _ _

/-- In every run a display is refreshed at most twenty times since its thread began, more than ten
seconds apart. -/
theorem refreshed_of_run (hrun : Run Step {} h s) {display : ℕ} {thread : VideoThread}
    (hthread : (display, thread) ∈ s.threads) :
  thread.fpsControl.refreshed.length ≤ 20 ∧
    thread.fpsControl.refreshed.IsChain fun t t' => t + 11000 ≤ t'
  := by
  have hvalid : s.threads.Valid := by
    apply hrun.invariant (fun s => s.threads.Valid)
    · intro t ht
      cases ht
    · rintro s e s' hvalid rfl
      cases e with
      | newVideoThread display =>
          intro t ht
          rcases Entries.mem_insert.mp ht with rfl | ⟨ht, -⟩
          · exact FpsControl.valid_default
          · exact hvalid t ht
      | video display len decodeFps =>
          apply hvalid.map
          intro t ht
          split_ifs
          · exact ht
          · exact ht
      | custom customFps => exact hvalid
      | tick direct realFps now => exact hvalid.fpsControl direct realFps now
  have hctl := hvalid _ hthread
  exact ⟨hctl.length, hctl.apart⟩

/-- A queue that stays long, with a tick every six seconds. -/
def sampleLong : List Event :=
  [ .newVideoThread 0, .video 0 70 (some 20), .tick true (fun _ => 20) 1000
  , .tick true (fun _ => 20) 7000, .tick true (fun _ => 20) 13000 ]

theorem refreshed_of_run_sample :
  ∃ t ∈ (sampleLong.foldl State.step {}).threads, t.2.fpsControl.refreshed = [1000, 13000] ∧
    t.2.fpsControl.refreshed.IsChain fun t t' => t + 11000 ≤ t'
  := by
  have hrun : Run Step {} (Run.trace State.step {} sampleLong) (sampleLong.foldl State.step {}) :=
    Run.of_next (R := Step) (fun _ _ => rfl) _ _
  have hlong : ∃ t ∈ (sampleLong.foldl State.step {}).threads,
      t.2.fpsControl.refreshed = [1000, 13000] := by
    decide +kernel
  obtain ⟨⟨display, thread⟩, hmem, heq⟩ := hlong
  exact ⟨_, hmem, heq, (refreshed_of_run hrun hmem).2⟩

end VynxDesk.IoLoop
