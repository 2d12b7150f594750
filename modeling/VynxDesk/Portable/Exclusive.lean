import VynxDesk.Portable.Pending

/-!
# Launches exclude each other

A launch is to keep every other one out while it is pending, and its token is to open one
connection at most.  `STARTING` alone sees to that, and most steps that reset it do not look whose
launch it stands for: a second launch gets through before the first has started its helper, and the
two mix up the shared memory (`not_exclusive`).  When every step that resets `STARTING`, or clears
the shared memory of a failed launch, finds no other launch pending, launches exclude each other,
and tokens are used once (`exclusive_of_run`).
-/

namespace VynxDesk.Portable

namespace System

variable {Token Name : Type*} {token : ℕ → Token} {name : ℕ → Name} {s : System Token Name}
  {n : ℕ}

/-! ## The check -/

/-- A launch that passes is pending, and no other one is. -/
theorem Inv.launch (h : Inv token name s) (hnone : s.pending = []) :
  Inv token name { s with
    starting := true
    startingToken := s.startingToken + 1
    launches := Function.update s.launches (s.startingToken + 1) (some .clearing)
    pending := s.pending ++ [s.startingToken + 1] }
  := by
  have hnew : s.launches (s.startingToken + 1) = none := by
    rw [Option.eq_none_iff_forall_not_mem]
    intro phase hphase
    have hle := h.known _ phase hphase
    omega
  have hkeep : ∀ m, s.Late m →
      (s.setLaunch (s.startingToken + 1) .clearing).Late m := by
    rintro m ⟨phase, hm, hlate⟩
    apply Late.setLaunch ⟨phase, hm, hlate⟩
    rintro rfl
    rw [hnew] at hm
    cases hm
  have hold : ∀ m phase, (s.setLaunch (s.startingToken + 1) .clearing).launches m = some phase →
      phase ≠ .clearing → s.launches m = some phase := by
    intro m phase hm hphase
    rcases launches_setLaunch hm with ⟨_, hclearing⟩ | ⟨_, hm⟩
    · cases hphase hclearing
    · exact hm
  refine { h with
    starting := ?_, latest := ?_, known := ?_, early := ?_, cleared := ?_, creating := ?_,
    storing := ?_, belongs := ?_, handshake := ?_, accepted := ?_, conns := ?_, watchdogs := ?_,
    helpers := ?_, oneTime := ⟨h.oneTime.once, h.oneTime.uncleared⟩ }
  · intro _
    rfl
  · intro m hm
    rw [hnone] at hm
    apply List.mem_singleton.mp hm
  · intro m phase hm
    rcases launches_setLaunch hm with ⟨rfl, _⟩ | ⟨_, hm⟩
    · apply Nat.le_refl
    · apply Nat.le_succ_of_le (h.known m phase hm)
  · intro m phase hm hearly
    rcases launches_setLaunch hm with ⟨rfl, _⟩ | ⟨_, hm⟩
    · simp
    · apply List.mem_append_left _ (h.early m phase hm hearly)
  · intro m hm
    apply Nat.le_succ_of_le (h.cleared m hm)
  · intro m hm
    apply h.creating m (hold m _ hm nofun)
  · intro m hm
    apply h.storing m (hold m _ hm nofun)
  · intro tok htok
    obtain ⟨m, hm, hlate, hname⟩ := h.belongs tok htok
    exact ⟨m, hm, hkeep m hlate, hname⟩
  · intro hs hhs
    obtain ⟨m, hm, hlate, hname⟩ := h.handshake hs hhs
    exact ⟨m, hm, hkeep m hlate, hname⟩
  · intro tok htok
    obtain ⟨hne, m, hm, hlate⟩ := h.accepted tok htok
    exact ⟨hne, m, hm, hkeep m hlate⟩
  · intro k c hc
    obtain ⟨m, hm, hlate⟩ := h.conns k c hc
    exact ⟨m, hm, hkeep m hlate⟩
  · intro m w hw
    apply hkeep m (h.watchdogs m w hw)
  · intro m hm
    apply hkeep m (h.helpers m hm)

/-- What passes the check finds no launch pending, if a stale `STARTING` is nobody's. -/
theorem Inv.pending_of_passes (h : Inv token name s) {running process : Bool}
    (hpasses : s.passes running process = true)
    (hstale : s.isStale running process = true → s.pending = []) :
  s.pending = []
  := by
  by_contra hpending
  have hstarting := h.starting hpending
  rw [passes, hstarting] at hpasses
  cases hisStale : s.isStale running process with
  | true => apply hpending (hstale hisStale)
  | false => simp [hisStale] at hpasses

theorem Inv.check (h : Inv token name s) {running process : Bool}
    (hstale : s.isStale running process = true → s.pending = []) :
  Inv token name (s.check running process)
  := by
  rw [System.check]
  split
  next hpasses => apply h.launch (h.pending_of_passes hpasses hstale)
  next =>
      refine { h with
        starting := ?_, oneTime := ⟨h.oneTime.once, h.oneTime.uncleared⟩ }
      intro hpending
      rw [h.starting hpending]
      cases hisStale : s.isStale running process with
      | true => cases hpending (hstale hisStale)
      | false => rfl

/-! ## Watchdogs, handshakes and connections -/

theorem Inv.setWatchdog (h : Inv token name s) (hn : s.Late n) (w : Watchdog) :
  Inv token name (s.setWatchdog n w)
  := by
  refine { h with
    watchdogs := ?_, oneTime := ⟨h.oneTime.once, h.oneTime.uncleared⟩ }
  intro m w' hw'
  change Function.update s.watchdogs n (some w) m = some w' at hw'
  rcases eq_or_ne m n with rfl | hne
  · exact hn
  · rw [Function.update_of_ne hne] at hw'
    apply h.watchdogs m w' hw'

theorem Inv.setConn (h : Inv token name s) {k : ℕ} {c : Conn Token}
    (hc : ∃ n, token n = c.token ∧ s.Late n) :
  Inv token name (s.setConn k c)
  := by
  refine { h with
    conns := ?_, oneTime := ⟨h.oneTime.once, h.oneTime.uncleared⟩ }
  intro k' c' hk'
  change Function.update s.conns k (some c) k' = some c' at hk'
  rcases eq_or_ne k' k with rfl | hne
  · rw [Function.update_self] at hk'
    obtain rfl := Option.some.inj hk'
    exact hc
  · rw [Function.update_of_ne hne] at hk'
    apply h.conns k' c' hk'

/-- A watchdog goes on; it resets `STARTING` while no other launch is pending. -/
theorem Inv.watch (h : Inv token name s) {w : Watchdog} (hw : s.watchdogs n = some w)
    (hown : w = .due → ∀ m ∈ s.pending, m = n) {s' : System Token Name}
    (hs' : s.watch n w = some s') :
  Inv token name s'
  := by
  have hn := h.watchdogs n w hw
  cases w with
  | asleep =>
      obtain rfl := Option.some.inj hs'
      apply h.setWatchdog hn
  | readToken current =>
      obtain rfl := Option.some.inj hs'
      apply h.setWatchdog hn
  | readStarting current starting =>
      obtain rfl := Option.some.inj hs'
      apply h.setWatchdog hn
  | due =>
      obtain rfl := Option.some.inj hs'
      apply Inv.reset ((h.setWatchdog hn .done).ends hn)
      apply pending_ends (hown rfl)
  | done => cases hs'

/-- A handshake that succeeds accepts a token that was not accepted before. -/
theorem Inv.succeed (h : Inv token name s) {tok : Token} {shmemName : Option Name}
    (hhs : s.handshake = some ⟨tok, shmemName, false⟩) (k : ℕ) :
  Inv token name (s.succeed k tok)
  := by
  obtain ⟨n, hn, hlate, _⟩ := h.handshake _ hhs
  obtain ⟨hfresh, hne⟩ := h.fresh _ hhs rfl
  have hconn := h.setConn (k := k) (c := ⟨tok, .waiting⟩) ⟨n, hn, hlate⟩
  refine { hconn with
    handshake := nofun, fresh := nofun, accepted := ?_, oneTime := ⟨?_, h.oneTime.uncleared⟩ }
  · intro tok' htok'
    rcases List.mem_append.mp htok' with htok' | htok'
    · apply h.accepted tok' htok'
    · obtain rfl := List.mem_singleton.mp htok'
      exact ⟨hne, n, hn, hlate⟩
  · apply List.nodup_append.mpr ⟨h.oneTime.once, List.nodup_singleton tok, ?_⟩
    rintro x hx y hy rfl
    obtain rfl := List.mem_singleton.mp hy
    apply hfresh hx

section

variable [DecidableEq Token]

/-- A token that is presented is consumed if it is the stored one. -/
theorem Inv.present (htoken : Function.Injective token) (h : Inv token name s) (candidate : Token) :
  Inv token name (s.present candidate)
  := by
  rw [System.present, Runtime.consumeRuntimeIpcTokenIfMatch]
  by_cases hstored : s.runtime.ipcRuntimeToken = some candidate
  · rw [if_pos hstored]
    obtain ⟨n, hn, hlate, hname⟩ := h.belongs candidate hstored
    have hstoring : ∀ m, s.launches m ≠ some .storing := by
      intro m hm
      rw [(h.storing m hm).1] at hstored
      cases hstored
    refine { h with
      creating := ?_, storing := ?_, belongs := nofun, handshake := ?_, fresh := ?_,
      accepted := ?_, oneTime := ⟨h.oneTime.once, ?_⟩ }
    · intro m hm
      exact ⟨rfl, (h.creating m hm).2⟩
    · intro m hm
      cases hstoring m hm
    · intro hs hhs
      obtain rfl := Option.some.inj hhs
      exact ⟨n, hn, hlate, hname⟩
    · intro hs hhs _
      obtain rfl := Option.some.inj hhs
      constructor
      · intro haccepted
        apply (h.accepted candidate haccepted).1 hstored
      · exact nofun
    · intro tok htok
      exact ⟨nofun, (h.accepted tok htok).2⟩
    · intro x hx i hi m hm
      rcases List.mem_append.mp hx with hx | hx
      · apply h.oneTime.uncleared x hx i hi m hm
      · obtain rfl := List.mem_singleton.mp hx
        obtain rfl := htoken (hi.trans hn.symm)
        apply h.uncleared i hname m hm
  · rw [if_neg hstored]
    exact h

/-- A handshake that fails restores its token, unless the shared memory is another one. -/
theorem Inv.refuse [DecidableEq Name] (hname : Function.Injective name) (h : Inv token name s)
    {tok : Token} {shmemName : Option Name}
    (hhs : s.handshake = some ⟨tok, shmemName, false⟩) (writable : Bool) :
  Inv token name (s.refuse ⟨tok, shmemName, false⟩ writable)
  := by
  obtain ⟨n, hn, hlate, hshmemName⟩ := h.handshake _ hhs
  obtain ⟨hfresh, hne⟩ := h.fresh _ hhs rfl
  have hnone : ∀ m phase, s.launches m = some phase → phase.early = true →
      s.runtime.ipcRuntimeToken = none → s.runtime.shmemRuntimeName ≠ some (name n) →
      (s.refuse ⟨tok, shmemName, false⟩ writable).runtime.ipcRuntimeToken = none := by
    intro m phase hm hearly htok hother
    rw [Option.eq_none_iff_forall_not_mem]
    intro stored hstored
    rcases Runtime.ipcRuntimeToken_restore hstored with hstored | ⟨_, hsame⟩
    · rw [htok] at hstored
      cases hstored
    · apply hother (hsame.trans hshmemName)
  refine { h with
    creating := ?_, storing := ?_, belongs := ?_, uncleared := ?_, handshake := ?_, fresh := ?_,
    accepted := ?_, oneTime := ⟨h.oneTime.once, h.oneTime.uncleared⟩ }
  · intro m hm
    obtain ⟨htok, hnoName⟩ := h.creating m hm
    constructor
    · apply hnone m _ hm rfl htok
      rw [hnoName]
      exact nofun
    · apply (s.runtime.shmemRuntimeName_restore tok shmemName writable).trans hnoName
  · intro m hm
    obtain ⟨htok, hown⟩ := h.storing m hm
    constructor
    · apply hnone m _ hm rfl htok
      rw [hown]
      intro hsame
      obtain rfl := hname (Option.some.inj hsame)
      cases hlate.not_early hm
    · apply (s.runtime.shmemRuntimeName_restore tok shmemName writable).trans hown
  · intro stored hstored
    have hkept := s.runtime.shmemRuntimeName_restore tok shmemName writable
    rcases Runtime.ipcRuntimeToken_restore hstored with hstored | ⟨rfl, hsame⟩
    · obtain ⟨m, hm, hlate', hnamed⟩ := h.belongs stored hstored
      exact ⟨m, hm, hlate', hkept.trans hnamed⟩
    · exact ⟨n, hn, hlate, hkept.trans (hsame.trans hshmemName)⟩
  · intro m hm
    apply h.uncleared m
    rwa [← s.runtime.shmemRuntimeName_restore tok shmemName writable]
  · intro hs hhs'
    obtain rfl := Option.some.inj hhs'
    exact ⟨n, hn, hlate, hshmemName⟩
  · intro hs hhs' hrefusing
    obtain rfl := Option.some.inj hhs'
    cases hrefusing
  · intro tok' htok'
    obtain ⟨hne', hlate'⟩ := h.accepted tok' htok'
    apply And.intro _ hlate'
    intro hstored
    rcases Runtime.ipcRuntimeToken_restore hstored with hstored | ⟨rfl, _⟩
    · apply hne' hstored
    · apply hfresh htok'

end

/-! ## Steps and runs -/

variable [DecidableEq Token] in
/-- A connection goes on, and the launch of its token is no longer pending. -/
theorem Inv.connEnds (htoken : Function.Injective token) (h : Inv token name s) {k : ℕ}
    {c : Conn Token} (hc : s.conns k = some c) (phase : ConnPhase) :
  Inv token name ((s.setConn k ⟨c.token, phase⟩).endsToken token c.token)
  := by
  have hconn := h.conns k c hc
  have hset : Inv token name (s.setConn k ⟨c.token, phase⟩) := h.setConn hconn
  exact hset.endsToken htoken hconn

section

variable [DecidableEq Token] [DecidableEq Name]

/-- The steps that are orderly keep the invariant. -/
theorem Inv.step (htoken : Function.Injective token) (hname : Function.Injective name)
    (h : Inv token name s) {i : Label Token} (hi : Orderly token s i) {s' : System Token Name}
    (hstep : Step token name s i s') :
  Inv token name s'
  := by
  rw [Step, System.step.eq_def] at hstep
  cases i with
  | call t =>
      dsimp only at hstep
      split at hstep
      next =>
          obtain rfl := Option.some.inj hstep
          exact { h with oneTime := ⟨h.oneTime.once, h.oneTime.uncleared⟩ }
      next => cases hstep
  | pass t process =>
      dsimp only at hstep
      split at hstep
      next running hrunning =>
          obtain rfl := Option.some.inj hstep
          have hcheck := h.check (hi running hrunning)
          exact { hcheck with oneTime := ⟨hcheck.oneTime.once, hcheck.oneTime.uncleared⟩ }
      next => cases hstep
  | clear n =>
      dsimp only at hstep
      split at hstep
      next hn =>
          obtain rfl := Option.some.inj hstep
          apply h.clear htoken hn
      next => cases hstep
  | create n outcome =>
      dsimp only at hstep
      split at hstep
      next hn =>
          cases outcome with
          | created =>
              obtain rfl := Option.some.inj hstep
              exact h.create htoken hname hn .storing nofun true
          | unwritten =>
              obtain rfl := Option.some.inj hstep
              exact h.create htoken hname hn .clearFailed nofun false
          | failed =>
              obtain rfl := Option.some.inj hstep
              apply h.setLate htoken hn .failing rfl
      next => cases hstep
  | store n =>
      dsimp only at hstep
      split at hstep
      next hn =>
          obtain rfl := Option.some.inj hstep
          apply h.store htoken hn
      next => cases hstep
  | spawn n outcome =>
      dsimp only at hstep
      split at hstep
      next hn =>
          cases outcome with
          | running =>
              obtain rfl := Option.some.inj hstep
              have hnext := h.setLate htoken hn .arming rfl
              refine { hnext with
                helpers := ?_, oneTime := ⟨hnext.oneTime.once, hnext.oneTime.uncleared⟩ }
              intro m hm
              rcases List.mem_append.mp hm with hm | hm
              · apply hnext.helpers m hm
              · obtain rfl := List.mem_singleton.mp hm
                exact ⟨.arming, Function.update_self .., rfl⟩
          | refused =>
              obtain rfl := Option.some.inj hstep
              apply h.setLate htoken hn .clearFailed rfl
          | failed =>
              obtain rfl := Option.some.inj hstep
              apply h.setLate htoken hn .failing rfl
      next => cases hstep
  | clearFailed n =>
      dsimp only at hstep
      split at hstep
      next hn =>
          obtain rfl := Option.some.inj hstep
          apply h.clearFailed htoken hn hi
      next => cases hstep
  | fail n =>
      dsimp only at hstep
      split at hstep
      next hn =>
          obtain rfl := Option.some.inj hstep
          have hnext := h.setLate htoken hn .failed rfl
          apply Inv.reset (hnext.ends ⟨.failed, Function.update_self .., rfl⟩)
          apply pending_ends hi
      next => cases hstep
  | arm n =>
      dsimp only at hstep
      split at hstep
      next hn =>
          obtain rfl := Option.some.inj hstep
          have hnext := h.setLate htoken hn .started rfl
          apply hnext.setWatchdog ⟨.started, Function.update_self .., rfl⟩
      next => cases hstep
  | watch n =>
      obtain ⟨w, hw, hs'⟩ := Option.bind_eq_some_iff.mp hstep
      apply h.watch hw _ hs'
      rintro rfl
      apply hi hw
  | exit n =>
      dsimp only at hstep
      split at hstep
      next hn =>
          obtain rfl := Option.some.inj hstep
          have hnext := h.ends (h.helpers n hn)
          refine { hnext with
            helpers := ?_, oneTime := ⟨hnext.oneTime.once, hnext.oneTime.uncleared⟩ }
          intro m hm
          apply hnext.helpers m (List.mem_filter.mp hm).1
      next => cases hstep
  | present candidate =>
      dsimp only at hstep
      split at hstep
      next =>
          obtain rfl := Option.some.inj hstep
          apply h.present htoken
      next => cases hstep
  | succeed k =>
      dsimp only at hstep
      split at hstep
      next hhs _ =>
          obtain rfl := Option.some.inj hstep
          apply h.succeed hhs
      next => cases hstep
  | refuse writable =>
      dsimp only at hstep
      split at hstep
      next hhs =>
          obtain rfl := Option.some.inj hstep
          apply h.refuse hname hhs
      next => cases hstep
  | refused =>
      dsimp only at hstep
      split at hstep
      next hhs =>
          obtain rfl := Option.some.inj hstep
          obtain ⟨m, hm, hlate, _⟩ := h.handshake _ hhs
          have hnext := (h.endsToken htoken ⟨m, hm, hlate⟩).reset (pending_endsToken (hi _ hhs))
          exact { hnext with
            handshake := nofun
            fresh := nofun
            oneTime := ⟨hnext.oneTime.once, hnext.oneTime.uncleared⟩ }
      next => cases hstep
  | take k =>
      dsimp only at hstep
      split at hstep
      next hc _ =>
          obtain rfl := Option.some.inj hstep
          have hconn := h.conns k _ hc
          have hnext := h.setConn (k := k) (c := ⟨_, .reading⟩) hconn
          exact { hnext with oneTime := ⟨hnext.oneTime.once, hnext.oneTime.uncleared⟩ }
      next => cases hstep
  | pong k =>
      dsimp only at hstep
      split at hstep
      next hc =>
          obtain rfl := Option.some.inj hstep
          have hnext := h.connEnds htoken hc .ponging
          exact { hnext with oneTime := ⟨hnext.oneTime.once, hnext.oneTime.uncleared⟩ }
      next => cases hstep
  | ponged k =>
      dsimp only at hstep
      split at hstep
      next hc =>
          obtain rfl := Option.some.inj hstep
          have hnext := h.connEnds htoken hc .reading
          apply hnext.reset (pending_endsToken (hi _ hc))
      next => cases hstep
  | close k =>
      dsimp only at hstep
      split at hstep
      next hc =>
          obtain rfl := Option.some.inj hstep
          have hnext := h.connEnds htoken hc .closing
          exact { hnext with oneTime := ⟨hnext.oneTime.once, hnext.oneTime.uncleared⟩ }
      next => cases hstep
  | closed k =>
      dsimp only at hstep
      split at hstep
      next hc =>
          obtain rfl := Option.some.inj hstep
          have hnext := h.connEnds htoken hc .closed
          have hreset := hnext.reset (pending_endsToken (hi _ hc))
          exact { hreset with oneTime := ⟨hreset.oneTime.once, hreset.oneTime.uncleared⟩ }
      next => cases hstep

end

/-! ## Launches exclude each other -/

/-- What passes the check finds no other launch pending. -/
theorem Inv.excludes [DecidableEq Token] (h : Inv token name s) {i : Label Token}
    (hi : Orderly token s i) :
  Excludes s i
  := by
  cases i with
  | pass t process =>
      intro running hrunning hpasses
      apply h.pending_of_passes hpasses (hi running hrunning)
  | _ => exact trivial

theorem Inv.sound (h : Inv token name s) :
  Sound token name s
  := by
  use h.oneTime
  intro tok htok
  obtain ⟨n, hn, _, hname⟩ := h.belongs tok htok
  exact ⟨n, hn, hname⟩

variable [DecidableEq Token] [DecidableEq Name]

/-- In every run whose steps are orderly, tokens are used once, a stored token belongs to the named
shared memory, and no launch passes the check while another one is pending (within `2 ^ 64`
launches). -/
theorem exclusive_of_run (htoken : Function.Injective token) (hname : Function.Injective name)
    {h : List (System Token Name × Label Token)} (hrun : Run (Step token name) start h s)
    (horderly : ∀ x ∈ h, Orderly token x.1 x.2) :
  (∀ x ∈ h, Sound token name x.1 ∧ Excludes x.1 x.2) ∧ Sound token name s
  := by
  obtain ⟨hbefore, hafter⟩ :=
    hrun.forall_of (fun s i => Orderly token s i) (Inv token name) (Inv token name) Inv.start
      (fun _ hs => hs) (fun _ _ _ hs hi hstep => hs.step htoken hname hi hstep) horderly
  apply And.intro _ hafter.sound
  intro x hx
  use (hbefore x hx).sound
  apply (hbefore x hx).excludes (horderly x hx)

/-- A launch, its helper, the handshake of the helper and its first pong. -/
theorem exclusive_launched :
  ∃ h s, Run (Step id id) (System.start : System ℕ ℕ) h s
    ∧ (s.running = true ∧ s.accepted = [1] ∧ s.consumed = [(1, [1])])
    ∧ (∀ x ∈ h, Sound id id x.1 ∧ Excludes x.1 x.2) ∧ Sound id id s
  := by
  obtain ⟨h, s, hrun, htest⟩ := Run.exists_of_traceM (System.step id id) (System.start : System ℕ ℕ)
    [.call 0, .pass 0 false, .clear 1, .create 1 .created, .store 1, .spawn 1 .running, .arm 1,
      .present 1, .succeed 0, .take 0, .pong 0, .ponged 0]
    (fun h s => decide ((∀ x ∈ h, Orderly id x.1 x.2)
      ∧ s.running = true ∧ s.accepted = [1] ∧ s.consumed = [(1, [1])]))
    (by decide)
  obtain ⟨horderly, hend⟩ := of_decide_eq_true htest
  use h, s, hrun, hend
  apply exclusive_of_run Function.injective_id Function.injective_id hrun horderly

/-- A second launch passes the check before the first one has started its helper, and clears the
shared memory between its naming and the storing of its token: the token then belongs to no shared
memory that is named, and it is consumed after a later launch has cleared it. -/
theorem not_exclusive :
  ∃ h s, Run (Step id id) (System.start : System ℕ ℕ) h s
    ∧ (∃ x ∈ h, ¬ Excludes x.1 x.2) ∧ (∃ x ∈ h, ¬ Belongs id id x.1) ∧ ¬ OneTime id s
  := by
  obtain ⟨h, s, hrun, htest⟩ := Run.exists_of_traceM (System.step id id) (System.start : System ℕ ℕ)
    [.call 0, .pass 0 false, .clear 1, .create 1 .created, .call 1, .pass 1 false, .clear 2,
      .store 1, .present 1]
    (fun h s => decide ((∃ x ∈ h, ¬ Excludes x.1 x.2)
      ∧ (∃ x ∈ h, x.1.runtime.ipcRuntimeToken = some 1 ∧ x.1.runtime.shmemRuntimeName = none)
      ∧ s.consumed = [(1, [1, 2])]))
    (by decide)
  obtain ⟨hexcludes, ⟨x, hx, htoken, hname⟩, hconsumed⟩ := of_decide_eq_true htest
  refine ⟨h, s, hrun, hexcludes, ⟨x, hx, ?_⟩, ?_⟩
  · intro hbelongs
    obtain ⟨n, _, hn⟩ := hbelongs 1 htoken
    rw [hname] at hn
    cases hn
  · intro honeTime
    have hle : 2 ≤ 1 := honeTime.uncleared (1, [1, 2]) (by simp [hconsumed]) 1 rfl 2 (by simp)
    omega

end System

end VynxDesk.Portable
