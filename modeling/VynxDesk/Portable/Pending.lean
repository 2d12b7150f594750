import Mathlib.Data.List.Nodup
import VynxDesk.Portable.Launch

/-!
# Pending launches

A launch is pending from the check that it passes until its connection is up, it fails or its
watchdog resets `STARTING`.  While every step that resets `STARTING`, or clears the shared memory of
a failed launch, finds no other launch pending, at most one launch is, and `STARTING` is set for it
(`System.Inv`).
-/

namespace VynxDesk.Portable

namespace System

variable {Token Name : Type*}

/-! ## What is to hold -/

/-- A token is accepted once, and it is consumed only before a later launch clears the shared
memory. -/
structure OneTime (token : ℕ → Token) (s : System Token Name) : Prop where
  once : s.accepted.Nodup
  uncleared : ∀ x ∈ s.consumed, ∀ n, token n = x.1 → ∀ m ∈ x.2, m ≤ n

/-- A stored token belongs to the shared memory that is named. -/
def Belongs (token : ℕ → Token) (name : ℕ → Name) (s : System Token Name) : Prop :=
  ∀ tok, s.runtime.ipcRuntimeToken = some tok →
    ∃ n, token n = tok ∧ s.runtime.shmemRuntimeName = some (name n)

/-- A launch passes the check only while none is pending. -/
def Excludes (s : System Token Name) : Label Token → Prop
  | .pass t process =>
      ∀ running ∈ s.callers t, s.passes running process = true → s.pending = []
  | _ => True

/-- `STARTING` is reset, and the shared memory of a failed launch cleared, only while no other
launch is pending. -/
def Orderly (token : ℕ → Token) (s : System Token Name) : Label Token → Prop
  | .pass t process =>
      ∀ running ∈ s.callers t, s.isStale running process = true → s.pending = []
  | .clearFailed n | .fail n => ∀ m ∈ s.pending, m = n
  | .watch n => s.watchdogs n = some .due → ∀ m ∈ s.pending, m = n
  | .refused => ∀ hs ∈ s.handshake, ∀ m ∈ s.pending, token m = hs.token
  | .ponged k | .closed k => ∀ c ∈ s.conns k, ∀ m ∈ s.pending, token m = c.token
  | _ => True

instance (s : System Token Name) : DecidablePred (Excludes s)
  | .pass t process => inferInstanceAs (Decidable
      (∀ running ∈ s.callers t, s.passes running process = true → s.pending = []))
  | .call _ | .clear _ | .create _ _ | .store _ | .spawn _ _ | .clearFailed _ | .fail _ | .arm _
  | .watch _ | .exit _ | .present _ | .succeed _ | .refuse _ | .refused | .take _ | .pong _
  | .ponged _ | .close _ | .closed _ => isTrue trivial

instance [DecidableEq Token] (token : ℕ → Token) (s : System Token Name) :
    DecidablePred (Orderly token s)
  | .pass t process => inferInstanceAs (Decidable
      (∀ running ∈ s.callers t, s.isStale running process = true → s.pending = []))
  | .clearFailed n | .fail n => inferInstanceAs (Decidable (∀ m ∈ s.pending, m = n))
  | .watch n => inferInstanceAs (Decidable
      (s.watchdogs n = some .due → ∀ m ∈ s.pending, m = n))
  | .refused => inferInstanceAs (Decidable
      (∀ hs ∈ s.handshake, ∀ m ∈ s.pending, token m = hs.token))
  | .ponged k | .closed k => inferInstanceAs (Decidable
      (∀ c ∈ s.conns k, ∀ m ∈ s.pending, token m = c.token))
  | .call _ | .clear _ | .create _ _ | .store _ | .spawn _ _ | .arm _ | .exit _ | .present _
  | .succeed _ | .refuse _ | .take _ | .pong _ | .close _ => isTrue trivial

/-- What is to hold of the tokens in every state. -/
structure Sound (token : ℕ → Token) (name : ℕ → Name) (s : System Token Name) : Prop where
  oneTime : OneTime token s
  belongs : Belongs token name s

/-! ## The invariant -/

/-- The launch has stored its token, or failed before. -/
def Late (s : System Token Name) (n : ℕ) : Prop :=
  ∃ phase, s.launches n = some phase ∧ phase.early = false

/-- The invariant of the runs whose steps are orderly. -/
structure Inv (token : ℕ → Token) (name : ℕ → Name) (s : System Token Name) : Prop where
  starting : s.pending ≠ [] → s.starting = true
  latest : ∀ n ∈ s.pending, n = s.startingToken
  known : ∀ n phase, s.launches n = some phase → n ≤ s.startingToken
  early : ∀ n phase, s.launches n = some phase → phase.early = true → n ∈ s.pending
  cleared : ∀ n ∈ s.cleared, n ≤ s.startingToken
  creating : ∀ n, s.launches n = some .creating →
    s.runtime.ipcRuntimeToken = none ∧ s.runtime.shmemRuntimeName = none
  storing : ∀ n, s.launches n = some .storing →
    s.runtime.ipcRuntimeToken = none ∧ s.runtime.shmemRuntimeName = some (name n)
  belongs : ∀ tok, s.runtime.ipcRuntimeToken = some tok →
    ∃ n, token n = tok ∧ s.Late n ∧ s.runtime.shmemRuntimeName = some (name n)
  uncleared : ∀ n, s.runtime.shmemRuntimeName = some (name n) → ∀ m ∈ s.cleared, m ≤ n
  handshake : ∀ hs, s.handshake = some hs →
    ∃ n, token n = hs.token ∧ s.Late n ∧ hs.shmemName = some (name n)
  fresh : ∀ hs, s.handshake = some hs → hs.refusing = false →
    hs.token ∉ s.accepted ∧ s.runtime.ipcRuntimeToken ≠ some hs.token
  accepted : ∀ tok ∈ s.accepted,
    s.runtime.ipcRuntimeToken ≠ some tok ∧ ∃ n, token n = tok ∧ s.Late n
  conns : ∀ k c, s.conns k = some c → ∃ n, token n = c.token ∧ s.Late n
  watchdogs : ∀ n w, s.watchdogs n = some w → s.Late n
  helpers : ∀ n ∈ s.helpers, s.Late n
  oneTime : OneTime token s

variable {token : ℕ → Token} {name : ℕ → Name} {s : System Token Name} {n m : ℕ} {phase : Phase}

theorem Inv.start :
  Inv token name (System.start : System Token Name)
  where
  starting := by simp [System.start]
  latest := nofun
  known := nofun
  early := nofun
  cleared := nofun
  creating := nofun
  storing := nofun
  belongs := nofun
  uncleared := nofun
  handshake := nofun
  fresh := nofun
  accepted := nofun
  conns := nofun
  watchdogs := nofun
  helpers := nofun
  oneTime := ⟨List.nodup_nil, nofun⟩

/-! ## Consequences of the invariant -/

theorem Late.not_early (h : s.Late n) (hn : s.launches n = some phase) :
  phase.early = false
  := by
  obtain ⟨phase', hphase', hlate⟩ := h
  rw [hn] at hphase'
  obtain rfl := Option.some.inj hphase'
  exact hlate

/-- An early launch is the latest one. -/
theorem Inv.eq_startingToken (h : Inv token name s) (hn : s.launches n = some phase)
    (hearly : phase.early = true) :
  n = s.startingToken
  := h.latest n (h.early n phase hn hearly)

/-- There is one early launch at most. -/
theorem Inv.early_unique (h : Inv token name s) (hn : s.launches n = some phase)
    (hearly : phase.early = true) {phase' : Phase} (hm : s.launches m = some phase')
    (hearly' : phase'.early = true) :
  m = n
  := (h.eq_startingToken hm hearly').trans (h.eq_startingToken hn hearly).symm

/-- The launch of a stored token is not an early one. -/
theorem Late.token_ne (htoken : Function.Injective token) {tok : Token}
    (hlate : ∃ m, token m = tok ∧ s.Late m) (hn : s.launches n = some phase)
    (hearly : phase.early = true) :
  tok ≠ token n
  := by
  rintro rfl
  obtain ⟨m, hm, hlate⟩ := hlate
  obtain rfl := htoken hm
  rw [hlate.not_early hn] at hearly
  cases hearly

/-! ## The phases of a launch -/

/-- A late launch stays late, whichever launch goes on, unless it is itself set back. -/
theorem Late.setLaunch (h : s.Late m) (hphase : m = n → phase.early = false) :
  (s.setLaunch n phase).Late m
  := by
  rcases eq_or_ne m n with rfl | hne
  · exact ⟨phase, Function.update_self .., hphase rfl⟩
  · obtain ⟨phase', hphase', hlate⟩ := h
    use phase'
    apply And.intro _ hlate
    rw [← hphase']
    apply Function.update_of_ne hne

theorem launches_setLaunch {phase' : Phase}
    (h : (s.setLaunch n phase).launches m = some phase') :
  m = n ∧ phase' = phase ∨ m ≠ n ∧ s.launches m = some phase'
  := by
  change Function.update s.launches n (some phase) m = some phase' at h
  rcases eq_or_ne m n with rfl | hne
  · rw [Function.update_self] at h
    exact Or.inl ⟨rfl, (Option.some.inj h).symm⟩
  · rw [Function.update_of_ne hne] at h
    exact Or.inr ⟨hne, h⟩

/-- A launch goes on, and leaves the shared memory as `r`.  The stored token is the one there was,
or that of the launch. -/
theorem Inv.goOn (htoken : Function.Injective token) (h : Inv token name s)
    {r : Runtime Token Name} {phase' : Phase}
    (hn : s.launches n = some phase) (hphase : phase'.early = true → phase.early = true)
    (hcreating : ∀ m, (s.setLaunch n phase').launches m = some .creating →
      r.ipcRuntimeToken = none ∧ r.shmemRuntimeName = none)
    (hstoring : ∀ m, (s.setLaunch n phase').launches m = some .storing →
      r.ipcRuntimeToken = none ∧ r.shmemRuntimeName = some (name m))
    (hstored : ∀ tok, r.ipcRuntimeToken = some tok →
      s.runtime.ipcRuntimeToken = some tok ∧ r.shmemRuntimeName = s.runtime.shmemRuntimeName
        ∨ tok = token n ∧ phase.early = true ∧ phase'.early = false
          ∧ r.shmemRuntimeName = some (name n))
    (huncleared : ∀ m, r.shmemRuntimeName = some (name m) → ∀ j ∈ s.cleared, j ≤ m) :
  Inv token name { s.setLaunch n phase' with runtime := r }
  := by
  have hkeep : ∀ m, s.Late m → (s.setLaunch n phase').Late m := by
    intro m hm
    apply hm.setLaunch
    rintro rfl
    have hlate := hm.not_early hn
    cases hearly : phase'.early with
    | false => rfl
    | true =>
        rw [hphase hearly] at hlate
        cases hlate
  have hother : ∀ tok, (∃ m, token m = tok ∧ s.Late m) →
      s.runtime.ipcRuntimeToken ≠ some tok → r.ipcRuntimeToken ≠ some tok := by
    intro tok hlate hne htok
    rcases hstored tok htok with ⟨hold, _⟩ | ⟨hown, hearly, _⟩
    · apply hne hold
    · apply Late.token_ne htoken hlate hn hearly hown
  refine { h with
    known := ?_, early := ?_, creating := hcreating, storing := hstoring, belongs := ?_,
    uncleared := huncleared, handshake := ?_, fresh := ?_, accepted := ?_, conns := ?_,
    watchdogs := ?_, helpers := ?_, oneTime := ⟨h.oneTime.once, h.oneTime.uncleared⟩ }
  · intro m phase₁ hm
    rcases launches_setLaunch hm with ⟨rfl, _⟩ | ⟨_, hm⟩
    · apply h.known m phase hn
    · apply h.known m phase₁ hm
  · intro m phase₁ hm hearly
    rcases launches_setLaunch hm with ⟨rfl, rfl⟩ | ⟨_, hm⟩
    · apply h.early m phase hn (hphase hearly)
    · apply h.early m phase₁ hm hearly
  · intro tok htok
    rcases hstored tok htok with ⟨hold, hname⟩ | ⟨rfl, _, hlate, hname⟩
    · obtain ⟨m, hm, hlate, hold⟩ := h.belongs tok hold
      exact ⟨m, hm, hkeep m hlate, hname.trans hold⟩
    · exact ⟨n, rfl, ⟨phase', Function.update_self .., hlate⟩, hname⟩
  · intro hs hhs
    obtain ⟨m, hm, hlate, hname⟩ := h.handshake hs hhs
    exact ⟨m, hm, hkeep m hlate, hname⟩
  · intro hs hhs hrefusing
    obtain ⟨m, hm, hlate, _⟩ := h.handshake hs hhs
    obtain ⟨haccepted, hne⟩ := h.fresh hs hhs hrefusing
    exact ⟨haccepted, hother _ ⟨m, hm, hlate⟩ hne⟩
  · intro tok htok
    obtain ⟨hne, m, hm, hlate⟩ := h.accepted tok htok
    exact ⟨hother tok ⟨m, hm, hlate⟩ hne, m, hm, hkeep m hlate⟩
  · intro k c hc
    obtain ⟨m, hm, hlate⟩ := h.conns k c hc
    exact ⟨m, hm, hkeep m hlate⟩
  · intro m w hw
    apply hkeep m (h.watchdogs m w hw)
  · intro m hm
    apply hkeep m (h.helpers m hm)

/-- A launch goes on to a phase that is not early. -/
theorem Inv.setLate (htoken : Function.Injective token) (h : Inv token name s)
    (hn : s.launches n = some phase) (phase' : Phase) (hphase : phase'.early = false) :
  Inv token name (s.setLaunch n phase')
  := by
  have hold : ∀ m phase₁, phase₁.early = true →
      (s.setLaunch n phase').launches m = some phase₁ → s.launches m = some phase₁ := by
    intro m phase₁ hearly hm
    rcases launches_setLaunch hm with ⟨_, rfl⟩ | ⟨_, hm⟩
    · rw [hphase] at hearly
      cases hearly
    · exact hm
  apply h.goOn htoken hn
  · intro hearly
    rw [hphase] at hearly
    cases hearly
  · intro m hm
    apply h.creating m (hold m _ rfl hm)
  · intro m hm
    apply h.storing m (hold m _ rfl hm)
  · intro tok htok
    exact Or.inl ⟨htok, rfl⟩
  · exact h.uncleared

/-- While a launch is early, no other one is, whatever phase it goes on to. -/
theorem Inv.eq_of_setLaunch (h : Inv token name s) (hn : s.launches n = some phase)
    (hearly : phase.early = true) {phase' phase₁ : Phase} (hearly₁ : phase₁.early = true)
    (hm : (s.setLaunch n phase').launches m = some phase₁) :
  m = n ∧ phase₁ = phase'
  := by
  rcases launches_setLaunch hm with hown | ⟨hne, hm⟩
  · exact hown
  · cases hne (h.early_unique hn hearly hm hearly₁)

/-- A launch clears the shared memory. -/
theorem Inv.clear (htoken : Function.Injective token) (h : Inv token name s)
    (hn : s.launches n = some .clearing) :
  Inv token name (s.clear n)
  := by
  have hnext : Inv token name
      { s.setLaunch n .creating with runtime := s.runtime.clearRuntimeShmemState } := by
    apply h.goOn htoken hn
    · intro _
      rfl
    · intro m _
      exact ⟨rfl, rfl⟩
    · intro m hm
      cases (h.eq_of_setLaunch hn rfl rfl hm).2
    · exact nofun
    · exact nofun
  refine { hnext with
    cleared := ?_, uncleared := ?_, oneTime := ⟨h.oneTime.once, h.oneTime.uncleared⟩ }
  · intro m hm
    rcases List.mem_append.mp hm with hm | hm
    · apply h.cleared m hm
    · obtain rfl := List.mem_singleton.mp hm
      apply h.known m _ hn
  · exact nofun

/-- A launch creates and names the shared memory. -/
theorem Inv.create (htoken : Function.Injective token) (hname : Function.Injective name)
    (h : Inv token name s) (hn : s.launches n = some .creating) (phase' : Phase)
    (hphase : phase' ≠ .creating) (writable : Bool) :
  Inv token name { s.setLaunch n phase' with
    runtime := s.runtime.createShmem (name n) (token n) writable }
  := by
  apply h.goOn htoken hn
  · intro _
    rfl
  · intro m hm
    cases hphase (h.eq_of_setLaunch hn rfl rfl hm).2.symm
  · intro m hm
    obtain ⟨rfl, _⟩ := h.eq_of_setLaunch hn rfl rfl hm
    exact ⟨(h.creating m hn).1, rfl⟩
  · intro tok htok
    change s.runtime.ipcRuntimeToken = some tok at htok
    rw [(h.creating n hn).1] at htok
    cases htok
  · intro m hm j hj
    obtain rfl := hname (Option.some.inj hm)
    rw [h.eq_startingToken hn rfl]
    apply h.cleared j hj

/-- A launch stores its token. -/
theorem Inv.store (htoken : Function.Injective token) (h : Inv token name s)
    (hn : s.launches n = some .storing) :
  Inv token name { s.setLaunch n .spawning with
    runtime := s.runtime.setRuntimeIpcToken (token n) }
  := by
  apply h.goOn htoken hn
  · exact nofun
  · intro m hm
    cases (h.eq_of_setLaunch hn rfl rfl hm).2
  · intro m hm
    cases (h.eq_of_setLaunch hn rfl rfl hm).2
  · intro tok htok
    exact Or.inr ⟨(Option.some.inj htok).symm, rfl, rfl, (h.storing n hn).2⟩
  · exact h.uncleared

/-- A launch that fails clears the shared memory while no other one is pending. -/
theorem Inv.clearFailed (htoken : Function.Injective token) (h : Inv token name s)
    (hn : s.launches n = some .clearFailed) (hown : ∀ m ∈ s.pending, m = n) :
  Inv token name (s.clearFailed n)
  := by
  apply h.goOn htoken hn
  · exact nofun
  · intro m _
    exact ⟨rfl, rfl⟩
  · intro m hm
    rcases launches_setLaunch hm with ⟨_, hphase⟩ | ⟨hne, hm⟩
    · cases hphase
    · cases hne (hown m (h.early m _ hm rfl))
  · exact nofun
  · exact nofun

/-! ## Launches that are over -/

/-- Launches that are not early are over. -/
theorem Inv.filterPending (h : Inv token name s) (keep : ℕ → Bool)
    (hkeep : ∀ n phase, s.launches n = some phase → phase.early = true → keep n = true) :
  Inv token name { s with pending := s.pending.filter keep }
  := by
  refine { h with
    starting := ?_, latest := ?_, early := ?_,
    oneTime := ⟨h.oneTime.once, h.oneTime.uncleared⟩ }
  · intro hpending
    apply h.starting
    rintro hnil
    apply hpending
    simp [hnil]
  · intro n hn
    apply h.latest n (List.mem_filter.mp hn).1
  · intro n phase hn hearly
    apply List.mem_filter.mpr ⟨h.early n phase hn hearly, hkeep n phase hn hearly⟩

/-- A launch that is not early is over. -/
theorem Inv.ends (h : Inv token name s) (hn : s.Late n) :
  Inv token name (s.ends n)
  := by
  apply h.filterPending
  intro m phase hm hearly
  apply decide_eq_true
  rintro rfl
  rw [hn.not_early hm] at hearly
  cases hearly

variable [DecidableEq Token] in
theorem Inv.endsToken (htoken : Function.Injective token) (h : Inv token name s) {tok : Token}
    (htok : ∃ n, token n = tok ∧ s.Late n) :
  Inv token name (s.endsToken token tok)
  := by
  apply h.filterPending
  intro m phase hm hearly
  apply decide_eq_true
  apply (Late.token_ne htoken htok hm hearly).symm

/-- `STARTING` is reset when no launch is pending. -/
theorem Inv.reset (h : Inv token name s) (hnone : s.pending = []) :
  Inv token name { s with starting := false }
  := { h with
    starting := fun hpending => absurd hnone hpending
    oneTime := ⟨h.oneTime.once, h.oneTime.uncleared⟩ }

theorem pending_ends (hown : ∀ m ∈ s.pending, m = n) :
  (s.ends n).pending = []
  := by
  apply List.filter_eq_nil_iff.mpr
  intro m hm
  simp [hown m hm]

variable [DecidableEq Token] in
theorem pending_endsToken {tok : Token} (hown : ∀ m ∈ s.pending, token m = tok) :
  (s.endsToken token tok).pending = []
  := by
  apply List.filter_eq_nil_iff.mpr
  intro m hm
  simp [hown m hm]

end System

end VynxDesk.Portable
