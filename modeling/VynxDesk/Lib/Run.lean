import Mathlib.Data.List.Basic

/-!
# Runs of a transition system

A transition system over states `σ` with labels `ι` is a relation `R s i s'`.  A run from
`s₀` is a finite sequence of steps; `Run R s₀ h s` says that it ends in `s`, and `h` is its
history: the list of its steps, each the state it starts in and its label, the oldest first.
An invariant may speak about the state alone (`Run.invariant`), about the state along runs
whose steps meet a condition (`Run.invariant_of`), or about the state together with its
history (`Run.history_invariant`).  `Run.forall_iff` tells when such a condition is exact.
-/

namespace VynxDesk

variable {σ ι : Type*}

/-- `Run R s₀ h s`: a run of `R` from `s₀` to `s` with history `h`. -/
inductive Run (R : σ → ι → σ → Prop) (s₀ : σ) : List (σ × ι) → σ → Prop where
  | nil : Run R s₀ [] s₀
  | snoc {h : List (σ × ι)} {s s' : σ} {i : ι} :
      Run R s₀ h s → R s i s' → Run R s₀ (h ++ [(s, i)]) s'

namespace Run

variable {R : σ → ι → σ → Prop} {s₀ : σ} {h : List (σ × ι)} {s : σ}

/-- What holds at the start and is kept by every step holds at the end of every run, and its
history records it. -/
theorem history_invariant (J : List (σ × ι) → σ → Prop) (hinit : J [] s₀)
    (hstep : ∀ h s i s', Run R s₀ h s → J h s → R s i s' → J (h ++ [(s, i)]) s')
    (hrun : Run R s₀ h s) :
  J h s
  := by
  induction hrun with
  | nil => exact hinit
  | snoc hrun hR ih => exact hstep _ _ _ _ hrun ih hR

/-- What holds at the start and is kept by every step holds at the end of every run. -/
theorem invariant (I : σ → Prop) (hinit : I s₀) (hstep : ∀ s i s', I s → R s i s' → I s')
    (hrun : Run R s₀ h s) :
  I s
  := by
  induction hrun with
  | nil => exact hinit
  | snoc _ hR ih => exact hstep _ _ _ ih hR

/-- What holds at the start and is kept by every step that meets `P` holds at the end of every
run whose steps all meet `P`. -/
theorem invariant_of (P : σ → ι → Prop) (I : σ → Prop) (hinit : I s₀)
    (hstep : ∀ s i s', I s → P s i → R s i s' → I s') (hrun : Run R s₀ h s)
    (hP : ∀ x ∈ h, P x.1 x.2) :
  I s
  := by
  induction hrun with
  | nil => exact hinit
  | snoc _ hR ih =>
      apply hstep _ _ _ (ih _) _ hR
      · intro x hx
        apply hP
        apply List.mem_append_left _ hx
      · apply hP (_, _)
        simp

/-- What an invariant of the steps that meet `P` implies holds all along every run whose steps all
meet `P`. -/
theorem forall_of (P : σ → ι → Prop) (I C : σ → Prop) (hinit : I s₀) (hC : ∀ s, I s → C s)
    (hstep : ∀ s i s', I s → P s i → R s i s' → I s') (hrun : Run R s₀ h s)
    (hP : ∀ x ∈ h, P x.1 x.2) :
  (∀ x ∈ h, C x.1) ∧ C s
  := by
  induction hrun with
  | nil => simpa using hC _ hinit
  | snoc hrun hR ih =>
      simp only [List.forall_mem_append, List.forall_mem_singleton] at hP ⊢
      apply And.intro (ih hP.1)
      apply hC
      apply hstep _ _ _ (hrun.invariant_of P I hinit hstep hP.1) hP.2 hR

/-- Let `I` imply `C`.  If every step that meets `P` keeps `I`, and every step that leads from `I`
to `C` meets `P`, then `C` holds all along a run exactly when all of its steps meet `P`. -/
theorem forall_iff (P : σ → ι → Prop) (I C : σ → Prop) (hinit : I s₀) (hC : ∀ s, I s → C s)
    (hstep : ∀ s i s', I s → P s i → R s i s' → I s')
    (hexact : ∀ s i s', I s → R s i s' → C s' → P s i) (hrun : Run R s₀ h s) :
  ((∀ x ∈ h, C x.1) ∧ C s) ↔ ∀ x ∈ h, P x.1 x.2
  := by
  constructor
  · induction hrun with
    | nil => simp
    | snoc hrun hR ih =>
        simp only [List.forall_mem_append, List.forall_mem_singleton]
        rintro ⟨hbefore, hafter⟩
        have hP := ih hbefore
        apply And.intro hP
        apply hexact _ _ _ (hrun.invariant_of P I hinit hstep hP) hR hafter
  · apply hrun.forall_of P I C hinit hC hstep

/-- A run is one of every relation that has its steps. -/
theorem mono {R' : σ → ι → σ → Prop} (hR : ∀ s i s', R s i s' → R' s i s') (hrun : Run R s₀ h s) :
  Run R' s₀ h s
  := by
  induction hrun with
  | nil => apply Run.nil
  | snoc _ hstep ih => exact ih.snoc (hR _ _ _ hstep)

/-- What holds all along a run holds at its start. -/
theorem start_of_forall (C : σ → Prop) (hrun : Run R s₀ h s) (hall : (∀ x ∈ h, C x.1) ∧ C s) :
  C s₀
  := by
  induction hrun with
  | nil => exact hall.2
  | snoc _ _ ih =>
      apply ih
      simp only [List.forall_mem_append, List.forall_mem_singleton] at hall
      exact hall.1

/-- Every step of a run ends a shorter run, whose history is what comes before it. -/
theorem before {before after : List (σ × ι)} {s' : σ} {i : ι}
    (hrun : Run R s₀ (before ++ (s, i) :: after) s') :
  Run R s₀ before s ∧ ∃ s₁, R s i s₁
  := by
  generalize hh : before ++ (s, i) :: after = h at hrun
  induction hrun generalizing after with
  | nil => simp at hh
  | @snoc h s₁ s₂ j hrun hR ih =>
      rcases List.eq_nil_or_concat after with rfl | ⟨after', x, rfl⟩
      · obtain ⟨rfl, hlast⟩ := List.append_inj' hh rfl
        obtain ⟨rfl, rfl⟩ := by simpa using hlast
        exact ⟨hrun, s₂, hR⟩
      · have hsplit : (before ++ (s, i) :: after') ++ [x] = h ++ [(s₁, j)] := by
          simpa using hh
        apply ih (List.append_inj' hsplit rfl).1

/-- A run ends with its last step. -/
theorem of_concat {s' : σ} {i : ι} (hrun : Run R s₀ (h ++ [(s, i)]) s') :
  Run R s₀ h s ∧ R s i s'
  := by
  generalize hh : h ++ [(s, i)] = h' at hrun
  cases hrun with
  | nil => simp at hh
  | snoc hrun hR =>
      obtain ⟨rfl, hlast⟩ := List.append_inj' hh rfl
      obtain ⟨rfl, rfl⟩ := by simpa using hlast
      exact ⟨hrun, hR⟩

/-- A run extends a run step by step: appending a run of its end state is a run. -/
theorem append {h₁ : List (σ × ι)} {s₁ : σ} (h : Run R s₀ h₁ s₁) :
  ∀ {h₂ : List (σ × ι)} {s₂ : σ}, Run R s₁ h₂ s₂ → Run R s₀ (h₁ ++ h₂) s₂
  := by
  intro h₂ s₂ hrun
  induction hrun with
  | nil => simpa using h
  | snoc _ hR ih =>
      rw [← List.append_assoc]
      exact ih.snoc hR

/-- What a step of a run establishes, and every later step keeps, holds ever after. -/
theorem after {before after : List (σ × ι)} {x : σ × ι} {s' : σ}
    (hrun : Run R s₀ (before ++ x :: after) s') (Q : σ → Prop)
    (hset : ∀ s, R x.1 x.2 s → Q s)
    (hkeep : ∀ y ∈ after, ∀ s, Q y.1 → R y.1 y.2 s → Q s) :
  (∀ y ∈ after, Q y.1) ∧ Q s'
  := by
  generalize hh : before ++ x :: after = h at hrun
  induction hrun generalizing after with
  | nil => simp at hh
  | @snoc h s₁ s₂ j hrun hR ih =>
      rcases List.eq_nil_or_concat after with rfl | ⟨after', y, rfl⟩
      · obtain ⟨rfl, hlast⟩ := List.append_inj' hh rfl
        obtain rfl := by simpa using hlast
        exact ⟨nofun, hset _ hR⟩
      · have hsplit : (before ++ x :: after') ++ [y] = h ++ [(s₁, j)] := by
          simpa using hh
        obtain ⟨hbefore, hlast⟩ := List.append_inj' hsplit rfl
        obtain rfl := by simpa using hlast
        have hQ := ih (fun y hy => hkeep y (by simp [hy])) hbefore
        constructor
        · intro y hy
          rw [List.concat_eq_append, List.mem_append, List.mem_singleton] at hy
          rcases hy with hy | rfl
          · apply hQ.1 y hy
          · apply hQ.2
        · have hmem : (s₁, j) ∈ after'.concat (s₁, j) := by
            simp
          apply hkeep _ hmem _ hQ.2 hR

/-- The history of the labels `is` from `s`, where `next` says what a label leads to. -/
def trace (next : σ → ι → σ) : σ → List ι → List (σ × ι)
  | _, [] => []
  | s, i :: is => (s, i) :: trace next (next s i) is

theorem trace_append (next : σ → ι → σ) (is is' : List ι) :
  ∀ s, trace next s (is ++ is') = trace next s is ++ trace next (is.foldl next s) is'
  := by
  induction is with
  | nil =>
      intro s
      rfl
  | cons i is ih =>
      intro s
      change (s, i) :: trace next (next s i) (is ++ is') = _
      rw [ih]
      rfl

/-- When every label can be taken everywhere, every list of labels is a run. -/
theorem of_next {next : σ → ι → σ} (hnext : ∀ s i, R s i (next s i)) (is : List ι) :
  ∀ s, Run R s (trace next s is) (is.foldl next s)
  := by
  induction is with
  | nil =>
      intro s
      apply Run.nil
  | cons i is ih =>
      intro s
      have hfirst : Run R s [(s, i)] (next s i) := Run.nil.snoc (hnext s i)
      apply hfirst.append (ih _)

/-- The history of the labels `is` from `s` and the state they lead to, where `step` says which
labels can be taken. -/
def traceM (step : σ → ι → Option σ) : σ → List ι → Option (List (σ × ι) × σ)
  | s, [] => some ([], s)
  | s, i :: is =>
      (step s i).bind fun s' => (traceM step s' is).map fun x => ((s, i) :: x.1, x.2)

theorem of_traceM {step : σ → ι → Option σ} (is : List ι) :
  ∀ {s s' : σ} {h : List (σ × ι)}, traceM step s is = some (h, s') →
    Run (fun s i s' => step s i = some s') s h s'
  := by
  induction is with
  | nil =>
      intro s s' h htrace
      obtain ⟨rfl, rfl⟩ := Prod.mk.inj (Option.some.inj htrace)
      apply Run.nil
  | cons i is ih =>
      intro s s' h htrace
      obtain ⟨s₁, hstep, htrace⟩ := Option.bind_eq_some_iff.mp htrace
      obtain ⟨⟨h', s''⟩, hrest, hend⟩ := Option.map_eq_some_iff.mp htrace
      obtain ⟨rfl, rfl⟩ := Prod.mk.inj hend
      have hfirst : Run (fun s i s' => step s i = some s') s [(s, i)] s₁ := Run.nil.snoc hstep
      apply hfirst.append (ih hrest)

/-- Labels that can be taken one after the other make a run, and what a test of its history and its
end says is so. -/
theorem exists_of_traceM (step : σ → ι → Option σ) (s : σ) (is : List ι)
    (test : List (σ × ι) → σ → Bool)
    (htest : (traceM step s is).map (fun x => test x.1 x.2) = some true) :
  ∃ h s', Run (fun s i s' => step s i = some s') s h s' ∧ test h s' = true
  := by
  obtain ⟨⟨h, s'⟩, htrace, hholds⟩ := Option.map_eq_some_iff.mp htest
  exact ⟨h, s', of_traceM is htrace, hholds⟩

end Run

end VynxDesk
