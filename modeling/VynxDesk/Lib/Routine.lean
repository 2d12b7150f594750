import Mathlib.Data.List.Basic
import Mathlib.Logic.Unique

/-!
# Routines over a state, with exceptions and transactions

A routine reads and writes a state `σ`, and returns a value or raises an exception `ε`; what
it wrote before it raised stays written.  `Routine.atomic m` is `m` as a transaction: when `m`
raises, the state is what it was before.  A routine is reasoned about through
`Routine.Yields m s a s'`, that `m` run at `s` returns `a` and leaves `s'`, and
`Routine.Raises m s e s'`, that it raises `e` and leaves `s'`; the simp lemmas below take the
former apart along the operations of routines.  `Routine.Within` and `Routine.Reverts` say what
a routine leaves however it ends, and what it leaves when it raises.
-/

namespace VynxDesk

variable {σ ε α β : Type}

/-- The routines over states `σ` that return an `α` or raise an `ε`. -/
def Routine (σ ε α : Type) : Type := σ → Except ε α × σ

namespace Routine

/-- The routine that returns `a`. -/
protected def pure (a : α) : Routine σ ε α := fun s => (.ok a, s)

/-- The routine that goes on with `f` after `m` has returned. -/
protected def bind (m : Routine σ ε α) (f : α → Routine σ ε β) : Routine σ ε β := fun s =>
  match m s with
  | (.ok a, s') => f a s'
  | (.error e, s') => (.error e, s')

instance : Monad (Routine σ ε) where
  pure := Routine.pure
  bind := Routine.bind

/-- The routine that raises `e`. -/
def raise (e : ε) : Routine σ ε α := fun s => (.error e, s)

/-- The routine that returns what `f` reads off the state. -/
def read (f : σ → α) : Routine σ ε α := fun s => (.ok (f s), s)

/-- The routine that changes the state by `f`. -/
def write (f : σ → σ) : Routine σ ε Unit := fun s => (.ok (), f s)

/-- The routine that raises `e` unless `p`. -/
def require (p : Bool) (e : ε) : Routine σ ε Unit :=
  if p then Routine.pure () else raise e

/-- The routine that returns what `o` holds, and raises `e` when `o` is empty. -/
def expect (o : Option α) (e : ε) : Routine σ ε α :=
  match o with
  | some a => Routine.pure a
  | none => raise e

/-- `m` as a transaction: what it wrote is undone when it raises. -/
def atomic (m : Routine σ ε α) : Routine σ ε α := fun s =>
  match m s with
  | (.ok a, s') => (.ok a, s')
  | (.error e, _) => (.error e, s)

/-- Run at `s`, the routine `m` returns `a` and leaves `s'`. -/
def Yields (m : Routine σ ε α) (s : σ) (a : α) (s' : σ) : Prop := m s = (.ok a, s')

/-- Run at `s`, the routine `m` raises `e` and leaves `s'`. -/
def Raises (m : Routine σ ε α) (s : σ) (e : ε) (s' : σ) : Prop := m s = (.error e, s')

variable {m : Routine σ ε α} {s s' : σ} {a : α} {b : β} {e : ε}

theorem bind_apply {f : α → Routine σ ε β} :
  (m >>= f) s = match m s with
    | (.ok a, s') => f a s'
    | (.error e, s') => (.error e, s')
  := rfl

theorem atomic_apply :
  m.atomic s = match m s with
    | (.ok a, s') => (.ok a, s')
    | (.error e, _) => (.error e, s)
  := rfl

private theorem bind_pure_id (m : Routine σ ε α) :
  (m >>= fun a => pure (id a)) = m
  := by
  funext s
  rw [bind_apply]
  rcases m s with ⟨e | a, s'⟩
  · rfl
  · rfl

private theorem bind_bind {γ : Type} (m : Routine σ ε α) (f : α → Routine σ ε β)
    (g : β → Routine σ ε γ) :
  m >>= f >>= g = m >>= fun a => f a >>= g
  := by
  funext s
  simp only [bind_apply]
  rcases m s with ⟨e | a, s'⟩
  · rfl
  · rfl

instance : LawfulMonad (Routine σ ε) :=
  LawfulMonad.mk' (Routine σ ε) bind_pure_id (fun _ _ => rfl) bind_bind

/-- A routine returns or raises. -/
theorem yields_or_raises (m : Routine σ ε α) (s : σ) :
  (∃ a s', m.Yields s a s') ∨ ∃ e s', m.Raises s e s'
  := by
  unfold Yields Raises
  rcases m s with ⟨a | e, s'⟩
  · right
    use a, s'
  · left
    use e, s'

@[simp]
theorem yields_pure {a' : α} :
  Yields (pure a : Routine σ ε α) s a' s' ↔ a' = a ∧ s' = s
  := by
  simp [Yields, pure, Routine.pure, eq_comm]

/-- A routine goes on from what its first part returns and leaves. -/
theorem yields_bind {f : α → Routine σ ε β} :
  Yields (m >>= f) s b s' ↔ ∃ a s₁, m.Yields s a s₁ ∧ (f a).Yields s₁ b s'
  := by
  simp only [Yields, bind_apply]
  rcases m s with ⟨e | a, s₁⟩
  · simp
  · simp

@[simp]
theorem yields_map {g : α → β} :
  Yields (g <$> m) s b s' ↔ ∃ a, m.Yields s a s' ∧ b = g a
  := by
  rw [map_eq_pure_bind, yields_bind]
  simp [and_comm]

@[simp]
theorem yields_raise : ¬ Yields (raise e : Routine σ ε α) s a s'
  := by
  simp [Yields, raise]

@[simp]
theorem yields_read {f : σ → α} :
  Yields (read f : Routine σ ε α) s a s' ↔ a = f s ∧ s' = s
  := by
  simp [Yields, read, eq_comm]

@[simp]
theorem yields_write {f : σ → σ} {u : Unit} :
  Yields (write f : Routine σ ε Unit) s u s' ↔ s' = f s
  := by
  simp [Yields, write, eq_comm]

@[simp]
theorem yields_require {p : Bool} {u : Unit} :
  Yields (require p e : Routine σ ε Unit) s u s' ↔ p ∧ s' = s
  := by
  cases p
  · simp [Yields, require, raise]
  · simp [Yields, require, Routine.pure, eq_comm]

@[simp]
theorem yields_expect {o : Option α} :
  Yields (expect o e : Routine σ ε α) s a s' ↔ o = some a ∧ s' = s
  := by
  cases o
  · simp [Yields, expect, raise]
  · simp [Yields, expect, Routine.pure, eq_comm]

@[simp]
theorem yields_read_bind {f : σ → α} {k : α → Routine σ ε β} :
  Yields (read f >>= k) s b s' ↔ (k (f s)).Yields s b s'
  := by
  simp [yields_bind]

@[simp]
theorem yields_write_bind {f : σ → σ} {k : Unit → Routine σ ε β} :
  Yields (write f >>= k) s b s' ↔ (k ()).Yields (f s) b s'
  := by
  simp [yields_bind, Unique.exists_iff]

@[simp]
theorem yields_require_bind {p : Bool} {k : Unit → Routine σ ε β} :
  Yields (require p e >>= k) s b s' ↔ p ∧ (k ()).Yields s b s'
  := by
  simp [yields_bind, Unique.exists_iff]

@[simp]
theorem yields_expect_bind {o : Option α} {k : α → Routine σ ε β} :
  Yields (expect o e >>= k) s b s' ↔ ∃ a, o = some a ∧ (k a).Yields s b s'
  := by
  simp [yields_bind]

@[simp]
theorem raises_pure {e' : ε} : ¬ Raises (pure a : Routine σ ε α) s e' s'
  := by
  simp [Raises, pure, Routine.pure]

/-- A routine raises in its first part, or in what follows. -/
theorem raises_bind {f : α → Routine σ ε β} :
  Raises (m >>= f) s e s' ↔
    m.Raises s e s' ∨ ∃ a s₁, m.Yields s a s₁ ∧ (f a).Raises s₁ e s'
  := by
  simp only [Raises, Yields, bind_apply]
  rcases m s with ⟨e | a, s₁⟩
  · simp
  · simp

@[simp]
theorem raises_map {g : α → β} : Raises (g <$> m) s e s' ↔ m.Raises s e s'
  := by
  rw [map_eq_pure_bind, raises_bind]
  simp

@[simp]
theorem raises_read {f : σ → α} : ¬ Raises (read f : Routine σ ε α) s e s'
  := by
  simp [Raises, read]

@[simp]
theorem raises_write {f : σ → σ} : ¬ Raises (write f : Routine σ ε Unit) s e s'
  := by
  simp [Raises, write]

@[simp]
theorem raises_require {p : Bool} {e' : ε} :
  Raises (require p e : Routine σ ε Unit) s e' s' ↔ p = false ∧ e' = e ∧ s' = s
  := by
  cases p
  · simp [Raises, require, raise, eq_comm]
  · simp [Raises, require, Routine.pure]

@[simp]
theorem raises_expect {o : Option α} {e' : ε} :
  Raises (expect o e : Routine σ ε α) s e' s' ↔ o = none ∧ e' = e ∧ s' = s
  := by
  cases o
  · simp [Raises, expect, raise, eq_comm]
  · simp [Raises, expect, Routine.pure]

/-- A transaction returns what its routine returns, and leaves what it leaves. -/
@[simp]
theorem yields_atomic : m.atomic.Yields s a s' ↔ m.Yields s a s'
  := by
  simp only [Yields, atomic_apply]
  rcases m s with ⟨e | a, s₁⟩
  · simp
  · simp

/-- A transaction that raises leaves the state as it was. -/
theorem raises_atomic : m.atomic.Raises s e s' ↔ s' = s ∧ ∃ s₁, m.Raises s e s₁
  := by
  simp only [Raises, atomic_apply]
  rcases m s with ⟨e | a, s₁⟩
  · simp [eq_comm, and_comm]
  · simp

/-- `m` relates every state it is run at by `P` to the one it leaves, whether it returns or
raises. -/
def Within (P : σ → σ → Prop) (m : Routine σ ε α) : Prop := ∀ s, P s (m s).2

section Within

variable {P : σ → σ → Prop}

theorem Within.pure (hrefl : ∀ s, P s s) : Within P (pure a : Routine σ ε α)
  := hrefl

theorem Within.raise (hrefl : ∀ s, P s s) : Within P (raise e : Routine σ ε α)
  := hrefl

theorem Within.read (hrefl : ∀ s, P s s) {f : σ → α} : Within P (read f : Routine σ ε α)
  := hrefl

theorem Within.write {f : σ → σ} (h : ∀ s, P s (f s)) : Within P (write f : Routine σ ε Unit)
  := h

theorem Within.require (hrefl : ∀ s, P s s) {p : Bool} :
  Within P (require p e : Routine σ ε Unit)
  := by
  cases p
  · apply Within.raise hrefl
  · apply Within.pure hrefl

theorem Within.expect (hrefl : ∀ s, P s s) {o : Option α} :
  Within P (expect o e : Routine σ ε α)
  := by
  cases o
  · apply Within.raise hrefl
  · apply Within.pure hrefl

theorem Within.bind (htrans : ∀ s s' s'', P s s' → P s' s'' → P s s'')
    {f : α → Routine σ ε β} (hm : Within P m) (hf : ∀ a, Within P (f a)) :
  Within P (m >>= f)
  := by
  intro s
  have hs := hm s
  rcases hms : m s with ⟨e | a, s'⟩
  · simp only [bind_apply, hms] at hs ⊢
    exact hs
  · simp only [bind_apply, hms] at hs ⊢
    apply htrans _ _ _ hs (hf a s')

theorem Within.atomic (hrefl : ∀ s, P s s) (hm : Within P m) :
  Within P m.atomic
  := by
  intro s
  have hs := hm s
  rcases hms : m s with ⟨e | a, s'⟩
  · simp only [atomic_apply, hms]
    exact hrefl s
  · simp only [atomic_apply, hms] at hs ⊢
    exact hs

theorem Within.of_yields (hm : Within P m) (h : m.Yields s a s') :
  P s s'
  := by
  have := hm s
  rw [h] at this
  exact this

theorem Within.of_raises (hm : Within P m) (h : m.Raises s e s') :
  P s s'
  := by
  have := hm s
  rw [h] at this
  exact this

end Within

/-- `m` leaves the state as it was when it raises. -/
def Reverts (m : Routine σ ε α) : Prop := ∀ s e s', m.Raises s e s' → s' = s

theorem Reverts.atomic : m.atomic.Reverts
  := by
  intro s e s' h
  apply (raises_atomic.mp h).1

/-- A routine that writes nothing leaves the state as it was when it raises. -/
theorem Reverts.of_within (h : Within Eq m) : m.Reverts
  := by
  intro s e s' hm
  apply Eq.symm (h.of_raises hm)

/-- What comes before may write nothing. -/
theorem Reverts.bind {f : α → Routine σ ε β} (hm : Within Eq m)
    (hf : ∀ a, (f a).Reverts) :
  (m >>= f).Reverts
  := by
  intro s e s' h
  have hs := hm s
  simp only [Raises, bind_apply] at h
  rcases hms : m s with ⟨e' | a, s₁⟩
  · rw [hms] at h hs
    cases h
    exact hs.symm
  · rw [hms] at h hs
    cases hs
    apply hf a _ _ _ h

/-- What comes after may not raise. -/
theorem Reverts.map {f : α → β} (hm : m.Reverts) : (m >>= fun a => pure (f a)).Reverts
  := by
  intro s e s' h
  simp only [Raises, bind_apply] at h
  rcases hms : m s with ⟨e' | a, s₁⟩
  · rw [hms] at h
    cases h
    apply hm s _ _ hms
  · rw [hms] at h
    cases h

end Routine

end VynxDesk
