import Mathlib.Logic.Function.Basic
import VynxDesk.Connection.Login
import VynxDesk.Lib.Run

/-!
# Pending requests to switch sides

A peer asks to switch sides with a uuid of its choice; the process that the request starts claims
the uuid.  The table has one entry for each id: what was claimed is kept there until the entry
expires, so that a request that is sent again is not honoured again.  An entry that another request
replaces, or that expires soon after it was claimed, is forgotten too early (`not_onceOnly`).  In
runs where no forgotten request is taken again within `SWITCH_SIDES_UUID_TTL` of its claim, it is
honoured at most once in that time (`onceOnly_of_run`), and no weaker condition has every state safe
(`safe_iff_of_run`).
-/

namespace VynxDesk.SwitchSides

/-- `uuid::Uuid`. -/
abbrev Uuid : Type := BitVec 128

/-- `SWITCH_SIDES_UUID_TTL`, in nanoseconds. -/
def ttl : ℕ := Conn.switchSidesUuidTtl * 1000000

/-- An entry of `PENDING_SWITCH_SIDES_UUID`: when it was inserted, its uuid, and whether it was
claimed. -/
structure Pending where
  instant : ℕ
  uuid : Uuid
  claimed : Bool
  deriving DecidableEq, Repr

/-- `PENDING_SWITCH_SIDES_UUID`. -/
abbrev Table : Type := String → Option Pending

/-- `uuids.retain(|_, (instant, _, _)| instant.elapsed() < SWITCH_SIDES_UUID_TTL)`. -/
def Table.sweep (uuids : Table) (now : ℕ) : Table :=
  fun id => (uuids id).filter fun p => now - p.instant < ttl

/-- `insert_pending_switch_sides_uuid`. -/
def insertPendingSwitchSidesUuid (id : String) (uuid : Uuid) (now : ℕ) (uuids : Table) :
    Bool × Table :=
  let uuids := uuids.sweep now
  if (uuids id).map Pending.uuid = some uuid then (false, uuids)
  else (true, Function.update uuids id (some ⟨now, uuid, false⟩))

/-- `has_pending_switch_sides_uuid`. -/
def hasPendingSwitchSidesUuid (id : String) (uuid : Uuid) (now : ℕ) (uuids : Table) :
    Bool × Table :=
  let uuids := uuids.sweep now
  ((uuids id).map (fun p => p.uuid = uuid && !p.claimed) = some true, uuids)

/-- `claim_pending_switch_sides_uuid`. -/
def claimPendingSwitchSidesUuid (id : String) (uuid : Uuid) (now : ℕ) (uuids : Table) :
    Bool × Table :=
  let uuids := uuids.sweep now
  match uuids id with
  | some p =>
      if p.uuid = uuid ∧ !p.claimed then
        (true, Function.update uuids id (some { p with claimed := true }))
      else (false, uuids)
  | none => (false, uuids)

/-- A call of one of the three functions. -/
inductive Call where
  | insert (id : String) (uuid : Uuid)
  | has (id : String) (uuid : Uuid)
  | claim (id : String) (uuid : Uuid)
  deriving DecidableEq, Repr

/-- What a call returns, and the table behind it. -/
def Call.eval (now : ℕ) (uuids : Table) : Call → Bool × Table
  | .insert id uuid => insertPendingSwitchSidesUuid id uuid now uuids
  | .has id uuid => hasPendingSwitchSidesUuid id uuid now uuids
  | .claim id uuid => claimPendingSwitchSidesUuid id uuid now uuids

/-- The table, the time of the last call, and the requests that were honoured, with their times. -/
structure State where
  uuids : Table := fun _ => none
  now : ℕ := 0
  honoured : List (String × Uuid × ℕ) := []

namespace State

/-- The request that a call honours. -/
def honours (s : State) (x : Call × ℕ) : Option (String × Uuid × ℕ) :=
  match x.1 with
  | .claim id uuid => if (x.1.eval x.2 s.uuids).1 then some (id, uuid, x.2) else none
  | _ => none

/-- The state behind a call, which is given with its time. -/
def next (s : State) (x : Call × ℕ) : Option State :=
  if s.now ≤ x.2 then
    some {
      uuids := (x.1.eval x.2 s.uuids).2
      now := x.2
      honoured := (s.honours x).toList ++ s.honoured }
  else none

/-- A step of the program. -/
def Step (s : State) (x : Call × ℕ) (s' : State) : Prop := s.next x = some s'

/-- An insertion of a request that the table does not hold comes no sooner than
`SWITCH_SIDES_UUID_TTL` after the last time the request was honoured. -/
def Fresh (s : State) (x : Call × ℕ) : Prop :=
  match x.1 with
  | .insert id uuid => ((s.uuids.sweep x.2) id).map Pending.uuid ≠ some uuid →
      ∀ r ∈ s.honoured, r.1 = id → r.2.1 = uuid → r.2.2 + ttl ≤ x.2
  | _ => True

instance (s : State) (x : Call × ℕ) : Decidable (s.Fresh x) :=
  match x with
  | (.insert _ _, _) => inferInstanceAs (Decidable (_ → ∀ r ∈ s.honoured, _))
  | (.has _ _, _) => .isTrue trivial
  | (.claim _ _, _) => .isTrue trivial

/-- No request would be honoured again within `SWITCH_SIDES_UUID_TTL` if it was claimed now. -/
def Safe (s : State) : Prop :=
  ∀ id uuid t, (id, uuid, t) ∈ s.honoured →
    ((Call.claim id uuid).eval s.now s.uuids).1 = true → t + ttl ≤ s.now

/-- No request is honoured twice within a span shorter than `SWITCH_SIDES_UUID_TTL`. -/
def OnceOnly (h : List (State × (Call × ℕ))) : Prop :=
  ∀ id uuid, h.Pairwise fun x y =>
    x.1.honours x.2 = some (id, uuid, x.2.2) → y.1.honours y.2 = some (id, uuid, y.2.2) →
      x.2.2 + ttl ≤ y.2.2

/-- Every claim that returns true would have found the request pending just before. -/
def OnlyPending (h : List (State × (Call × ℕ))) : Prop :=
  ∀ x ∈ h, ∀ id uuid, x.2.1 = .claim id uuid → (x.2.1.eval x.2.2 x.1.uuids).1 = true →
    ∀ now, x.1.now ≤ now → now ≤ x.2.2 → (hasPendingSwitchSidesUuid id uuid now x.1.uuids).1 = true

variable {s s' : State} {x : Call × ℕ} {id id' : String} {uuid : Uuid} {now : ℕ} {p : Pending}

theorem sweep_eq_some {uuids : Table} :
  uuids.sweep now id = some p ↔ uuids id = some p ∧ now - p.instant < ttl
  := by
  simp [Table.sweep, Option.filter_eq_some_iff]

/-- A claim returns true when the table holds the request, unclaimed and not expired. -/
theorem claim_iff {uuids : Table} :
  ((Call.claim id uuid).eval now uuids).1 = true
    ↔ ∃ p, uuids.sweep now id = some p ∧ p.uuid = uuid ∧ p.claimed = false
  := by
  rw [Call.eval, claimPendingSwitchSidesUuid]
  split
  · rename_i p hp
    rw [hp]
    split <;> simp_all
  · rename_i hnone
    rw [hnone]
    simp

theorem hasPending_iff {uuids : Table} :
  (hasPendingSwitchSidesUuid id uuid now uuids).1 = true
    ↔ ∃ p, uuids.sweep now id = some p ∧ p.uuid = uuid ∧ p.claimed = false
  := by
  simp [hasPendingSwitchSidesUuid]

/-- The request that is honoured is that of a claim which returns true. -/
theorem honours_eq_some {t : ℕ} :
  s.honours x = some (id, uuid, t)
    ↔ x.1 = .claim id uuid ∧ ((Call.claim id uuid).eval x.2 s.uuids).1 = true ∧ t = x.2
  := by
  obtain ⟨call, now⟩ := x
  cases call with
  | insert id' uuid' => simp [honours]
  | has id' uuid' => simp [honours]
  | claim id' uuid' =>
      rw [honours, Option.ite_none_right_eq_some]
      dsimp only
      rw [Option.some_inj, Prod.mk.injEq, Prod.mk.injEq, Call.claim.injEq]
      constructor
      · rintro ⟨htrue, rfl, rfl, rfl⟩
        exact ⟨⟨rfl, rfl⟩, htrue, rfl⟩
      · rintro ⟨⟨rfl, rfl⟩, htrue, rfl⟩
        exact ⟨htrue, rfl, rfl, rfl⟩

/-- What an insertion leaves in the table was there before, or it is the request, which the table
did not hold. -/
theorem entry_insert {uuids : Table}
    (hentry : (insertPendingSwitchSidesUuid id uuid now uuids).2 id' = some p) :
  uuids.sweep now id' = some p
    ∨ (id' = id ∧ p = ⟨now, uuid, false⟩ ∧ (uuids.sweep now id).map Pending.uuid ≠ some uuid)
  := by
  rw [insertPendingSwitchSidesUuid] at hentry
  split at hentry
  · left
    exact hentry
  · rename_i hnew
    dsimp only at hentry
    by_cases hid : id' = id
    · right
      rw [hid, Function.update_self] at hentry
      exact ⟨hid, (Option.some.inj hentry).symm, hnew⟩
    · left
      rw [Function.update_of_ne hid] at hentry
      exact hentry

/-- What a claim leaves unclaimed in the table was there before, and it is not what was claimed. -/
theorem entry_claim {uuids : Table} (hclaimed : p.claimed = false)
    (hentry : ((Call.claim id uuid).eval now uuids).2 id' = some p) :
  uuids.sweep now id' = some p
    ∧ (((Call.claim id uuid).eval now uuids).1 = true → id' = id → p.uuid ≠ uuid)
  := by
  rw [claim_iff]
  rw [Call.eval, claimPendingSwitchSidesUuid] at hentry
  split at hentry
  · rename_i q hq
    split at hentry
    · dsimp only at hentry
      by_cases hid : id' = id
      · rw [hid, Function.update_self] at hentry
        cases hentry
        cases hclaimed
      · rw [Function.update_of_ne hid] at hentry
        exact ⟨hentry, fun _ hsame => absurd hsame hid⟩
    · rename_i hother
      apply And.intro hentry
      rintro - rfl rfl
      dsimp only at hentry
      obtain rfl := Option.some.inj (hq.symm.trans hentry)
      exact hother ⟨rfl, by rw [hclaimed]; rfl⟩
  · rename_i hnone
    apply And.intro hentry
    rintro ⟨q, hq, -⟩
    rw [hq] at hnone
    cases hnone

/-- What holds while no request is taken again too early: what is unclaimed was not honoured within
`SWITCH_SIDES_UUID_TTL`. -/
def Inv (s : State) : Prop :=
  ∀ id p, s.uuids id = some p → p.claimed = false →
    ∀ t, (id, p.uuid, t) ∈ s.honoured → t + ttl ≤ s.now

theorem Inv.start : Inv {}
  := nofun

/-- A claim that returns true comes no sooner than `SWITCH_SIDES_UUID_TTL` after the last one. -/
theorem Inv.claim (hinv : Inv s) (hnow : s.now ≤ now)
    (hclaim : ((Call.claim id uuid).eval now s.uuids).1 = true) {t : ℕ}
    (ht : (id, uuid, t) ∈ s.honoured) :
  t + ttl ≤ now
  := by
  obtain ⟨p, hp, rfl, hclaimed⟩ := claim_iff.mp hclaim
  apply Nat.le_trans (hinv id p (sweep_eq_some.mp hp).1 hclaimed t ht) hnow

theorem Inv.safe (hinv : Inv s) :
  s.Safe
  := by
  intro id uuid t ht hclaim
  apply hinv.claim (Nat.le_refl _) hclaim ht

/-- The time does not go back, and what is honoured is recorded. -/
theorem step_iff :
  s.Step x s' ↔ s.now ≤ x.2
    ∧ s' = ⟨(x.1.eval x.2 s.uuids).2, x.2, (s.honours x).toList ++ s.honoured⟩
  := by
  rw [Step, next, Option.ite_none_right_eq_some, Option.some_inj]
  constructor
  · rintro ⟨hnow, rfl⟩
    exact ⟨hnow, rfl⟩
  · rintro ⟨hnow, rfl⟩
    exact ⟨hnow, rfl⟩

theorem Inv.step (hinv : Inv s) (hfresh : s.Fresh x) (hstep : s.Step x s') :
  Inv s'
  := by
  obtain ⟨hnow, rfl⟩ := step_iff.mp hstep
  obtain ⟨call, now⟩ := x
  intro id p hp hclaimed t ht
  have hkept (h : s.uuids.sweep now id = some p) (ht : (id, p.uuid, t) ∈ s.honoured) :
      t + ttl ≤ now := by
    apply Nat.le_trans (hinv id p (sweep_eq_some.mp h).1 hclaimed t ht) hnow
  cases call with
  | insert id' uuid =>
      rcases entry_insert hp with hsame | ⟨rfl, rfl, hnew⟩
      · apply hkept hsame ht
      · apply hfresh hnew _ ht rfl rfl
  | has id' uuid => apply hkept hp ht
  | claim id' uuid =>
      obtain ⟨hsame, hother⟩ := entry_claim hclaimed hp
      rcases List.mem_append.mp ht with hnew | hold
      · rw [Option.mem_toList, honours_eq_some] at hnew
        obtain ⟨hcall, htrue, -⟩ := hnew
        cases hcall
        exact absurd rfl (hother htrue rfl)
      · apply hkept hsame hold

/-- An insertion that goes through leaves a request that a claim honours. -/
theorem fresh_of_safe (hstep : s.Step x s') (hsafe : s'.Safe) :
  s.Fresh x
  := by
  obtain ⟨hnow, rfl⟩ := step_iff.mp hstep
  obtain ⟨call, now⟩ := x
  cases call with
  | insert id uuid =>
      rintro hnew ⟨_, _, t⟩ ht rfl rfl
      have hpos : 0 < ttl := by
        decide
      apply hsafe _ _ t ht
      rw [claim_iff]
      refine ⟨⟨now, _, false⟩, ?_, rfl, rfl⟩
      rw [sweep_eq_some, Call.eval, insertPendingSwitchSidesUuid]
      dsimp only
      rw [if_neg hnew]
      dsimp only
      rw [Function.update_self, Nat.sub_self]
      exact ⟨rfl, hpos⟩
  | has id uuid => trivial
  | claim id uuid => trivial

end State

open State

variable {h : List (State × (Call × ℕ))} {s : State}

/-- In every state of a run no request would be honoured again within `SWITCH_SIDES_UUID_TTL`,
exactly when no forgotten request is taken again within that time. -/
theorem safe_iff_of_run (hrun : Run Step {} h s) :
  ((∀ x ∈ h, x.1.Safe) ∧ s.Safe) ↔ ∀ x ∈ h, x.1.Fresh x.2
  := by
  apply hrun.forall_iff Fresh Inv Safe Inv.start fun _ hinv => hinv.safe
  · intro s x s' hinv hfresh hstep
    apply hinv.step hfresh hstep
  · intro s x s' _ hstep hsafe
    apply fresh_of_safe hstep hsafe

/-- What was honoured in a run is recorded. -/
theorem mem_honoured (hrun : Run Step {} h s) :
  ∀ x ∈ h, ∀ r ∈ x.1.honours x.2, r ∈ s.honoured
  := by
  induction hrun with
  | nil => exact nofun
  | snoc hrun hstep ih =>
      obtain ⟨-, rfl⟩ := step_iff.mp hstep
      intro x hx r hr
      rw [List.mem_append] at hx ⊢
      rcases hx with hx | hx
      · right
        apply ih x hx r hr
      · left
        rw [List.mem_singleton] at hx
        rw [hx] at hr
        rw [Option.mem_toList]
        exact hr

/-- In every run in which no forgotten request is taken again within `SWITCH_SIDES_UUID_TTL` of its
claim, no request is honoured twice within that time; and in every run a claim returns true only for
what was pending just before. -/
theorem onceOnly_of_run (hrun : Run Step {} h s) :
  ((∀ x ∈ h, x.1.Fresh x.2) → OnceOnly h) ∧ OnlyPending h
  := by
  constructor
  · intro hfresh id uuid
    induction hrun with
    | nil => apply List.Pairwise.nil
    | @snoc h s s' x hrun hstep ih =>
        rw [List.forall_mem_append, List.forall_mem_singleton] at hfresh
        rw [List.pairwise_append]
        refine ⟨ih hfresh.1, List.pairwise_singleton _ _, ?_⟩
        intro x' hx' y hy hbefore hnow
        obtain rfl := List.mem_singleton.mp hy
        have hinv := hrun.invariant_of Fresh Inv Inv.start (fun _ _ _ => Inv.step) hfresh.1
        obtain ⟨-, hclaim, -⟩ := honours_eq_some.mp hnow
        apply hinv.claim (step_iff.mp hstep).1 hclaim
        apply mem_honoured hrun x' hx' _ hbefore
  · intro x _ id uuid hcall htrue now _ hnow
    rw [hcall, claim_iff] at htrue
    obtain ⟨p, hp, hrest⟩ := htrue
    obtain ⟨hentry, hlt⟩ := sweep_eq_some.mp hp
    rw [hasPending_iff]
    exact ⟨p, sweep_eq_some.mpr ⟨hentry, by omega⟩, hrest⟩

/-- A request is claimed and sent again, at once and once it has expired. -/
def sampleCalls : List (Call × ℕ) :=
  [(.insert "peer" 1, 0), (.has "peer" 1, 1), (.claim "peer" 1, 2), (.insert "peer" 1, 3),
    (.claim "peer" 1, 4), (.insert "peer" 1, 2 * ttl), (.claim "peer" 1, 2 * ttl)]

theorem onceOnly_sample :
  ∃ h s, Run Step {} h s ∧ s.honoured = [("peer", 1, 2 * ttl), ("peer", 1, 2)] ∧ OnceOnly h
    ∧ OnlyPending h
  := by
  obtain ⟨h, s, hrun, htest⟩ := Run.exists_of_traceM next {} sampleCalls
    (fun h s => s.honoured = [("peer", 1, 2 * ttl), ("peer", 1, 2)] ∧ ∀ x ∈ h, x.1.Fresh x.2)
    (by decide)
  obtain ⟨hhonoured, hfresh⟩ := of_decide_eq_true htest
  obtain ⟨honce, hpending⟩ := onceOnly_of_run hrun
  exact ⟨h, s, hrun, hhonoured, honce hfresh, hpending⟩

/-- A request is claimed, another one takes its entry, and the first one is sent again. -/
def otherBetween : List (Call × ℕ) :=
  [(.insert "peer" 1, 0), (.claim "peer" 1, 1), (.insert "peer" 2, 2), (.insert "peer" 1, 3),
    (.claim "peer" 1, 4)]

/-- The first request is honoured twice within three nanoseconds. -/
theorem not_onceOnly :
  ¬ ∀ (h : List (State × (Call × ℕ))) (s : State), Run Step {} h s → OnceOnly h ∧ OnlyPending h
  := by
  intro hall
  obtain ⟨h, s, hrun, htwice⟩ := Run.exists_of_traceM next {} otherBetween
    (fun h _ => ¬ h.Pairwise fun x y => x.1.honours x.2 = some ("peer", 1, x.2.2) →
      y.1.honours y.2 = some ("peer", 1, y.2.2) → x.2.2 + ttl ≤ y.2.2)
    (by decide)
  apply of_decide_eq_true htwice
  apply (hall h s hrun).1

end VynxDesk.SwitchSides
