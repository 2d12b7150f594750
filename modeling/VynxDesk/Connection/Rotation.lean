import VynxDesk.Lib.Run

/-!
# Rotation of the temporary password

Wrong passwords are counted for the value that the temporary password has when they are recorded,
which may not be the one they were compared with; the tenth one in a row has the password replaced.
Any number of connections compare and record, and the password is replaced from elsewhere at any
time, also while a connection holds the lock on the counter.  No value of the temporary password is
compared with more than nine wrong passwords and the most that were not recorded yet at the same
time (`rotated_of_run`).
-/

namespace VynxDesk

namespace Conn

/-- What `validate_password` finds: the temporary password, the permanent one, or none. -/
inductive Outcome where
  | temporary
  | permanent
  | wrong
  deriving DecidableEq, Repr

end Conn

namespace TemporaryPassword

open Conn (Outcome)

/-- `MAX_CONSECUTIVE_FAILURES`. -/
def maxConsecutiveFailures : ℕ := 10

/-- `State` of `check_update_temporary_password`. -/
structure Failures where
  password : String := ""
  failures : ℕ := 0
  deriving DecidableEq, Repr

/-- `check_update_temporary_password` up to the rotation, with the password that it reads, and
whether it goes on to rotate it. -/
def Failures.checkUpdate (state : Failures) (currentPassword : String) (success : Bool) :
    Failures × Bool :=
  if currentPassword.isEmpty then (state, false)
  else
    let state :=
      if state.password ≠ currentPassword then { password := currentPassword, failures := 0 }
      else state
    if success then ({ state with failures := 0 }, false)
    else
      let state := { state with failures := state.failures + 1 }
      (state, ¬ state.failures < maxConsecutiveFailures)

/-- Who holds the lock on the counter: nobody, a connection that is about to rotate the password, or
one that has rotated it. -/
inductive Holder where
  | nobody
  | rotating
  | rotated
  deriving DecidableEq, Repr

/-- The temporary password with all its values so far, the counter, the values that the attempts
that are not recorded yet were wrong against, and how many were right and are not recorded yet. -/
structure Rotation where
  temporaryPassword : String
  issued : List String
  state : Failures := {}
  pending : List String := []
  matched : ℕ := 0
  holder : Holder := .nobody
  deriving DecidableEq, Repr

/-- What happens: an attempt is validated; a wrong or right one takes the lock on the counter, and
gives it back unless the password is to be rotated; the holder rotates it, and gives the lock back;
the password is replaced from elsewhere. -/
inductive Event where
  | validate (outcome : Outcome)
  | record (value : String)
  | succeed
  | rotate (newPassword : String)
  | settle
  | update (newPassword : String)
  deriving DecidableEq, Repr

namespace Rotation

/-- A state before any attempt. -/
def start (temporaryPassword : String) : Rotation where
  temporaryPassword := temporaryPassword
  issued := [temporaryPassword]

/-- `update_temporary_password`. -/
def updateTemporaryPassword (s : Rotation) (newPassword : String) : Rotation :=
  { s with temporaryPassword := newPassword, issued := newPassword :: s.issued }

/-- The state after an event; a new password differs from all before it. -/
def next (s : Rotation) : Event → Option Rotation
  | .validate .wrong => some { s with pending := s.temporaryPassword :: s.pending }
  | .validate .temporary => some { s with matched := s.matched + 1 }
  | .validate .permanent => some s
  | .record value =>
      if s.holder = .nobody ∧ value ∈ s.pending then
        let checked := s.state.checkUpdate s.temporaryPassword false
        some { s with
          state := checked.1
          pending := s.pending.erase value
          holder := if checked.2 then .rotating else .nobody }
      else none
  | .succeed =>
      if s.holder = .nobody ∧ 0 < s.matched then
        some { s with
          state := (s.state.checkUpdate s.temporaryPassword true).1
          matched := s.matched - 1 }
      else none
  | .rotate newPassword =>
      if s.holder = .rotating ∧ newPassword ∉ s.issued then
        some { s.updateTemporaryPassword newPassword with holder := .rotated }
      else none
  | .settle =>
      if s.holder = .rotated then
        some { s with
          state := { password := s.temporaryPassword, failures := 0 }
          holder := .nobody }
      else none
  | .update newPassword =>
      if newPassword ∉ s.issued then some (s.updateTemporaryPassword newPassword) else none

/-- A step of the connections. -/
def Step (s : Rotation) (e : Event) (s' : Rotation) : Prop := s.next e = some s'

/-- The wrong attempts validated against a value since the last success. -/
def wrongAgainst (value : String) (h : List (Rotation × Event)) : ℕ :=
  h.foldl (fun n x =>
    match x.2 with
    | .validate .wrong => if x.1.temporaryPassword = value then n + 1 else n
    | .succeed => 0
    | _ => n) 0

/-- The wrong attempts between validation and the end of their recording. -/
def underway (s : Rotation) : ℕ := s.pending.length + if s.holder = .nobody then 0 else 1

/-- The most of them at the same time. -/
def peak (h : List (Rotation × Event)) (s : Rotation) : ℕ :=
  max (h.foldl (fun n x => max n x.1.underway) 0) s.underway

variable {s s' : Rotation} {e : Event} {h : List (Rotation × Event)} {value : String}

theorem wrongAgainst_concat :
  wrongAgainst value (h ++ [(s, e)])
    = match e with
      | .validate .wrong =>
          if s.temporaryPassword = value then wrongAgainst value h + 1 else wrongAgainst value h
      | .succeed => 0
      | _ => wrongAgainst value h
  := by
  rw [wrongAgainst]
  rw [List.foldl_append]
  rfl

theorem wrongAgainst_le (hwrong : e ≠ .validate .wrong) (value : String) :
  wrongAgainst value (h ++ [(s, e)]) ≤ wrongAgainst value h
  := by
  rw [wrongAgainst_concat]
  split
  · exact absurd rfl hwrong
  · apply Nat.zero_le
  · apply Nat.le_refl

theorem peak_concat :
  peak (h ++ [(s, e)]) s' = max (peak h s) s'.underway
  := by
  rw [peak]
  rw [List.foldl_append]
  rfl

/-! ### The counter -/

/-- What the counter has counted for the temporary password. -/
def counted (s : Rotation) : ℕ :=
  if s.state.password = s.temporaryPassword then s.state.failures else 0

/-- A wrong attempt is counted for the password that it is recorded against. -/
theorem checkUpdate_wrong (state : Failures) {currentPassword : String}
    (hne : currentPassword ≠ "") :
  state.checkUpdate currentPassword false
    = ({ password := currentPassword
         failures := (if state.password = currentPassword then state.failures else 0) + 1 },
      decide (9 ≤ if state.password = currentPassword then state.failures else 0))
  := by
  rw [Failures.checkUpdate]
  rw [if_neg (by simpa using hne)]
  by_cases hsame : state.password = currentPassword
  · subst hsame
    simp [maxConsecutiveFailures]
  · simp [hsame, maxConsecutiveFailures]

theorem checkUpdate_empty (state : Failures) {currentPassword : String}
    (hempty : currentPassword = "") (success : Bool) :
  state.checkUpdate currentPassword success = (state, false)
  := by
  rw [hempty]
  rfl

/-- A success has nothing counted for the password that it is recorded against. -/
theorem checkUpdate_right (state : Failures) {currentPassword : String}
    (hne : currentPassword ≠ "") :
  state.checkUpdate currentPassword true = ({ password := currentPassword, failures := 0 }, false)
  := by
  rw [Failures.checkUpdate]
  rw [if_neg (by simpa using hne)]
  by_cases hsame : state.password = currentPassword
  · subst hsame
    simp
  · simp [hsame]

/-- What holds along a run: the wrong attempts against the temporary password are counted or not
recorded yet, and those against a value that it never had are none. -/
structure Inv (h : List (Rotation × Event)) (s : Rotation) : Prop where
  bound : ∀ value ≠ "", wrongAgainst value h ≤ 9 + peak h s
  fresh : ∀ value ∉ s.issued, wrongAgainst value h = 0
  current : s.temporaryPassword ∈ s.issued
  known : s.state.password = "" ∨ s.state.password ∈ s.issued
  counted : s.temporaryPassword ≠ "" →
    wrongAgainst s.temporaryPassword h ≤ s.counted + s.pending.length
  free : s.holder = .nobody → s.state.failures ≤ 9
  rotating : s.state.failures ≤ 10
  rotated : s.holder = .rotated → s.temporaryPassword ≠ "" → s.state.password ≠ s.temporaryPassword

theorem Inv.start (temporaryPassword : String) :
  Inv [] (start temporaryPassword)
  := by
  constructor
  · intro value _
    apply Nat.zero_le
  · intro value _
    rfl
  · apply List.mem_cons_self
  · exact .inl rfl
  · intro _
    apply Nat.zero_le
  · intro _
    apply Nat.zero_le
  · apply Nat.zero_le
  · intro hrotated
    cases hrotated

/-- What is counted and not recorded yet is at most nine and what is under way. -/
theorem Inv.counted_add_le (hinv : Inv h s) :
  s.counted + s.pending.length ≤ 9 + s.underway
  := by
  have hfree := hinv.free
  have hrotating := hinv.rotating
  unfold Rotation.counted underway
  split_ifs with hsame hholder hholder
  · have hnine := hfree hholder
    omega
  · omega
  · omega
  · omega

/-- An event that validates no wrong attempt keeps the bound. -/
theorem Inv.of_le (hinv : Inv h s)
    (hle : ∀ value, wrongAgainst value (h ++ [(s, e)]) ≤ wrongAgainst value h)
    (hissued : s.issued ⊆ s'.issued) (hcurrent : s'.temporaryPassword ∈ s'.issued)
    (hknown : s'.state.password = "" ∨ s'.state.password ∈ s'.issued)
    (hcounted : s'.temporaryPassword ≠ "" →
      wrongAgainst s'.temporaryPassword (h ++ [(s, e)]) ≤ s'.counted + s'.pending.length)
    (hfree : s'.holder = .nobody → s'.state.failures ≤ 9) (hrotating : s'.state.failures ≤ 10)
    (hrotated : s'.holder = .rotated → s'.temporaryPassword ≠ "" →
      s'.state.password ≠ s'.temporaryPassword) :
  Inv (h ++ [(s, e)]) s'
  := by
  constructor
  · intro value hvalue
    have hbound := hinv.bound value hvalue
    have hsame := hle value
    rw [peak_concat]
    omega
  · intro value hvalue
    have hnone := hinv.fresh value (fun hmem => hvalue (hissued hmem))
    have hsame := hle value
    omega
  · exact hcurrent
  · exact hknown
  · exact hcounted
  · exact hfree
  · exact hrotating
  · exact hrotated

/-- A wrong attempt is validated against the temporary password, and waits to be recorded. -/
theorem Inv.validate_wrong (hinv : Inv h s) (hstep : s.Step (.validate .wrong) s') :
  Inv (h ++ [(s, .validate .wrong)]) s'
  := by
  obtain rfl := Option.some.inj hstep
  constructor
  · intro value hvalue
    have hbound := hinv.bound value hvalue
    rw [wrongAgainst_concat, peak_concat]
    dsimp only
    split
    · rename_i hsame
      subst hsame
      have hcounted := hinv.counted hvalue
      have hcount := hinv.counted_add_le
      have hunderway : underway { s with pending := s.temporaryPassword :: s.pending }
          = s.underway + 1 := Nat.add_right_comm _ 1 _
      rw [hunderway]
      omega
    · omega
  · intro value hvalue
    rw [wrongAgainst_concat]
    dsimp only
    rw [if_neg]
    · apply hinv.fresh value hvalue
    · rintro rfl
      exact hvalue hinv.current
  · exact hinv.current
  · exact hinv.known
  · intro hne
    rw [wrongAgainst_concat]
    dsimp only
    rw [if_pos rfl, List.length_cons]
    exact Nat.succ_le_succ (hinv.counted hne)
  · exact hinv.free
  · exact hinv.rotating
  · exact hinv.rotated

/-- How many right attempts are not recorded yet does not matter. -/
theorem Inv.of_matched (hinv : Inv h s)
    (hle : ∀ value, wrongAgainst value (h ++ [(s, e)]) ≤ wrongAgainst value h) (matched : ℕ) :
  Inv (h ++ [(s, e)]) { s with matched := matched }
  := by
  apply hinv.of_le hle
  · apply List.Subset.refl
  · exact hinv.current
  · exact hinv.known
  · intro hne
    apply Nat.le_trans (hle _)
    exact hinv.counted hne
  · exact hinv.free
  · exact hinv.rotating
  · exact hinv.rotated

/-- A right attempt changes nothing before its success is recorded, and nothing at all if it was
right by the permanent password. -/
theorem Inv.validate_right (hinv : Inv h s) {outcome : Outcome} (hright : outcome ≠ .wrong)
    (hstep : s.Step (.validate outcome) s') :
  Inv (h ++ [(s, .validate outcome)]) s'
  := by
  have hsame := wrongAgainst_le (e := .validate outcome) (h := h) (s := s) (by simpa using hright)
  cases outcome with
  | wrong => exact absurd rfl hright
  | temporary =>
      obtain rfl := Option.some.inj hstep
      apply hinv.of_matched hsame
  | permanent =>
      obtain rfl := Option.some.inj hstep
      apply hinv.of_matched hsame

/-- A wrong attempt is recorded. -/
theorem Inv.record (hinv : Inv h s) (hstep : s.Step (.record value) s') :
  Inv (h ++ [(s, .record value)]) s'
  := by
  have hsame := wrongAgainst_le (e := .record value) (h := h) (s := s) nofun
  unfold Step next at hstep
  obtain ⟨⟨hnobody, hmem⟩, hsome⟩ := Option.ite_none_right_eq_some.mp hstep
  clear hstep
  have hnine := hinv.free hnobody
  have hlength : (s.pending.erase value).length + 1 = s.pending.length :=
    List.length_erase_add_one hmem
  by_cases hne : s.temporaryPassword = ""
  · rw [checkUpdate_empty _ hne] at hsome
    obtain rfl := Option.some.inj hsome
    apply hinv.of_le hsame
    · apply List.Subset.refl
    · exact hinv.current
    · exact hinv.known
    · intro hnonempty
      exact absurd hne hnonempty
    · intro _
      exact hnine
    · exact hinv.rotating
    · intro hrotated
      cases hrotated
  · have hcounted := hinv.counted hne
    rw [Rotation.counted] at hcounted
    rw [checkUpdate_wrong _ hne] at hsome
    obtain rfl := Option.some.inj hsome
    apply hinv.of_le hsame
    · apply List.Subset.refl
    · exact hinv.current
    · exact .inr hinv.current
    · intro _
      apply Nat.le_trans (hsame _)
      rw [Rotation.counted, if_pos rfl]
      dsimp only
      omega
    · intro hfree
      dsimp only at hfree ⊢
      by_contra hmany
      have hfull : 9 ≤ if s.state.password = s.temporaryPassword then s.state.failures else 0 := by
        omega
      rw [if_pos (decide_eq_true hfull)] at hfree
      cases hfree
    · dsimp only
      split <;> omega
    · intro hrotated
      dsimp only at hrotated
      rw [ite_eq_iff] at hrotated
      rcases hrotated with ⟨-, hholder⟩ | ⟨-, hholder⟩ <;> cases hholder

/-- A right attempt is recorded. -/
theorem Inv.succeed (hinv : Inv h s) (hstep : s.Step .succeed s') :
  Inv (h ++ [(s, .succeed)]) s'
  := by
  have hnone (value : String) : wrongAgainst value (h ++ [(s, .succeed)]) = 0 := wrongAgainst_concat
  have hsame := wrongAgainst_le (e := .succeed) (h := h) (s := s) nofun
  unfold Step next at hstep
  obtain ⟨⟨hnobody, -⟩, hsome⟩ := Option.ite_none_right_eq_some.mp hstep
  clear hstep
  by_cases hne : s.temporaryPassword = ""
  · rw [checkUpdate_empty _ hne] at hsome
    obtain rfl := Option.some.inj hsome
    apply hinv.of_matched hsame
  · rw [checkUpdate_right _ hne] at hsome
    obtain rfl := Option.some.inj hsome
    apply hinv.of_le hsame
    · apply List.Subset.refl
    · exact hinv.current
    · exact .inr hinv.current
    · intro _
      rw [hnone]
      apply Nat.zero_le
    · intro _
      apply Nat.zero_le
    · apply Nat.zero_le
    · intro hrotated
      rw [hnobody] at hrotated
      cases hrotated

/-- A new password has no wrong attempts against it, and nothing counted. -/
theorem Inv.updateTemporaryPassword (hinv : Inv h s) {newPassword : String}
    (hle : ∀ value, wrongAgainst value (h ++ [(s, e)]) ≤ wrongAgainst value h)
    (hfresh : newPassword ∉ s.issued) {holder : Holder}
    (hfree : holder = .nobody → s.state.failures ≤ 9) :
  Inv (h ++ [(s, e)]) { s.updateTemporaryPassword newPassword with holder := holder }
  := by
  apply hinv.of_le hle
  · apply List.subset_cons_self
  · apply List.mem_cons_self
  · exact hinv.known.imp_right (List.mem_cons_of_mem _)
  · intro _
    have hnone : wrongAgainst newPassword h = 0 := hinv.fresh newPassword hfresh
    apply Nat.le_trans (hle _)
    apply Nat.le_trans (Nat.le_of_eq hnone)
    apply Nat.zero_le
  · exact hfree
  · exact hinv.rotating
  · intro _ hne hsame
    have hpassword : s.state.password = newPassword := hsame
    rcases hinv.known with hempty | hmem
    · exact hne (hpassword.symm.trans hempty)
    · rw [hpassword] at hmem
      exact hfresh hmem

/-- The holder of the lock rotates the password. -/
theorem Inv.rotate (hinv : Inv h s) {newPassword : String}
    (hstep : s.Step (.rotate newPassword) s') :
  Inv (h ++ [(s, .rotate newPassword)]) s'
  := by
  have hsame := wrongAgainst_le (e := .rotate newPassword) (h := h) (s := s) nofun
  unfold Step next at hstep
  obtain ⟨⟨-, hfresh⟩, hsome⟩ := Option.ite_none_right_eq_some.mp hstep
  obtain rfl := Option.some.inj hsome
  apply hinv.updateTemporaryPassword hsame hfresh
  intro hfree
  cases hfree

/-- The password is replaced from elsewhere. -/
theorem Inv.update (hinv : Inv h s) {newPassword : String}
    (hstep : s.Step (.update newPassword) s') :
  Inv (h ++ [(s, .update newPassword)]) s'
  := by
  have hsame := wrongAgainst_le (e := .update newPassword) (h := h) (s := s) nofun
  unfold Step next at hstep
  obtain ⟨hfresh, hsome⟩ := Option.ite_none_right_eq_some.mp hstep
  obtain rfl := Option.some.inj hsome
  apply hinv.updateTemporaryPassword hsame hfresh hinv.free

/-- The holder of the lock gives it back. -/
theorem Inv.settle (hinv : Inv h s) (hstep : s.Step .settle s') :
  Inv (h ++ [(s, .settle)]) s'
  := by
  have hsame := wrongAgainst_le (e := .settle) (h := h) (s := s) nofun
  unfold Step next at hstep
  obtain ⟨hrotated, hsome⟩ := Option.ite_none_right_eq_some.mp hstep
  obtain rfl := Option.some.inj hsome
  apply hinv.of_le hsame
  · apply List.Subset.refl
  · exact hinv.current
  · exact .inr hinv.current
  · intro hne
    have hcounted := hinv.counted hne
    rw [Rotation.counted, if_neg (hinv.rotated hrotated hne)] at hcounted
    apply Nat.le_trans (hsame _)
    apply Nat.le_trans hcounted
    apply Nat.add_le_add_right (Nat.zero_le _)
  · intro _
    apply Nat.zero_le
  · apply Nat.zero_le
  · intro hholder
    cases hholder

theorem Inv.step (hinv : Inv h s) (hstep : s.Step e s') :
  Inv (h ++ [(s, e)]) s'
  := by
  cases e with
  | validate outcome =>
      by_cases hwrong : outcome = .wrong
      · subst hwrong
        apply hinv.validate_wrong hstep
      · apply hinv.validate_right hwrong hstep
  | record value => apply hinv.record hstep
  | succeed => apply hinv.succeed hstep
  | rotate newPassword => apply hinv.rotate hstep
  | settle => apply hinv.settle hstep
  | update newPassword => apply hinv.update hstep

/-- In every run of any number of attempts, successes and replacements of the password, the wrong
attempts that are validated against one value of the temporary password without a success in between
are at most nine and the most wrong attempts that were between validation and recording at the same
time. -/
theorem rotated_of_run {temporaryPassword : String} (hrun : Run Step (start temporaryPassword) h s)
    (value : String) (hvalue : value ≠ "") :
  wrongAgainst value h ≤ 9 + peak h s
  := by
  have hinv : Inv h s := hrun.history_invariant Inv (Inv.start temporaryPassword)
    fun _ _ _ _ _ hinv hstep => hinv.step hstep
  apply hinv.bound value hvalue

/-- Two attempts are validated.  One is recorded, and eight more come and go, before the other has
the password rotated. -/
def sampleEvents : List Event :=
  [.validate .wrong, .validate .wrong, .record "secret"]
    ++ (List.replicate 8 [Event.validate .wrong, .record "secret"]).flatten
    ++ [.validate .wrong, .record "secret", .rotate "another", .settle]

theorem rotated_sample :
  ∃ (h : List (Rotation × Event)) (s : Rotation), Run Step (start "secret") h s
    ∧ s.temporaryPassword = "another" ∧ wrongAgainst "secret" h = 11 ∧ peak h s = 2
    ∧ wrongAgainst "secret" h ≤ 9 + peak h s
  := by
  obtain ⟨h, s, hrun, htest⟩ := Run.exists_of_traceM next (start "secret") sampleEvents
    (fun h s => s.temporaryPassword = "another" ∧ wrongAgainst "secret" h = 11 ∧ peak h s = 2)
    (by decide)
  obtain ⟨hrotated, hwrong, hpeak⟩ := of_decide_eq_true htest
  use h, s, hrun, hrotated, hwrong, hpeak
  apply rotated_of_run hrun "secret" (by decide)

end Rotation

end TemporaryPassword

end VynxDesk
