import VynxDesk.Connection.Failures

/-!
# Wrong attempts of one minute

A check refuses an address once its entry counts more than six wrong attempts of the running minute.
An attempt is recorded in the minute of its check, which may have passed by then: recorded over an
entry of the running minute, it puts the entry back and the count of the running minute is lost
(`not_perMinute`).  In runs where that never happens, the wrong attempts of an address whose checks
fell in one minute are at most seven and the most attempts that were under way at the same time
(`perMinute_of_run`).
-/

namespace VynxDesk.LoginFailures

/-- The minute that a time in milliseconds falls in. -/
def minuteOf (time : ℤ) : ℤ := time.tdiv 60000

/-- What a check returns has its minute. -/
theorem FailureMap.time_checkFailure (m : FailureMap) (ip : String) (time : ℤ) :
  (m.checkFailure ip time).time = time
  := by
  have hprefix {check : Check} {key : String} {len : ℕ} {thresh : ℤ}
      (h : m.checkFailureIpv6Prefix time key len thresh = some check) : check.time = time := by
    rw [checkFailureIpv6Prefix] at h
    split at h
    · obtain rfl := Option.some.inj h
      rfl
    · cases h
  have haddress : (m.checkAddress ip time).time = time := by
    unfold checkAddress
    dsimp only
    split_ifs <;> rfl
  rw [checkFailure]
  cases hcheck : m.checkPrefixes ip time with
  | none => exact haddress
  | some check =>
      unfold checkPrefixes at hcheck
      split at hcheck
      · simp only [Option.orElse_eq_or, Option.or_eq_some_iff] at hcheck
        rcases hcheck with (h | ⟨-, h⟩) | ⟨-, h⟩ <;> apply hprefix h
      · cases hcheck

variable {addr : IpAddr}

/-- The text of an address is a key of no address with another text. -/
theorem eq_of_mem_failureKeys {addr' : IpAddr} (hmem : ipText addr ∈ failureKeys (ipText addr')) :
  ipText addr = ipText addr'
  := by
  have hslash {p : String} (hp : prefixLength p ≠ []) : ipText addr ≠ p := by
    rintro rfl
    exact hp (prefixLength_ipText addr)
  unfold failureKeys at hmem
  cases hprefixes : getIpv6Prefixes (ipText addr') with
  | none =>
      rw [hprefixes] at hmem
      exact List.mem_singleton.mp hmem
  | some prefixes =>
      obtain ⟨p64, p56, p48⟩ := prefixes
      obtain ⟨h64, h56, h48⟩ := prefixLength_getIpv6Prefixes hprefixes
      have hne64 : ipText addr ≠ p64 := hslash (by rw [h64]; decide)
      have hne56 : ipText addr ≠ p56 := hslash (by rw [h56]; decide)
      have hne48 : ipText addr ≠ p48 := hslash (by rw [h48]; decide)
      rw [hprefixes] at hmem
      simpa [hne64, hne56, hne48] using hmem

namespace FailureMap

/-- An attempt that a check allows has no more than six wrong ones before it in its minute. -/
theorem ofMinute_le_of_res {m : FailureMap} {ip : String} {time : ℤ}
    (hres : (m.checkFailure ip time).res = true) (hminute : (m.get ip).minute = time) :
  (m.get ip).ofMinute ≤ 6
  := by
  have haddress : (m.checkAddress ip time).res = true := by
    unfold checkFailure at hres
    cases hprefixes : getIpv6Prefixes ip with
    | none =>
        rw [checkPrefixes_of_none m time hprefixes] at hres
        exact hres
    | some prefixes =>
        obtain ⟨p64, p56, p48⟩ := prefixes
        rcases m.checkPrefixes_cases time hprefixes with ⟨check, hsome, hrefused⟩ | ⟨hnone, -⟩
        · rw [hsome, Option.getD_some, hrefused] at hres
          cases hres
        · rw [hnone] at hres
          exact hres
  unfold checkAddress at haddress
  dsimp only at haddress
  split at haddress
  · cases haddress
  · split at haddress
    · cases haddress
    · rename_i hsix
      rw [not_and] at hsix
      exact Int.not_lt.mp (hsix hminute.symm)

theorem foldl_remove_of_notMem {key : String} (keys : List String) (hkey : key ∉ keys) :
  ∀ m : FailureMap, keys.foldl remove m key = m key
  := by
  induction keys with
  | nil =>
      intro m
      rfl
  | cons first keys ih =>
      obtain ⟨hfirst, hkeys⟩ : key ≠ first ∧ key ∉ keys := by simpa using hkey
      intro m
      rw [List.foldl_cons, ih hkeys]
      apply Function.update_of_ne hfirst

/-- A success leaves the keys of other connections. -/
theorem updateFailure_right_of_notMem (m : FailureMap) {ip key : String} (failure : Failure)
    (time : ℤ) (hkey : key ∉ failureKeys ip) :
  m.updateFailure ip failure time true key = m key
  := by
  rw [updateFailure]
  rw [if_pos rfl]
  unfold failureKeys at hkey
  split
  · cases hprefixes : getIpv6Prefixes ip with
    | none =>
        rw [hprefixes] at hkey
        apply foldl_remove_of_notMem [ip] hkey
    | some prefixes =>
        obtain ⟨p64, p56, p48⟩ := prefixes
        rw [hprefixes] at hkey
        apply foldl_remove_of_notMem [p64, p56, p48, ip]
        simp only [List.mem_cons, List.not_mem_nil, or_false, not_or] at hkey ⊢
        exact ⟨hkey.2.1, hkey.2.2.1, hkey.2.2.2, hkey.1⟩
  · rfl

/-- What decays is stale. -/
theorem decayStaleFailures_cases (keys : List String) (now window : ℤ) (key : String) :
  ∀ m : FailureMap, m.decayStaleFailures keys now window key = m key
    ∨ ∃ v, m key = some v ∧ window ≤ saturatingSub now v.minute
  := by
  induction keys with
  | nil =>
      intro m
      exact .inl rfl
  | cons first keys ih =>
      intro m
      rw [decayStaleFailures, List.foldl_cons]
      split
      · rename_i v hv
        split
        · by_cases hkey : key = first
          · subst hkey
            right
            use v
          · have hsame : m.remove first key = m key := Function.update_of_ne hkey _ _
            rw [← hsame]
            apply ih
        · apply ih
      · apply ih

end FailureMap

/-- The attempts of the connections, those under way each with the time of its check. -/
structure Timed where
  attempts : Attempts
  checked : List (Attempt × ℤ) := []

namespace Timed

open Attempts (concerns counts inFlight)

/-- The attempt that an event ends. -/
def ends : Event → Option Attempt
  | .wrong a | .right a | .abandon a => some a
  | _ => none

/-- The attempt that an event begins: the check allows it. -/
def begins (s : Attempts) : Event → Option Attempt
  | .checkFailure addr i =>
      let check := (s.failures i).checkFailure (ipText addr) (minutes s.now)
      if check.res then some ⟨addr, i, check.failure, check.time⟩ else none
  | _ => none

/-- The state after an event, given with the time of the check of the attempt that it ends. -/
def next (s : Timed) (x : Event × ℤ) : Option Timed :=
  match ends x.1 with
  | some a =>
      if (a, x.2) ∈ s.checked then
        some { attempts := s.attempts.next x.1, checked := s.checked.erase (a, x.2) }
      else none
  | none =>
      some {
        attempts := s.attempts.next x.1
        checked := ((begins s.attempts x.1).map (·, s.attempts.now)).toList ++ s.checked }

/-- A step of the connections. -/
def Step (s : Timed) (x : Event × ℤ) (s' : Timed) : Prop := s.next x = some s'

/-- A success of an attempt that has the key, at a map. -/
def succeeds (i : Fin 3) (key : String) : Event → Bool
  | .right a => concerns i key a
  | .clearIdWhitelistFailures addr => i = failureIdxIdWhitelist ∧ key ∈ failureKeys (ipText addr)
  | _ => false

/-- A wrong attempt that counts for a key of a map, and whose check fell in the minute. -/
def countsIn (i : Fin 3) (key : String) (minute : ℤ) (x : Event × ℤ) : Bool :=
  counts i key x.1 ∧ minuteOf x.2 = minute

/-- The wrong attempts for a key of a map whose checks fell in the minute, since the last success.
-/
def wrongIn (i : Fin 3) (key : String) (minute : ℤ) (h : List (Timed × (Event × ℤ))) : ℕ :=
  h.foldl (fun n x =>
    if succeeds i key x.2.1 then 0 else if countsIn i key minute x.2 then n + 1 else n) 0

/-- The most attempts for a key of a map that were between check and update at the same time. -/
def crowd (i : Fin 3) (key : String) (h : List (Timed × (Event × ℤ))) (s : Timed) : ℕ :=
  max (h.foldl (fun n x => max n (inFlight i key x.1.attempts)) 0) (inFlight i key s.attempts)

/-- A wrong attempt that was not checked in the running minute is recorded over an entry of the
running minute. -/
def overwrites (i : Fin 3) (key : String) (s : Timed) (x : Event × ℤ) : Bool :=
  match x.1 with
  | .wrong a =>
      concerns i key a && (s.attempts.failures i key).any (·.minute = minutes s.attempts.now)
        && a.time ≠ minutes s.attempts.now
  | _ => false

variable {s s' : Timed} {x : Event × ℤ} {i : Fin 3} {key : String} {minute : ℤ}
  {h : List (Timed × (Event × ℤ))}

theorem wrongIn_concat (h : List (Timed × (Event × ℤ))) :
  wrongIn i key minute (h ++ [(s, x)])
    = if succeeds i key x.1 then 0
      else if countsIn i key minute x then wrongIn i key minute h + 1 else wrongIn i key minute h
  := by
  rw [wrongIn]
  rw [List.foldl_append]
  rfl

theorem crowd_concat (h : List (Timed × (Event × ℤ))) :
  crowd i key (h ++ [(s, x)]) s' = max (crowd i key h s) (inFlight i key s'.attempts)
  := by
  rw [crowd]
  rw [List.foldl_append]
  rfl

/-! ### Steps -/

/-- A step ends an attempt under way, or begins one, or does neither. -/
theorem step_cases (hstep : s.Step x s') :
  s'.attempts = s.attempts.next x.1 ∧
    ((∃ a, ends x.1 = some a ∧ (a, x.2) ∈ s.checked ∧ s'.checked = s.checked.erase (a, x.2))
    ∨ (∃ a, ends x.1 = none ∧ begins s.attempts x.1 = some a
        ∧ s'.checked = (a, s.attempts.now) :: s.checked)
    ∨ (ends x.1 = none ∧ begins s.attempts x.1 = none ∧ s'.checked = s.checked))
  := by
  unfold Step next at hstep
  cases hends : ends x.1 with
  | some a =>
      rw [hends] at hstep
      dsimp only at hstep
      split at hstep
      · obtain rfl := Option.some.inj hstep
        use rfl
        left
        use a
      · cases hstep
  | none =>
      rw [hends] at hstep
      obtain rfl := Option.some.inj hstep
      use rfl
      right
      cases begins s.attempts x.1 with
      | some a =>
          left
          use a
          exact ⟨rfl, rfl, rfl⟩
      | none =>
          right
          exact ⟨rfl, rfl, rfl⟩

/-- The attempts under way after an event. -/
theorem pending_next (s : Attempts) (e : Event) :
  (s.next e).pending
    = match ends e with
      | some a => s.pending.erase a
      | none => (begins s e).toList ++ s.pending
  := by
  cases e with
  | checkFailure addr i =>
      unfold Attempts.next begins ends
      dsimp only
      split <;> rfl
  | _ => rfl

/-- The attempts under way are those whose checks have allowed them. -/
def Tracks (s : Timed) : Prop := (s.checked.map Prod.fst).Perm s.attempts.pending

theorem Tracks.step (h : s.Tracks) (hstep : s.Step x s') :
  s'.Tracks
  := by
  obtain ⟨hattempts, hcases⟩ := step_cases hstep
  unfold Tracks
  rw [hattempts, pending_next]
  rcases hcases with ⟨a, hends, hmem, hchecked⟩ | ⟨a, hends, hbegins, hchecked⟩
    | ⟨hends, hbegins, hchecked⟩
  · rw [hends, hchecked]
    have hout : (a :: (s.checked.erase (a, x.2)).map Prod.fst).Perm s.attempts.pending :=
      ((List.perm_cons_erase hmem).map Prod.fst).symm.trans h
    have ha : a ∈ s.attempts.pending := hout.mem_iff.mp List.mem_cons_self
    apply (hout.trans (List.perm_cons_erase ha)).cons_inv
  · rw [hends, hbegins, hchecked]
    apply h.cons a
  · rw [hends, hbegins, hchecked]
    exact h

theorem enabled_of_ends {s : Attempts} {e : Event} (h : ∀ a, ends e = some a → a ∈ s.pending) :
  s.Enabled e
  := by
  cases e with
  | wrong a => exact h a rfl
  | right a => exact h a rfl
  | abandon a => exact h a rfl
  | _ => trivial

/-- A step is a step of the connections. -/
theorem Tracks.attempts_step (h : s.Tracks) (hstep : s.Step x s') :
  s.attempts.Step x.1 s'.attempts
  := by
  obtain ⟨hattempts, hcases⟩ := step_cases hstep
  apply And.intro _ hattempts
  apply enabled_of_ends
  intro a' ha'
  rcases hcases with ⟨a, hends, hmem, -⟩ | ⟨a, hends, -⟩ | ⟨hends, -⟩
  · obtain rfl := Option.some.inj (hends.symm.trans ha')
    apply h.mem_iff.mp
    apply List.mem_map_of_mem hmem
  · rw [hends] at ha'
    cases ha'
  · rw [hends] at ha'
    cases ha'

/-- A run without the times of the checks. -/
def untimed (h : List (Timed × (Event × ℤ))) : List (Attempts × Event) :=
  h.map fun y => (y.1.attempts, y.2.1)

/-- Without the times of the checks, a run is one of the connections. -/
theorem attempts_of_run {now : ℤ} (hrun : Run Step { attempts := { now := now } } h s) :
  s.Tracks ∧ Run Attempts.Step { now := now } (untimed h) s.attempts
  := by
  induction hrun with
  | nil => exact ⟨.nil, .nil⟩
  | snoc hrun hstep ih =>
      obtain ⟨htracks, hattempts⟩ := ih
      apply And.intro (htracks.step hstep)
      rw [untimed, List.map_append]
      apply hattempts.snoc (htracks.attempts_step hstep)

/-! ### The clock -/

theorem minutes_eq (time : ℤ) : minutes time = (minuteOf time).bmod (2 ^ 32) := rfl

theorem minuteOf_le {time time' : ℤ} (h : time ≤ time') :
  minuteOf time ≤ minuteOf time'
  := Int.tdiv_le_tdiv (by decide) h

theorem now_le_next (s : Attempts) (e : Event) :
  s.now ≤ (s.next e).now
  := by
  cases e with
  | checkFailure addr i =>
      unfold Attempts.next
      dsimp only
      split <;> apply Int.le_refl
  | tick passed =>
      change s.now ≤ s.now + passed
      omega
  | _ => apply Int.le_refl

theorem begins_checkFailure (s : Attempts) (addr : IpAddr) (i : Fin 3) :
  begins s (.checkFailure addr i)
    = let check := (s.failures i).checkFailure (ipText addr) (minutes s.now)
      if check.res then some ⟨addr, i, check.failure, check.time⟩ else none
  := rfl

/-- What begins has read its minute off the clock. -/
theorem time_begins {s : Attempts} {e : Event} {a : Attempt} (h : begins s e = some a) :
  a.time = minutes s.now
  := by
  cases e with
  | checkFailure addr i =>
      rw [begins_checkFailure] at h
      obtain ⟨-, h⟩ := Option.ite_none_right_eq_some.mp h
      rw [← Option.some.inj h]
      dsimp only
      rw [FailureMap.time_checkFailure]
  | _ => cases h

/-- An attempt has the minute of its check, which is over. -/
def Dated (s : Timed) : Prop :=
  ∀ x ∈ s.checked, x.1.time = minutes x.2 ∧ x.2 ≤ s.attempts.now

theorem Dated.step (h : s.Dated) (hstep : s.Step x s') :
  s'.Dated
  := by
  obtain ⟨hattempts, hcases⟩ := step_cases hstep
  have hlater : s.attempts.now ≤ s'.attempts.now := by
    rw [hattempts]
    apply now_le_next
  have hold : ∀ y ∈ s.checked, y.1.time = minutes y.2 ∧ y.2 ≤ s'.attempts.now := by
    intro y hy
    exact ⟨(h y hy).1, Int.le_trans (h y hy).2 hlater⟩
  intro y hy
  rcases hcases with ⟨a, -, -, hchecked⟩ | ⟨a, -, hbegins, hchecked⟩ | ⟨-, -, hchecked⟩
  · rw [hchecked] at hy
    apply hold y (List.mem_of_mem_erase hy)
  · rw [hchecked] at hy
    rcases List.mem_cons.mp hy with rfl | hy
    · exact ⟨time_begins hbegins, hlater⟩
    · apply hold y hy
  · rw [hchecked] at hy
    apply hold y hy

theorem Dated.of_wrong (h : s.Dated) (hstep : s.Step x s') {a : Attempt} (hx : x.1 = .wrong a) :
  a.time = minutes x.2 ∧ x.2 ≤ s.attempts.now
  := by
  obtain ⟨-, hcases⟩ := step_cases hstep
  rw [hx] at hcases
  rcases hcases with ⟨a', hends, hmem, -⟩ | ⟨a', hends, -⟩ | ⟨hends, -⟩
  · obtain rfl := Option.some.inj hends
    apply h _ hmem
  · cases hends
  · cases hends

/-! ### The entry of a key -/

/-- The wrong attempts that the entry of a key counts in the running minute. -/
def running (i : Fin 3) (key : String) (s : Attempts) : ℤ :=
  if ((s.failures i).get key).minute = minutes s.now then ((s.failures i).get key).ofMinute else 0

/-- What an entry counts is no negative number. -/
theorem ofMinute_nonneg {now : ℤ} {s : Attempts} {h : List (Attempts × Event)}
    (hrun : Run Attempts.Step { now := now } h s) (i : Fin 3) (key : String) :
  0 ≤ ((s.failures i).get key).ofMinute
  := by
  induction hrun with
  | nil => exact Int.le_refl 0
  | @snoc h s s' e _ hstep ih =>
      obtain ⟨-, rfl⟩ := hstep
      unfold FailureMap.get at *
      cases hcounts : counts i key e with
      | true =>
          obtain ⟨a, rfl⟩ : ∃ a, e = .wrong a := by
            cases e with
            | wrong a => exact ⟨a, rfl⟩
            | _ => cases hcounts
          change concerns i key a = true at hcounts
          rw [Attempts.failures_wrong]
          rw [if_pos hcounts]
          rw [Option.getD_some, bumpFailureEntry, FailureMap.get]
          split
          · dsimp only
            omega
          · apply Int.one_nonneg
      | false =>
          rcases Attempts.failures_of_not_counts (s := s) hcounts with hsame | hnone
          · rw [hsame]
            exact ih
          · rw [hnone]
            decide

/-- An entry goes only with a success or when it is stale. -/
theorem failures_of_not_succeeds {s : Attempts} {e : Event} (hcounts : counts i key e = false)
    (hsucceeds : succeeds i key e = false) :
  (s.next e).failures i key = s.failures i key
    ∨ ∃ v, s.failures i key = some v
        ∧ idWhitelistFailureDecayMinutes ≤ FailureMap.saturatingSub (minutes s.now) v.minute
  := by
  cases e with
  | checkFailure addr i' =>
      left
      unfold Attempts.next
      dsimp only
      split <;> rfl
  | wrong a =>
      left
      rw [Attempts.failures_wrong]
      rw [if_neg (by simpa [counts] using hcounts)]
  | right a =>
      left
      rw [Attempts.next]
      by_cases hi : i = a.i
      · subst hi
        rw [Attempts.failures_withMap_self]
        apply FailureMap.updateFailure_right_of_notMem
        simpa [succeeds, concerns] using hsucceeds
      · rw [Attempts.failures_withMap_of_ne _ hi]
  | abandon a => exact .inl rfl
  | decayIdWhitelistFailures addr =>
      rw [Attempts.next]
      by_cases hi : i = failureIdxIdWhitelist
      · subst hi
        rw [Attempts.failures_withMap_self]
        apply FailureMap.decayStaleFailures_cases
      · left
        rw [Attempts.failures_withMap_of_ne _ hi]
  | clearIdWhitelistFailures addr =>
      left
      rw [Attempts.next]
      by_cases hi : i = failureIdxIdWhitelist
      · subst hi
        rw [Attempts.failures_withMap_self]
        apply FailureMap.foldl_remove_of_notMem
        simpa [succeeds] using hsucceeds
      · rw [Attempts.failures_withMap_of_ne _ hi]
  | tick passed => exact .inl rfl

theorem running_of_none {s : Attempts} (hnone : s.failures i key = none) :
  running i key s = 0
  := by
  unfold running FailureMap.get
  rw [hnone]
  split <;> rfl

/-- A wrong attempt that does not overwrite adds to what its entry counts in the running minute, if
it was checked in that minute. -/
theorem running_wrong {s : Attempts} {a : Attempt} (hconcerns : concerns i key a)
    (hoverwrites : ∀ v, s.failures i key = some v → v.minute = minutes s.now →
      a.time = minutes s.now) :
  running i key (s.next (.wrong a))
    = running i key s + (if a.time = minutes s.now then 1 else 0)
  := by
  have hentry : ((s.next (.wrong a)).failures i).get key
      = bumpFailureEntry ((s.failures i).get key) a.time := by
    rw [FailureMap.get, Attempts.failures_wrong, if_pos hconcerns]
    rfl
  have hnow : (s.next (.wrong a)).now = s.now := rfl
  by_cases htime : a.time = minutes s.now
  · rw [if_pos htime]
    unfold running bumpFailureEntry at *
    rw [hentry, hnow, htime]
    by_cases hminute : ((s.failures i).get key).minute = minutes s.now
    · simp [hminute]
    · simp [hminute]
  · have hstale : running i key s = 0 := by
      cases hv : s.failures i key with
      | none => apply running_of_none hv
      | some v =>
          have hminute : v.minute ≠ minutes s.now := fun h => htime (hoverwrites v hv h)
          unfold running FailureMap.get
          rw [hv]
          apply if_neg hminute
    rw [if_neg htime, hstale]
    unfold running
    rw [hentry, hnow]
    apply if_neg
    rw [bumpFailureEntry]
    split
    · rename_i hsame
      dsimp only
      rw [hsame]
      exact htime
    · exact htime

/-- What is no wrong attempt and no success leaves what an entry counts in the running minute, as
long as this minute runs. -/
theorem running_next {s : Attempts} {e : Event} (hcounts : counts i key e = false)
    (hsucceeds : succeeds i key e = false) (hminute : minutes (s.next e).now = minutes s.now) :
  running i key s ≤ running i key (s.next e)
  := by
  rcases Attempts.failures_of_not_counts (s := s) hcounts with hsame | hnone
  · apply Int.le_of_eq
    unfold running FailureMap.get
    rw [hsame, hminute]
  · have hrunning : running i key s = 0 := by
      rcases failures_of_not_succeeds (s := s) hcounts hsucceeds with hsame | ⟨v, hv, hstale⟩
      · apply running_of_none (hsame.symm.trans hnone)
      · unfold running FailureMap.get
        rw [hv]
        apply if_neg
        intro hnow
        dsimp only [Option.getD_some] at hnow
        rw [hnow, FailureMap.saturatingSub, Int.sub_self] at hstale
        exact absurd hstale (by decide)
    apply Int.le_of_eq
    rw [hrunning, running_of_none hnone]

/-! ### Runs -/

/-- A wrong attempt that counts in a minute. -/
theorem countsIn_iff :
  countsIn i key minute x = true
    ↔ ∃ a, x.1 = .wrong a ∧ concerns i key a = true ∧ minuteOf x.2 = minute
  := by
  obtain ⟨e, time⟩ := x
  rw [countsIn, decide_eq_true_iff]
  cases e with
  | wrong a => simp [counts]
  | _ => simp [counts]

theorem not_countsIn_of_ends (hends : ends x.1 = none) :
  ¬ countsIn i key minute x = true
  := by
  intro hcounts
  obtain ⟨a, hx, -⟩ := countsIn_iff.mp hcounts
  rw [hx] at hends
  cases hends

theorem countsIn_self (hcounts : counts i key x.1 = true) :
  countsIn i key (minuteOf x.2) x = true
  := by
  rw [countsIn, hcounts]
  simp

/-- A step that overwrites nothing and is no success counts what it records of the running minute,
as long as this minute runs. -/
theorem running_step (hdated : s.Dated) (hstep : s.Step x s')
    (hkeeps : overwrites i key s x = false) (hsucceeds : succeeds i key x.1 = false)
    (hminute : minuteOf s'.attempts.now = minuteOf s.attempts.now) :
  running i key s.attempts + (if countsIn i key (minuteOf s.attempts.now) x then 1 else 0)
    ≤ running i key s'.attempts
  := by
  obtain ⟨hattempts, -⟩ := step_cases hstep
  have hminutes : minutes s'.attempts.now = minutes s.attempts.now := by
    rw [minutes_eq, hminute, ← minutes_eq]
  cases hcounts : counts i key x.1 with
  | false =>
      have hcountsIn : countsIn i key (minuteOf s.attempts.now) x = false := by
        simp [countsIn, hcounts]
      rw [hattempts] at hminutes ⊢
      rw [hcountsIn]
      have hle := running_next hcounts hsucceeds hminutes
      simpa using hle
  | true =>
      obtain ⟨a, hx, hconcerns, -⟩ := countsIn_iff.mp (countsIn_self hcounts)
      have hrunning : running i key s'.attempts
          = running i key s.attempts + (if a.time = minutes s.attempts.now then 1 else 0) := by
        rw [hattempts, hx]
        apply running_wrong hconcerns
        intro v hv hentry
        unfold overwrites at hkeeps
        rw [hx] at hkeeps
        simpa [hconcerns, hv, hentry] using hkeeps
      rw [hrunning]
      by_cases hchecked : countsIn i key (minuteOf s.attempts.now) x = true
      · obtain ⟨-, -, -, hsame⟩ := countsIn_iff.mp hchecked
        have htime : a.time = minutes s.attempts.now := by
          rw [(hdated.of_wrong hstep hx).1, minutes_eq, hsame, ← minutes_eq]
        apply Int.le_of_eq
        rw [if_pos hchecked, if_pos htime]
      · rw [if_neg hchecked]
        split <;> omega

/-- The entry of a key counts all wrong attempts of the running minute. -/
structure Counted (i : Fin 3) (key : String) (h : List (Timed × (Event × ℤ))) (s : Timed) :
    Prop where
  later : ∀ minute, minuteOf s.attempts.now < minute → wrongIn i key minute h = 0
  now : (wrongIn i key (minuteOf s.attempts.now) h : ℤ) ≤ running i key s.attempts

theorem Counted.step (hcounted : Counted i key h s) (hdated : s.Dated) (hstep : s.Step x s')
    (hkeeps : overwrites i key s x = false) (hnonneg : 0 ≤ running i key s'.attempts) :
  Counted i key (h ++ [(s, x)]) s'
  := by
  have hlater : minuteOf s.attempts.now ≤ minuteOf s'.attempts.now := by
    rw [(step_cases hstep).1]
    apply minuteOf_le (now_le_next _ _)
  have hnone : ∀ minute, minuteOf s.attempts.now < minute →
      wrongIn i key minute (h ++ [(s, x)]) = 0 := by
    intro minute hminute
    have hcounts : ¬ countsIn i key minute x = true := by
      intro hcounts
      obtain ⟨a, hx, -, rfl⟩ := countsIn_iff.mp hcounts
      have hle := minuteOf_le (hdated.of_wrong hstep hx).2
      omega
    rw [wrongIn_concat, hcounted.later minute hminute, if_neg hcounts]
    split <;> rfl
  constructor
  · intro minute hminute
    apply hnone
    omega
  · rcases Int.lt_or_eq_of_le hlater with hlt | hsame
    · rw [hnone _ hlt]
      exact hnonneg
    · rw [wrongIn_concat, ← hsame]
      cases hsucceeds : succeeds i key x.1 with
      | true => exact hnonneg
      | false =>
          have hrunning := running_step hdated hstep hkeeps hsucceeds hsame.symm
          have hnow := hcounted.now
          split at hrunning
          · rename_i hcounts
            rw [if_neg (by decide), if_pos hcounts]
            omega
          · rename_i hcounts
            rw [if_neg (by decide), if_neg hcounts]
            omega

/-- An attempt under way for a key of a map, whose check fell in the minute. -/
def checkedIn (i : Fin 3) (key : String) (minute : ℤ) (y : Attempt × ℤ) : Bool :=
  concerns i key y.1 ∧ minuteOf y.2 = minute

theorem checkedIn_iff {y : Attempt × ℤ} :
  checkedIn i key minute y = true ↔ concerns i key y.1 = true ∧ minuteOf y.2 = minute
  := decide_eq_true_iff

/-- The attempts of a minute that are under way are no more than all of them. -/
theorem Tracks.countP_le (h : s.Tracks) :
  s.checked.countP (checkedIn i key minute) ≤ inFlight i key s.attempts
  := by
  rw [inFlight, ← h.countP_eq, List.countP_map]
  apply List.countP_mono_left
  intro y _ hy
  exact (checkedIn_iff.mp hy).1

theorem wrongIn_concat_le (h : List (Timed × (Event × ℤ))) :
  wrongIn i key minute (h ++ [(s, x)])
    ≤ wrongIn i key minute h + (if countsIn i key minute x then 1 else 0)
  := by
  rw [wrongIn_concat]
  split
  · omega
  · split <;> omega

/-- The check of a new attempt finds no more than six wrong ones of the running minute. -/
theorem Counted.le_of_begins (hcounted : Counted i (ipText addr) h s) {a : Attempt}
    (hbegins : begins s.attempts x.1 = some a) (hconcerns : concerns i (ipText addr) a = true) :
  wrongIn i (ipText addr) (minuteOf s.attempts.now) h ≤ 6
  := by
  obtain ⟨e, time⟩ := x
  cases e with
  | checkFailure addr' i' =>
      rw [begins_checkFailure] at hbegins
      obtain ⟨hres, hsome⟩ := Option.ite_none_right_eq_some.mp hbegins
      rw [← Option.some.inj hsome, concerns, decide_eq_true_iff] at hconcerns
      obtain ⟨hi, hmem⟩ : i' = i ∧ ipText addr ∈ failureKeys (ipText addr') := hconcerns
      subst hi
      rw [← eq_of_mem_failureKeys hmem] at hres
      have hnow := hcounted.now
      unfold running at hnow
      split at hnow
      · rename_i hminute
        have hsix := FailureMap.ofMinute_le_of_res hres hminute
        omega
      · omega
  | _ => cases hbegins

/-- A step keeps the bound on the wrong attempts of a minute and those under way. -/
theorem bound_step (hcounted : Counted i (ipText addr) h s) (htracks : s'.Tracks)
    (hstep : s.Step x s')
    (hbound : wrongIn i (ipText addr) minute h + s.checked.countP (checkedIn i (ipText addr) minute)
      ≤ 6 + crowd i (ipText addr) h s) :
  wrongIn i (ipText addr) minute (h ++ [(s, x)])
      + s'.checked.countP (checkedIn i (ipText addr) minute)
    ≤ 6 + crowd i (ipText addr) (h ++ [(s, x)]) s'
  := by
  have hwrong : wrongIn i (ipText addr) minute (h ++ [(s, x)])
      ≤ wrongIn i (ipText addr) minute h + (if countsIn i (ipText addr) minute x then 1 else 0) :=
    wrongIn_concat_le h
  have hmost : s'.checked.countP (checkedIn i (ipText addr) minute)
      ≤ inFlight i (ipText addr) s'.attempts := htracks.countP_le
  rw [crowd_concat]
  obtain ⟨-, hcases⟩ := step_cases hstep
  rcases hcases with ⟨a, hends, hmem, hchecked⟩ | ⟨a, hends, hbegins, hchecked⟩
    | ⟨hends, -, hchecked⟩
  · have hout := (List.perm_cons_erase hmem).countP_eq (checkedIn i (ipText addr) minute)
    rw [List.countP_cons, ← hchecked] at hout
    by_cases hcounts : countsIn i (ipText addr) minute x = true
    · obtain ⟨a', hx, hconcerns, hminute⟩ := countsIn_iff.mp hcounts
      rw [hx] at hends
      obtain rfl := Option.some.inj hends
      rw [if_pos (checkedIn_iff.mpr ⟨hconcerns, hminute⟩)] at hout
      rw [if_pos hcounts] at hwrong
      omega
    · rw [if_neg hcounts] at hwrong
      omega
  · rw [if_neg (not_countsIn_of_ends hends)] at hwrong
    by_cases hin : checkedIn i (ipText addr) minute (a, s.attempts.now) = true
    · obtain ⟨hconcerns, hminute⟩ := checkedIn_iff.mp hin
      dsimp only at hminute
      subst hminute
      have hsix := hcounted.le_of_begins hbegins hconcerns
      omega
    · rw [hchecked, List.countP_cons_of_neg hin]
      omega
  · rw [if_neg (not_countsIn_of_ends hends)] at hwrong
    rw [hchecked]
    omega

/-- What holds along a run that overwrites nothing: the minutes of the attempts, what the entry of
the address counts, and the bound on the wrong attempts of a minute and those under way. -/
theorem bound_of_run {now : ℤ} (minute : ℤ) (hrun : Run Step { attempts := { now := now } } h s)
    (hkeeps : ∀ y ∈ h, overwrites i (ipText addr) y.1 y.2 = false) :
  s.Dated ∧ Counted i (ipText addr) h s
    ∧ wrongIn i (ipText addr) minute h + s.checked.countP (checkedIn i (ipText addr) minute)
      ≤ 6 + crowd i (ipText addr) h s
  := by
  induction hrun with
  | nil =>
      constructor
      · intro y hy
        cases hy
      · constructor
        · constructor
          · intro minute _
            rfl
          · rw [running_of_none rfl]
            apply Int.le_refl
        · apply Nat.zero_le
  | @snoc h s s' x hrun hstep ih =>
      simp only [List.forall_mem_append, List.forall_mem_singleton] at hkeeps
      obtain ⟨hdated, hcounted, hbound⟩ := ih hkeeps.1
      obtain ⟨htracks, hattempts⟩ := attempts_of_run (hrun.snoc hstep)
      have hnonneg : 0 ≤ running i (ipText addr) s'.attempts := by
        unfold running
        split
        · apply ofMinute_nonneg hattempts
        · apply Int.le_refl
      constructor
      · apply hdated.step hstep
      · constructor
        · apply hcounted.step hdated hstep hkeeps.2 hnonneg
        · apply bound_step hcounted htracks hstep hbound

/-- In every run of the connections that never records a wrong attempt of an earlier minute over an
entry of the running minute, the wrong attempts of an address whose checks fell in one minute, since
its last success, are at most seven and the most attempts for it that were under way at the same
time. -/
theorem perMinute_of_run {now : ℤ} {h : List (Timed × (Event × ℤ))} (i : Fin 3) (addr : IpAddr)
    (minute : ℤ) (hrun : Run Step { attempts := { now := now } } h s)
    (hkeeps : ∀ y ∈ h, overwrites i (ipText addr) y.1 y.2 = false) :
  wrongIn i (ipText addr) minute h ≤ 7 + crowd i (ipText addr) h s
  := by
  obtain ⟨-, -, hbound⟩ := bound_of_run minute hrun hkeeps
  omega

/-- An address of the documentation range. -/
def throttledAddr : IpAddr := .v4 0xC0000201#32

/-- Attempts of one connection after the other in one minute, the first of which finds the entry. -/
def rounds (entry : Failure) (time : ℤ) (n : ℕ) : List (Event × ℤ) :=
  (List.range n).flatMap fun k =>
    [(.checkFailure throttledAddr 0, 0),
      (.wrong ⟨throttledAddr, 0,
        if k = 0 then entry else ⟨minuteOf time, k, entry.total + k⟩, minuteOf time⟩, time)]

/-- An attempt is checked in the first minute.  Seven attempts of the next minute are wrong, then
the first one is, and then three more. -/
def lateRecord : List (Event × ℤ) :=
  [(.checkFailure throttledAddr 0, 0), (.tick 60000, 0)] ++ rounds {} 120000 7
    ++ [(.wrong ⟨throttledAddr, 0, {}, 1⟩, 60000)] ++ rounds ⟨1, 1, 8⟩ 120000 3

theorem perMinute_rounds :
  ∃ (h : List (Timed × (Event × ℤ))) (s : Timed),
    Run Step { attempts := { now := 120000 } } h s
      ∧ wrongIn 0 (ipText throttledAddr) 2 h = 7
      ∧ wrongIn 0 (ipText throttledAddr) 2 h ≤ 7 + crowd 0 (ipText throttledAddr) h s
  := by
  obtain ⟨h, s, hrun, htest⟩ := Run.exists_of_traceM next { attempts := { now := 120000 } }
    (rounds {} 120000 7)
    (fun h _ => h.all (fun y => !overwrites 0 (ipText throttledAddr) y.1 y.2)
      && decide (wrongIn 0 (ipText throttledAddr) 2 h = 7))
    (by decide +kernel)
  simp only [Bool.and_eq_true, List.all_eq_true, Bool.not_eq_true', decide_eq_true_eq] at htest
  use h, s, hrun, htest.2
  apply perMinute_of_run 0 throttledAddr 2 hrun htest.1

theorem not_perMinute :
  ∃ (h : List (Timed × (Event × ℤ))) (s : Timed),
    Run Step { attempts := { now := 60000 } } h s
      ∧ (∀ y ∈ h, ¬ succeeds 0 (ipText throttledAddr) y.2.1)
      ∧ ¬ wrongIn 0 (ipText throttledAddr) 2 h ≤ 7 + crowd 0 (ipText throttledAddr) h s
  := by
  obtain ⟨h, s, hrun, htest⟩ := Run.exists_of_traceM next { attempts := { now := 60000 } }
    lateRecord (fun h s => h.all (fun y => !succeeds 0 (ipText throttledAddr) y.2.1)
      && decide (¬ wrongIn 0 (ipText throttledAddr) 2 h ≤ 7 + crowd 0 (ipText throttledAddr) h s))
    (by decide +kernel)
  use h, s, hrun
  simpa using htest

end Timed

end VynxDesk.LoginFailures
