import Mathlib.Algebra.Group.Int.Defs
import Mathlib.Algebra.Group.Nat.Defs
import Mathlib.Data.Int.Notation
import Mathlib.Data.List.Nodup
import Mathlib.Data.List.TakeWhile
import VynxDesk.Connection.State
import VynxDesk.Lib.IpAddr
import VynxDesk.Lib.Run

/-!
# Throttling of wrong attempts

The maps of `LOGIN_FAILURES`, and the functions of `Connection` that check and update them for the
address of a peer and the IPv6 prefixes that it shares with others.  The checks and updates of any
number of connections interleave.  The total stored for a key is the number of wrong attempts
recorded since it was removed last, and with the attempts that are still between check and update it
is at most the threshold of the key and the most attempts that ever were
(`Attempts.throttled_of_run`).
-/

namespace VynxDesk.LoginFailures

/-! ### The keys of a connection -/

/-- `mask_u128`. -/
def maskU128 (addr : BitVec 128) (len : ℕ) : BitVec 128 :=
  let mask := if len = 0 ∨ 128 < len then 0 else BitVec.allOnes 128 <<< (128 - len)
  addr &&& mask

/-- `get_ipv6_prefixes`. -/
def getIpv6Prefixes (ip : String) : Option (String × String × String) :=
  let ipOnly := trim (String.ofList (ip.toList.takeWhile (· ≠ '%')))
  (IpAddr.ipv6OfChars ipOnly.toList).map fun addr =>
    (String.ofList (IpAddr.ipv6Chars (maskU128 addr 64)) ++ "/64",
      String.ofList (IpAddr.ipv6Chars (maskU128 addr 56)) ++ "/56",
      String.ofList (IpAddr.ipv6Chars (maskU128 addr 48)) ++ "/48")

/-- `failure_keys`. -/
def failureKeys (ip : String) : List String :=
  match getIpv6Prefixes ip with
  | some (p64, p56, p48) => [ip, p64, p56, p48]
  | none => [ip]

/-- The keys that `check_failure` consults, each with the total above which it refuses. -/
def thresholds (ip : String) : List (String × ℤ) :=
  match getIpv6Prefixes ip with
  | some (p64, p56, p48) => [(ip, 30), (p64, 60), (p56, 80), (p48, 100)]
  | none => [(ip, 30)]

/-- The `ip` of a connection. -/
def ipText (addr : IpAddr) : String := String.ofList addr.toChars

/-- A key from its first slash on. -/
def prefixLength (key : String) : List Char := key.toList.dropWhile (· ≠ '/')

theorem prefixLength_append {chars : List Char} (hchars : ∀ c ∈ chars, IpAddr.IsAddrChar c)
    {text : String} {len : List Char} (htext : text.toList = '/' :: len) :
  prefixLength (String.ofList chars ++ text) = text.toList
  := by
  rw [prefixLength]
  rw [String.toList_append, String.toList_ofList, List.dropWhile_append_of_pos]
  · rw [htext]
    rfl
  · intro c hc
    have hne : c ≠ '/' := by
      rintro rfl
      exact IpAddr.not_isAddrChar_slash (hchars _ hc)
    simpa using hne

theorem prefixLength_ipText (addr : IpAddr) :
  prefixLength (ipText addr) = []
  := by
  rw [prefixLength, ipText]
  rw [String.toList_ofList]
  apply List.dropWhile_eq_nil_iff.mpr
  intro c hc
  have hne : c ≠ '/' := by
    rintro rfl
    exact IpAddr.not_isAddrChar_slash (IpAddr.isAddrChar_of_mem_toChars hc)
  simpa using hne

/-- What the prefixes of an address end with. -/
theorem prefixLength_getIpv6Prefixes {ip p64 p56 p48 : String}
    (hprefixes : getIpv6Prefixes ip = some (p64, p56, p48)) :
  prefixLength p64 = "/64".toList ∧ prefixLength p56 = "/56".toList
    ∧ prefixLength p48 = "/48".toList
  := by
  rw [getIpv6Prefixes] at hprefixes
  rw [Option.map_eq_some_iff] at hprefixes
  obtain ⟨addr, -, hsome⟩ := hprefixes
  simp only [Prod.mk.injEq] at hsome
  obtain ⟨rfl, rfl, rfl⟩ := hsome
  have hchars (len : ℕ) : ∀ c ∈ IpAddr.ipv6Chars (maskU128 addr len), IpAddr.IsAddrChar c := by
    intro c hc
    apply IpAddr.isAddrChar_of_mem_ipv6Chars hc
  constructor
  · apply prefixLength_append (hchars 64) rfl
  · constructor
    · apply prefixLength_append (hchars 56) rfl
    · apply prefixLength_append (hchars 48) rfl

/-- The keys of a connection differ. -/
theorem nodup_failureKeys (addr : IpAddr) :
  (failureKeys (ipText addr)).Nodup
  := by
  apply List.Nodup.of_map prefixLength
  unfold failureKeys
  cases hprefixes : getIpv6Prefixes (ipText addr) with
  | none => simp
  | some prefixes =>
      obtain ⟨p64, p56, p48⟩ := prefixes
      obtain ⟨h64, h56, h48⟩ := prefixLength_getIpv6Prefixes hprefixes
      simp only [List.map_cons, List.map_nil, prefixLength_ipText, h64, h56, h48]
      decide

/-- The threshold of a key, as its text tells it. -/
def thresholdOf (key : String) : ℤ :=
  if prefixLength key = "/64".toList then 60
  else if prefixLength key = "/56".toList then 80
  else if prefixLength key = "/48".toList then 100
  else 30

/-- A connection consults its keys, each with the same threshold as every other connection. -/
theorem mem_thresholds (addr : IpAddr) (key : String) (threshold : ℤ) :
  (key, threshold) ∈ thresholds (ipText addr)
    ↔ key ∈ failureKeys (ipText addr) ∧ threshold = thresholdOf key
  := by
  unfold thresholds failureKeys
  cases hprefixes : getIpv6Prefixes (ipText addr) with
  | none =>
      simp only [List.mem_singleton, Prod.mk.injEq]
      apply and_congr_right
      rintro rfl
      rw [thresholdOf, prefixLength_ipText]
      rfl
  | some prefixes =>
      obtain ⟨p64, p56, p48⟩ := prefixes
      obtain ⟨h64, h56, h48⟩ := prefixLength_getIpv6Prefixes hprefixes
      have hip : thresholdOf (ipText addr) = 30 := by
        rw [thresholdOf, prefixLength_ipText]
        rfl
      have h64 : thresholdOf p64 = 60 := by
        rw [thresholdOf, h64]
        rfl
      have h56 : thresholdOf p56 = 80 := by
        rw [thresholdOf, h56]
        rfl
      have h48 : thresholdOf p48 = 100 := by
        rw [thresholdOf, h48]
        rfl
      simp only [List.mem_cons, Prod.mk.injEq, List.not_mem_nil, or_false]
      constructor
      · rintro (⟨rfl, rfl⟩ | ⟨rfl, rfl⟩ | ⟨rfl, rfl⟩ | ⟨rfl, rfl⟩) <;> simp [*]
      · rintro ⟨rfl | rfl | rfl | rfl, rfl⟩ <;> simp [*]

/-! ### The maps -/

/-- An entry of a map: the minute of its latest attempt, the attempts of that minute, and all. -/
structure Failure where
  minute : ℤ := 0
  ofMinute : ℤ := 0
  total : ℤ := 0
  deriving DecidableEq, Repr

/-- One of the maps of `LOGIN_FAILURES`. -/
abbrev FailureMap := String → Option Failure

/-- `AlarmAuditType`, as far as a check posts it. -/
inductive AlarmAuditType where
  | exceedThirtyAttempts
  | sixAttemptsWithinOneMinute
  | exceedIPv6PrefixAttempts
  deriving DecidableEq, Repr

/-- What a check returns, and what it sends and posts when it refuses. -/
structure Check where
  failure : Failure
  time : ℤ
  refusal : Option (String × AlarmAuditType) := none
  deriving DecidableEq, Repr

/-- Whether the check allows the attempt. -/
def Check.res (check : Check) : Bool := check.refusal.isNone

/-- The minutes of a time in milliseconds, as `i32`. -/
def minutes (time : ℤ) : ℤ := (time.tdiv 60000).bmod (2 ^ 32)

/-- `bump_failure_entry`. -/
def bumpFailureEntry (cur : Failure) (time : ℤ) : Failure :=
  if cur.minute = time then { cur with ofMinute := cur.ofMinute + 1, total := cur.total + 1 }
  else { minute := time, ofMinute := 1, total := cur.total + 1 }

namespace FailureMap

/-- `get`, with the entry that stands for none. -/
def get (m : FailureMap) (key : String) : Failure := (m key).getD {}

/-- `remove`. -/
def remove (m : FailureMap) (key : String) : FailureMap := Function.update m key none

/-- An attempt is recorded for a key. -/
def bump (time : ℤ) (m : FailureMap) (key : String) : FailureMap :=
  Function.update m key (some (bumpFailureEntry (m.get key) time))

/-- `update_failure`. -/
def updateFailure (m : FailureMap) (ip : String) (failure : Failure) (time : ℤ) (removing : Bool) :
    FailureMap :=
  if removing then
    if failure.minute ≠ 0 then
      match getIpv6Prefixes ip with
      | some (p64, p56, p48) => (((m.remove p64).remove p56).remove p48).remove ip
      | none => m.remove ip
    else m
  else
    match getIpv6Prefixes ip with
    | some (p64, p56, p48) => ([p64, p56, p48].foldl (bump time) m).bump time ip
    | none => m.bump time ip

/-- `check_failure_ipv6_prefix`. -/
def checkFailureIpv6Prefix (m : FailureMap) (time : ℤ) (key : String) (len : ℕ) (thresh : ℤ) :
    Option Check :=
  let failurePrefix := m.get key
  if thresh < failurePrefix.total then
    some {
      failure := failurePrefix
      time := time
      refusal := some (s!"Too many wrong attempts for IPv6 prefix /{len}",
        .exceedIPv6PrefixAttempts) }
  else none

/-- The checks of `check_failure` for the prefixes of an IPv6 address. -/
def checkPrefixes (m : FailureMap) (ip : String) (time : ℤ) : Option Check :=
  match getIpv6Prefixes ip with
  | some (p64, p56, p48) =>
      ((m.checkFailureIpv6Prefix time p64 64 60).orElse fun _ =>
        m.checkFailureIpv6Prefix time p56 56 80).orElse fun _ =>
        m.checkFailureIpv6Prefix time p48 48 100
  | none => none

/-- The check of `check_failure` for the address itself. -/
def checkAddress (m : FailureMap) (ip : String) (time : ℤ) : Check :=
  let failure := m.get ip
  if 30 < failure.total then
    { failure := failure, time := time,
      refusal := some ("Too many wrong attempts", .exceedThirtyAttempts) }
  else if time = failure.minute ∧ 6 < failure.ofMinute then
    { failure := failure, time := time,
      refusal := some ("Please try 1 minute later", .sixAttemptsWithinOneMinute) }
  else { failure := failure, time := time }

/-- `check_failure`, in the minute `time`. -/
def checkFailure (m : FailureMap) (ip : String) (time : ℤ) : Check :=
  (m.checkPrefixes ip time).getD (m.checkAddress ip time)

/-- `i32::saturating_sub`. -/
def saturatingSub (a b : ℤ) : ℤ := max (-2 ^ 31) (min (2 ^ 31 - 1) (a - b))

/-- `decay_stale_failures`. -/
def decayStaleFailures (m : FailureMap) (keys : List String) (now window : ℤ) : FailureMap :=
  keys.foldl (fun m key =>
    match m key with
    | some v => if window ≤ saturatingSub now v.minute then m.remove key else m
    | none => m) m

/-- `clear_failures`. -/
def clearFailures (m : FailureMap) (keys : List String) : FailureMap := keys.foldl remove m

/-! ### What they do to a key -/

variable {m m' : FailureMap}

@[simp]
theorem total_bumpFailureEntry (cur : Failure) (time : ℤ) :
  (bumpFailureEntry cur time).total = cur.total + 1
  := by
  rw [bumpFailureEntry]
  split <;> rfl

/-- Attempts recorded for different keys. -/
theorem foldl_bump (time : ℤ) {keys : List String} (hnodup : keys.Nodup) (key : String) :
  ∀ m : FailureMap, keys.foldl (bump time) m key
    = if key ∈ keys then some (bumpFailureEntry (m.get key) time) else m key
  := by
  induction keys with
  | nil =>
      intro m
      rfl
  | cons first keys ih =>
      obtain ⟨hfirst, hnodup⟩ := List.nodup_cons.mp hnodup
      intro m
      rw [List.foldl_cons, ih hnodup]
      by_cases hkey : key = first
      · subst hkey
        rw [if_neg hfirst, if_pos List.mem_cons_self, bump, Function.update_self]
      · have hsame : m.bump time first key = m key := Function.update_of_ne hkey _ _
        rw [get, hsame, ← get]
        simp only [List.mem_cons, hkey, false_or]

/-- A wrong attempt is recorded for every key of its connection, and for no other. -/
theorem updateFailure_wrong (addr : IpAddr) (failure : Failure) (time : ℤ) (key : String) :
  m.updateFailure (ipText addr) failure time false key
    = if key ∈ failureKeys (ipText addr) then some (bumpFailureEntry (m.get key) time)
      else m key
  := by
  have hnodup := nodup_failureKeys addr
  unfold updateFailure failureKeys at *
  cases hprefixes : getIpv6Prefixes (ipText addr) with
  | none =>
      have h := foldl_bump time (List.nodup_singleton (ipText addr)) key m
      exact h
  | some prefixes =>
      obtain ⟨p64, p56, p48⟩ := prefixes
      rw [hprefixes] at hnodup
      have hperm : ([ipText addr] ++ [p64, p56, p48]).Perm ([p64, p56, p48] ++ [ipText addr]) :=
        List.perm_append_comm
      have h := foldl_bump time (hperm.nodup_iff.mp hnodup) key m
      rw [List.foldl_append] at h
      simp only [← hperm.mem_iff] at h
      exact h

/-- What only removes entries. -/
def Within (m' m : FailureMap) : Prop := ∀ key, m' key = m key ∨ m' key = none

theorem Within.trans {m'' : FailureMap} (h : m''.Within m') (h' : m'.Within m) :
  m''.Within m
  := by
  intro key
  rcases h key with hsame | hnone
  · rw [hsame]
    apply h' key
  · exact .inr hnone

theorem remove_within (m : FailureMap) (key : String) :
  (m.remove key).Within m
  := by
  intro key'
  by_cases hkey : key' = key
  · subst hkey
    exact .inr (Function.update_self _ _ _)
  · exact .inl (Function.update_of_ne hkey _ _)

theorem foldl_within {step : FailureMap → String → FailureMap}
    (hstep : ∀ m key, (step m key).Within m) (keys : List String) :
  ∀ m : FailureMap, (keys.foldl step m).Within m
  := by
  induction keys with
  | nil =>
      intro m key
      exact .inl rfl
  | cons key keys ih =>
      intro m
      apply (ih _).trans (hstep m key)

theorem updateFailure_right_within (m : FailureMap) (ip : String) (failure : Failure) (time : ℤ) :
  (m.updateFailure ip failure time true).Within m
  := by
  rw [updateFailure]
  rw [if_pos rfl]
  split
  · split
    · rename_i p64 p56 p48 _
      apply foldl_within remove_within [p64, p56, p48, ip]
    · apply remove_within
  · intro key
    exact .inl rfl

theorem decayStaleFailures_within (m : FailureMap) (keys : List String) (now window : ℤ) :
  (m.decayStaleFailures keys now window).Within m
  := by
  apply foldl_within
  intro m key
  split
  · split
    · apply remove_within
    · intro key
      exact .inl rfl
  · intro key
    exact .inl rfl

theorem clearFailures_within (m : FailureMap) (keys : List String) :
  (m.clearFailures keys).Within m
  := foldl_within remove_within keys m

/-- A check for a prefix refuses, or its total is at most the threshold. -/
theorem checkFailureIpv6Prefix_cases (m : FailureMap) (time : ℤ) (key : String) (len : ℕ)
    (thresh : ℤ) :
  (∃ check, m.checkFailureIpv6Prefix time key len thresh = some check ∧ check.res = false)
    ∨ (m.checkFailureIpv6Prefix time key len thresh = none ∧ (m.get key).total ≤ thresh)
  := by
  rw [checkFailureIpv6Prefix]
  by_cases hover : thresh < (m.get key).total
  · rw [if_pos hover]
    exact .inl ⟨_, rfl, rfl⟩
  · rw [if_neg hover]
    exact .inr ⟨rfl, by omega⟩

/-- The checks for the prefixes refuse, or all totals are at most the thresholds. -/
theorem checkPrefixes_cases (m : FailureMap) {ip p64 p56 p48 : String} (time : ℤ)
    (hprefixes : getIpv6Prefixes ip = some (p64, p56, p48)) :
  (∃ check, m.checkPrefixes ip time = some check ∧ check.res = false)
    ∨ (m.checkPrefixes ip time = none ∧ (m.get p64).total ≤ 60 ∧ (m.get p56).total ≤ 80
      ∧ (m.get p48).total ≤ 100)
  := by
  unfold checkPrefixes
  rw [hprefixes]
  dsimp only
  rcases m.checkFailureIpv6Prefix_cases time p64 64 60 with ⟨check, hsome, hres⟩ | ⟨hnone, h64⟩
  · rw [hsome]
    exact .inl ⟨check, rfl, hres⟩
  rw [hnone]
  rcases m.checkFailureIpv6Prefix_cases time p56 56 80 with ⟨check, hsome, hres⟩ | ⟨hnone, h56⟩
  · rw [hsome]
    exact .inl ⟨check, rfl, hres⟩
  rw [hnone]
  rcases m.checkFailureIpv6Prefix_cases time p48 48 100 with ⟨check, hsome, hres⟩ | ⟨hnone, h48⟩
  · rw [hsome]
    exact .inl ⟨check, rfl, hres⟩
  · rw [hnone]
    exact .inr ⟨rfl, h64, h56, h48⟩

theorem checkPrefixes_of_none (m : FailureMap) {ip : String} (time : ℤ)
    (hprefixes : getIpv6Prefixes ip = none) :
  m.checkPrefixes ip time = none
  := by
  unfold checkPrefixes
  rw [hprefixes]

theorem total_le_of_checkAddress {ip : String} {time : ℤ}
    (hres : (m.checkAddress ip time).res = true) :
  (m.get ip).total ≤ 30
  := by
  unfold checkAddress at hres
  dsimp only at hres
  split at hres
  · cases hres
  · omega

/-- An attempt that a check allows has no key above its threshold. -/
theorem total_le_of_res {ip : String} {time : ℤ} (hres : (m.checkFailure ip time).res = true)
    {key : String} {threshold : ℤ} (hkey : (key, threshold) ∈ thresholds ip) :
  (m.get key).total ≤ threshold
  := by
  unfold checkFailure at hres
  unfold thresholds at hkey
  cases hprefixes : getIpv6Prefixes ip with
  | none =>
      rw [hprefixes] at hkey
      rw [checkPrefixes_of_none m time hprefixes] at hres
      simp only [List.mem_singleton, Prod.mk.injEq] at hkey
      obtain ⟨rfl, rfl⟩ := hkey
      apply total_le_of_checkAddress hres
  | some prefixes =>
      obtain ⟨p64, p56, p48⟩ := prefixes
      rw [hprefixes] at hkey
      rcases m.checkPrefixes_cases time hprefixes with
        ⟨check, hsome, hrefused⟩ | ⟨hnone, h64, h56, h48⟩
      · rw [hsome, Option.getD_some, hrefused] at hres
        cases hres
      · rw [hnone] at hres
        have hip := total_le_of_checkAddress hres
        simp only [List.mem_cons, Prod.mk.injEq, List.not_mem_nil, or_false] at hkey
        rcases hkey with ⟨rfl, rfl⟩ | ⟨rfl, rfl⟩ | ⟨rfl, rfl⟩ | ⟨rfl, rfl⟩ <;> assumption

end FailureMap

/-! ### Concurrent attempts -/

/-- There are three maps of failures. -/
instance neZeroThree : @NeZero ℕ Zero.ofOfNat0 3 := ⟨Nat.succ_ne_zero 2⟩

/-- `FAILURE_IDX_ID_WHITELIST`. -/
def failureIdxIdWhitelist : Fin 3 := 2

/-- `ID_WHITELIST_FAILURE_DECAY_MINUTES`. -/
def idWhitelistFailureDecayMinutes : ℤ := 10

/-- An attempt that its check has allowed: the address of its connection, the map, and what the check
returned. -/
structure Attempt where
  addr : IpAddr
  i : Fin 3
  failure : Failure
  time : ℤ
  deriving DecidableEq

/-- The maps, the attempts between check and update, and the clock in milliseconds. -/
structure Attempts where
  failures : Fin 3 → FailureMap := fun _ _ => none
  pending : List Attempt := []
  now : ℤ

/-- What a connection does, each under one lock, and the passing of time. -/
inductive Event where
  | checkFailure (addr : IpAddr) (i : Fin 3)
  | wrong (attempt : Attempt)
  | right (attempt : Attempt)
  | abandon (attempt : Attempt)
  | decayIdWhitelistFailures (addr : IpAddr)
  | clearIdWhitelistFailures (addr : IpAddr)
  | tick (passed : ℕ)
  deriving DecidableEq

namespace Attempts

/-- One of the maps is changed. -/
def withMap (s : Attempts) (i : Fin 3) (f : FailureMap → FailureMap) : Attempts :=
  { s with failures := Function.update s.failures i (f (s.failures i)) }

/-- The state after an event. -/
def next (s : Attempts) : Event → Attempts
  | .checkFailure addr i =>
      let check := (s.failures i).checkFailure (ipText addr) (minutes s.now)
      if check.res then
        { s with pending := ⟨addr, i, check.failure, check.time⟩ :: s.pending }
      else s
  | .wrong a =>
      { s with pending := s.pending.erase a }.withMap a.i fun m =>
        m.updateFailure (ipText a.addr) a.failure a.time false
  | .right a =>
      { s with pending := s.pending.erase a }.withMap a.i fun m =>
        m.updateFailure (ipText a.addr) a.failure a.time true
  | .abandon a => { s with pending := s.pending.erase a }
  | .decayIdWhitelistFailures addr =>
      s.withMap failureIdxIdWhitelist fun m =>
        m.decayStaleFailures (failureKeys (ipText addr)) (minutes s.now)
          idWhitelistFailureDecayMinutes
  | .clearIdWhitelistFailures addr =>
      s.withMap failureIdxIdWhitelist fun m => m.clearFailures (failureKeys (ipText addr))
  | .tick passed => { s with now := s.now + passed }

/-- An attempt ends only when it is under way. -/
def Enabled (s : Attempts) : Event → Prop
  | .wrong a | .right a | .abandon a => a ∈ s.pending
  | _ => True

/-- A step of the connections. -/
def Step (s : Attempts) (e : Event) (s' : Attempts) : Prop := s.Enabled e ∧ s' = s.next e

/-- An attempt of a connection that has the key, at a map. -/
def concerns (i : Fin 3) (key : String) (a : Attempt) : Bool :=
  a.i = i ∧ key ∈ failureKeys (ipText a.addr)

/-- A wrong attempt that counts for a key of a map. -/
def counts (i : Fin 3) (key : String) : Event → Bool
  | .wrong a => concerns i key a
  | _ => false

/-- An event that removes a key of a map. -/
def removes (i : Fin 3) (key : String) (s : Attempts) (e : Event) : Bool :=
  (s.failures i key).isSome && ((s.next e).failures i key).isNone

/-- The wrong attempts recorded for a key of a map since the key was last removed. -/
def recorded (i : Fin 3) (key : String) (h : List (Attempts × Event)) : ℕ :=
  h.foldl (fun n x => if removes i key x.1 x.2 then 0 else if counts i key x.2 then n + 1 else n) 0

/-- The attempts for a key of a map that are between check and update. -/
def inFlight (i : Fin 3) (key : String) (s : Attempts) : ℕ := s.pending.countP (concerns i key)

/-- The most attempts that were between check and update at the same time. -/
def peak (h : List (Attempts × Event)) (s : Attempts) : ℕ :=
  max (h.foldl (fun n x => max n x.1.pending.length) 0) s.pending.length

variable {s s' : Attempts} {e : Event} {i : Fin 3} {key : String}

theorem recorded_concat (h : List (Attempts × Event)) (x : Attempts × Event) :
  recorded i key (h ++ [x])
    = if removes i key x.1 x.2 then 0
      else if counts i key x.2 then recorded i key h + 1 else recorded i key h
  := by
  rw [recorded]
  rw [List.foldl_append]
  rfl

theorem peak_concat (h : List (Attempts × Event)) :
  peak (h ++ [(s, e)]) s' = max (peak h s) s'.pending.length
  := by
  rw [peak]
  rw [List.foldl_append]
  rfl

theorem failures_withMap_self (f : FailureMap → FailureMap) :
  (s.withMap i f).failures i = f (s.failures i)
  := Function.update_self _ _ _

theorem failures_withMap_of_ne (f : FailureMap → FailureMap) {i' : Fin 3} (hne : i ≠ i') :
  (s.withMap i' f).failures i = s.failures i
  := Function.update_of_ne hne _ _

/-- What only removes entries of a map leaves an entry or removes it. -/
theorem failures_withMap_of_within {f : FailureMap → FailureMap} (i' : Fin 3)
    (hf : ∀ m, (f m).Within m) :
  (s.withMap i' f).failures i key = s.failures i key ∨ (s.withMap i' f).failures i key = none
  := by
  by_cases hi : i = i'
  · subst hi
    rw [failures_withMap_self]
    apply hf
  · rw [failures_withMap_of_ne f hi]
    exact .inl rfl

/-- A wrong attempt at its map. -/
theorem failures_wrong (a : Attempt) :
  (s.next (.wrong a)).failures i key
    = if concerns i key a then some (bumpFailureEntry ((s.failures i).get key) a.time)
      else s.failures i key
  := by
  rw [next, concerns]
  by_cases hi : a.i = i
  · subst hi
    rw [failures_withMap_self, FailureMap.updateFailure_wrong]
    simp
  · rw [failures_withMap_of_ne _ (Ne.symm hi)]
    simp [hi]

/-- An event that records nothing for a key leaves its entry or removes it. -/
theorem failures_of_not_counts (hcounts : counts i key e = false) :
  (s.next e).failures i key = s.failures i key ∨ (s.next e).failures i key = none
  := by
  cases e with
  | checkFailure addr i' =>
      unfold next
      dsimp only
      split <;> exact .inl rfl
  | wrong a =>
      rw [failures_wrong]
      change concerns i key a = false at hcounts
      rw [hcounts]
      exact .inl rfl
  | right a =>
      have hwithin (m : FailureMap) := m.updateFailure_right_within (ipText a.addr) a.failure a.time
      rw [next]
      apply failures_withMap_of_within a.i hwithin
  | abandon a => exact .inl rfl
  | decayIdWhitelistFailures addr =>
      have hwithin (m : FailureMap) := m.decayStaleFailures_within (failureKeys (ipText addr))
        (minutes s.now) idWhitelistFailureDecayMinutes
      rw [next]
      apply failures_withMap_of_within failureIdxIdWhitelist hwithin
  | clearIdWhitelistFailures addr =>
      have hwithin (m : FailureMap) := m.clearFailures_within (failureKeys (ipText addr))
      rw [next]
      apply failures_withMap_of_within failureIdxIdWhitelist hwithin
  | tick passed => exact .inl rfl

/-- The total stored for a key of a map. -/
def total (i : Fin 3) (key : String) (s : Attempts) : ℤ := ((s.failures i).get key).total

/-- The total of a key goes the way of its wrong attempts: to nothing with its removal, up with an
attempt that counts. -/
theorem total_next (i : Fin 3) (key : String) (s : Attempts) (e : Event) :
  total i key (s.next e)
    = if removes i key s e then 0
      else if counts i key e then total i key s + 1 else total i key s
  := by
  unfold total FailureMap.get removes
  cases hcounts : counts i key e with
  | true =>
      obtain ⟨a, rfl⟩ : ∃ a, e = .wrong a := by
        cases e with
        | wrong a => exact ⟨a, rfl⟩
        | _ => cases hcounts
      change concerns i key a = true at hcounts
      rw [failures_wrong, hcounts]
      simp [FailureMap.get]
  | false =>
      rcases failures_of_not_counts (s := s) hcounts with hsame | hnone
      · rw [hsame]
        cases s.failures i key <;> rfl
      · rw [hnone]
        cases s.failures i key <;> rfl

/-- The total of a key is the number of wrong attempts recorded since its removal. -/
theorem total_eq_recorded {now : ℤ} {h : List (Attempts × Event)}
    (hrun : Run Step { now := now } h s) :
  total i key s = recorded i key h
  := by
  induction hrun with
  | nil => rfl
  | snoc _ hstep ih =>
      obtain ⟨-, rfl⟩ := hstep
      rw [total_next, recorded_concat, ih]
      dsimp only
      split
      · rfl
      · split
        · rw [Int.natCast_succ]
        · rfl

/-- Settling an attempt takes it out of those under way. -/
theorem countP_erase_add {a : Attempt} (ha : a ∈ s.pending) :
  (s.pending.erase a).countP (concerns i key) + (if concerns i key a then 1 else 0)
    = inFlight i key s
  := by
  rw [inFlight, (List.perm_cons_erase ha).countP_eq, List.countP_cons]

/-- An event that allows no attempt leaves no more of them under way, and one less if it is a wrong
attempt that counts. -/
theorem inFlight_next (henabled : s.Enabled e) (hcheck : ∀ addr i, e ≠ .checkFailure addr i) :
  inFlight i key (s.next e) + (if counts i key e then 1 else 0) ≤ inFlight i key s
  := by
  have hends {a : Attempt} (ha : a ∈ s.pending) :
      (s.pending.erase a).countP (concerns i key) ≤ inFlight i key s :=
    (Nat.le_add_right _ _).trans (Nat.le_of_eq (countP_erase_add ha))
  cases e with
  | checkFailure addr i' => exact absurd rfl (hcheck addr i')
  | wrong a => apply Nat.le_of_eq (countP_erase_add henabled)
  | right a => apply hends henabled
  | abandon a => apply hends henabled
  | decayIdWhitelistFailures addr => apply Nat.le_refl
  | clearIdWhitelistFailures addr => apply Nat.le_refl
  | tick passed => apply Nat.le_refl

/-- An event that allows no attempt makes the total and the attempts under way no more. -/
theorem total_add_inFlight_next (henabled : s.Enabled e)
    (hcheck : ∀ addr i, e ≠ .checkFailure addr i) (hstored : 0 ≤ total i key s) :
  total i key (s.next e) + inFlight i key (s.next e) ≤ total i key s + inFlight i key s
  := by
  have hunderway : inFlight i key (s.next e) + (if counts i key e then 1 else 0)
      ≤ inFlight i key s := inFlight_next henabled hcheck
  rw [total_next]
  split
  · omega
  · split at hunderway
    · rw [if_pos ‹_›]
      omega
    · rw [if_neg ‹_›]
      omega

/-- A check allows an attempt only while no key of its connection is above its threshold. -/
theorem total_add_inFlight_check (s : Attempts) (addr' : IpAddr) (i i' : Fin 3) {addr : IpAddr}
    {threshold : ℤ} (hkey : (key, threshold) ∈ thresholds (ipText addr)) :
  let s' := s.next (.checkFailure addr' i')
  total i key s' + inFlight i key s' ≤ total i key s + inFlight i key s
    ∨ total i key s' + inFlight i key s' ≤ threshold + s'.pending.length
  := by
  intro s'
  cases hres : ((s.failures i').checkFailure (ipText addr') (minutes s.now)).res with
  | false =>
      have hsame : s' = s := by
        simp [s', next, hres]
      rw [hsame]
      exact .inl (Int.le_refl _)
  | true =>
      have htotal : total i key s' = total i key s := by
        simp [s', next, hres, total]
      rw [htotal]
      by_cases hconcerns : i = i' ∧ key ∈ failureKeys (ipText addr')
      · obtain ⟨rfl, hmem⟩ := hconcerns
        have hbelow : total i key s ≤ threshold := by
          apply FailureMap.total_le_of_res hres
          rw [mem_thresholds] at hkey ⊢
          exact ⟨hmem, hkey.2⟩
        have hunderway : inFlight i key s' ≤ s'.pending.length := List.countP_le_length
        right
        omega
      · have hsame : inFlight i key s' = inFlight i key s := by
          rw [Classical.not_and_iff_not_or_not] at hconcerns
          rcases hconcerns with hne | hmem
          · simp [s', next, hres, inFlight, concerns, Ne.symm hne]
          · simp [s', next, hres, inFlight, concerns, hmem]
        rw [hsame]
        exact .inl (Int.le_refl _)

/-- In a run the total of a key and the attempts for it that are under way are at most its threshold
and the most attempts that ever were under way at the same time. -/
theorem total_add_inFlight_of_run {now : ℤ} {h : List (Attempts × Event)}
    (hrun : Run Step { now := now } h s) {addr : IpAddr} {threshold : ℤ}
    (hkey : (key, threshold) ∈ thresholds (ipText addr)) :
  total i key s + inFlight i key s ≤ threshold + peak h s
  := by
  induction hrun with
  | nil =>
      have hthreshold : 0 ≤ threshold := by
        rw [((mem_thresholds addr key threshold).mp hkey).2]
        rw [thresholdOf]
        split_ifs <;> decide
      change 0 + 0 ≤ threshold + ((max 0 0 : ℕ) : ℤ)
      omega
  | @snoc h s s' e hrun hstep ih =>
      have hstored : 0 ≤ total i key s := by
        rw [total_eq_recorded hrun]
        apply Int.natCast_nonneg
      obtain ⟨henabled, rfl⟩ := hstep
      rw [peak_concat]
      by_cases hcheck : ∃ addr' i', e = .checkFailure addr' i'
      · obtain ⟨addr', i', rfl⟩ := hcheck
        rcases total_add_inFlight_check s addr' i i' hkey with hle | hle
        · omega
        · omega
      · have hle := total_add_inFlight_next henabled (by simpa using hcheck) hstored
        omega

/-- The totals stay in `i32` while fewer than `2 ^ 31 - 100` attempts are under way at once. -/
theorem total_lt_of_run {now : ℤ} {h : List (Attempts × Event)}
    (hrun : Run Step { now := now } h s) {addr : IpAddr} {threshold : ℤ}
    (hkey : (key, threshold) ∈ thresholds (ipText addr)) (hpeak : peak h s + 100 < 2 ^ 31) :
  total i key s < 2 ^ 31
  := by
  have hbound := total_add_inFlight_of_run hrun hkey (i := i)
  have hthreshold : threshold ≤ 100 := by
    rw [((mem_thresholds addr key threshold).mp hkey).2]
    rw [thresholdOf]
    split_ifs <;> decide
  omega

/-- In every run the total stored for a key is the number of wrong attempts recorded since the key was
removed last.  With the attempts for the key that are still under way, it is at most the threshold
of the key and the most attempts that ever were under way at the same time. -/
theorem throttled_of_run {now : ℤ} {h : List (Attempts × Event)} (i : Fin 3) (key : String)
    (hrun : Run Step { now := now } h s) :
  total i key s = recorded i key h ∧ ∀ addr threshold,
    (key, threshold) ∈ thresholds (ipText addr) →
      (recorded i key h : ℤ) + inFlight i key s ≤ threshold + peak h s
  := by
  rw [← total_eq_recorded hrun]
  use rfl
  intro addr threshold hkey
  apply total_add_inFlight_of_run hrun hkey

/-- An address of the documentation range. -/
def sampleAddr : IpAddr := .v6 0x20010DB8000000000000000000000001#128

/-- An attempt of its connection at a password. -/
def sampleAttempt : Attempt := ⟨sampleAddr, 0, {}, 0⟩

/-- The attempt is allowed, and is wrong. -/
def sampleHistory : List (Attempts × Event) :=
  Run.trace next { now := 0 } [.checkFailure sampleAddr 0, .wrong sampleAttempt]

theorem throttled_wrong :
  let s : Attempts := next (next { now := 0 } (.checkFailure sampleAddr 0)) (.wrong sampleAttempt)
  total 0 (ipText sampleAddr) s = recorded 0 (ipText sampleAddr) sampleHistory
    ∧ ∀ addr threshold, (ipText sampleAddr, threshold) ∈ thresholds (ipText addr) →
      (recorded 0 (ipText sampleAddr) sampleHistory : ℤ) + inFlight 0 (ipText sampleAddr) s
        ≤ threshold + peak sampleHistory s
  := by
  have hallowed : sampleAttempt ∈ (next { now := 0 } (.checkFailure sampleAddr 0)).pending := by
    decide +kernel
  have hcheck : Step { now := 0 } (.checkFailure sampleAddr 0) _ := ⟨trivial, rfl⟩
  have hwrong : Step _ (.wrong sampleAttempt) _ := ⟨hallowed, rfl⟩
  have hrun : Run Step { now := 0 } sampleHistory _ := (Run.nil.snoc hcheck).snoc hwrong
  apply throttled_of_run 0 (ipText sampleAddr) hrun

end Attempts

end VynxDesk.LoginFailures
