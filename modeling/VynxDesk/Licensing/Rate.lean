import Mathlib.Data.List.Induction
import VynxDesk.Licensing.DeviceLimit

/-!
# The rate limit

What `rate_limit` counts and what it denies, along any sequence of requests to the store whose
rate-limited calls read clocks that do not go back.  Every call is charged to its identity and to
`global`, the calls it denies as well, in the bucket of its minute.
-/

namespace VynxDesk.Licensing

/-- `db'` has the request rates of `db`. -/
def SameRates (db db' : Database) : Prop := db'.requestRates = db.requestRates

theorem SameRates.refl (db : Database) : SameRates db db
  := rfl

theorem SameRates.trans (db db' db'' : Database) (h : SameRates db db') (h' : SameRates db' db'') :
  SameRates db db''
  := Eq.trans h' h

namespace LicenseStore

variable {store : LicenseStore} {db db' : Database}

/-- A request of another kind leaves the request rates alone. -/
theorem exec_sameRates {r : Request} (hr : ∀ address, r.call ≠ .rateLimit address) :
  (store.exec r).Within SameRates
  := by
  rw [exec]
  split
  case h_7 address hcall => exact absurd hcall (hr address)
  all_goals
    simp only [issue, extend, revoke, rotateCode, releaseDevice, auditEvents, challenge, activate,
      refresh, devices, consume, license, enrol, insertLicense, updateLicenses, updateCodeHash,
      insertDevice, updateDevices, insertChallenge, deleteChallenges, audit, insertOperatorEvent,
      verifyToken]
    with_reducible repeat' first
      | apply Routine.Within.pure SameRates.refl
      | apply Routine.Within.read SameRates.refl
      | apply Routine.Within.require SameRates.refl
      | apply Routine.Within.expect SameRates.refl
      | apply Routine.Within.raise SameRates.refl
      | apply Routine.Within.bind SameRates.trans
      | apply Routine.Within.atomic SameRates.refl
      | apply Routine.Within.write
      | intro _
      | split
    all_goals rfl

end LicenseStore

namespace Database

/-- The table with one more request of `key` in `bucket`. -/
def charge (key : String) (bucket : Int) (db : Database) : Database :=
  (countRequest key bucket db).2

/-- The table without the rows of buckets before `bucket`. -/
def prune (bucket : Int) (db : Database) : Database := (deleteRequestRates bucket db).2

variable {db : Database} {key key' : String} {bucket bucket' : Int}

/-- The row of an identity in a bucket. -/
def IsRow (key : String) (bucket : Int) (row : RequestRate) : Prop :=
  row.identity = key ∧ row.bucket = bucket

instance (key : String) (bucket : Int) : DecidablePred (IsRow key bucket) :=
  fun _ => inferInstanceAs (Decidable (_ ∧ _))

/-- One more request on a row. -/
def count (row : RequestRate) : RequestRate := { row with count := min (row.count + 1) 1000000 }

theorem requestRates_charge :
  (db.charge key bucket).requestRates =
    if db.requestRates.any (IsRow key bucket ·) then
      db.requestRates.map fun row => if IsRow key bucket row then count row else row
    else db.requestRates ++ [⟨key, bucket, 1⟩]
  := by
  change (if db.requestRates.any (IsRow key bucket ·) then _ else _ : Database).requestRates = _
  split_ifs
  · rfl
  · rfl

theorem requestCount_eq :
  db.requestCount key bucket =
    ((db.requestRates.find? (IsRow key bucket ·)).map (·.count)).getD 0
  := rfl

/-- Counting on the rows of one identity and bucket does not move a row. -/
theorem find_map_count (rows : List RequestRate) :
  (rows.map fun row => if IsRow key bucket row then count row else row).find?
      (IsRow key' bucket' ·) =
    (rows.find? (IsRow key' bucket' ·)).map fun row =>
      if IsRow key bucket row then count row else row
  := by
  rw [List.find?_map]
  congr 2
  funext row
  dsimp only [Function.comp_apply]
  split_ifs
  · rfl
  · rfl

/-- Charging a request adds one to its count, up to the cap, and to no other. -/
theorem requestCount_charge :
  (db.charge key bucket).requestCount key' bucket' =
    if key' = key ∧ bucket' = bucket then min (db.requestCount key bucket + 1) 1000000
    else db.requestCount key' bucket'
  := by
  rw [requestCount_eq, requestRates_charge]
  by_cases hany : db.requestRates.any (IsRow key bucket ·)
  · rw [if_pos hany, find_map_count]
    split_ifs with hsame
    · obtain ⟨rfl, rfl⟩ := hsame
      obtain ⟨row, hrow, his⟩ := List.any_eq_true.mp hany
      rcases hfind : db.requestRates.find? (IsRow key' bucket' ·) with _ | found
      · exact absurd his (List.find?_eq_none.mp hfind row hrow)
      · have hfound : IsRow key' bucket' found := by
          simpa using List.find?_some hfind
        simp [requestCount_eq, hfind, hfound, count]
    · rcases hfind : db.requestRates.find? (IsRow key' bucket' ·) with _ | found
      · simp [requestCount_eq, hfind]
      · have hfound : ¬ IsRow key bucket found := by
          rintro ⟨rfl, rfl⟩
          apply hsame
          have his : IsRow key' bucket' found := by
            simpa using List.find?_some hfind
          exact ⟨his.1.symm, his.2.symm⟩
        simp [requestCount_eq, hfind, hfound]
  · have hnone : db.requestRates.find? (IsRow key bucket ·) = none := by
      simpa using hany
    rw [if_neg hany, List.find?_append]
    split_ifs with hsame
    · obtain ⟨rfl, rfl⟩ := hsame
      have hnew : IsRow key' bucket' ⟨key', bucket', 1⟩ := ⟨rfl, rfl⟩
      simp [requestCount_eq, hnone, hnew]
    · have hnew : ¬ IsRow key' bucket' ⟨key, bucket, 1⟩ := by
        rintro ⟨rfl, rfl⟩
        apply hsame ⟨rfl, rfl⟩
      simp [requestCount_eq, hnew]

/-- Pruning leaves the counts of the buckets it keeps. -/
theorem requestCount_prune (h : bucket ≤ bucket') :
  (db.prune bucket).requestCount key bucket' = db.requestCount key bucket'
  := by
  have hrows : (db.prune bucket).requestRates =
      db.requestRates.filter fun row => ¬ row.bucket < bucket := rfl
  rw [requestCount_eq, requestCount_eq, hrows, List.find?_filter]
  congr 3
  funext row
  by_cases hrow : IsRow key bucket' row
  · simp [hrow, hrow.2, h]
  · simp [hrow]

theorem mem_prune {row : RequestRate} (h : row ∈ (db.prune bucket).requestRates) :
  bucket ≤ row.bucket
  := by
  simpa [prune, deleteRequestRates, Routine.write] using (List.mem_filter.mp h).2

theorem mem_charge {row : RequestRate} (h : row ∈ (db.charge key bucket).requestRates) :
  row.bucket = bucket ∨ ∃ row' ∈ db.requestRates, row'.bucket = row.bucket
  := by
  rw [requestRates_charge] at h
  split_ifs at h
  · obtain ⟨row', hrow', rfl⟩ := List.mem_map.mp h
    right
    use row', hrow'
    split_ifs
    · rfl
    · rfl
  · rw [List.mem_append, List.mem_singleton] at h
    rcases h with hold | rfl
    · right
      use row
    · left
      rfl

end Database

namespace LicenseStore

variable {store : LicenseStore} {db db' : Database} {h : List (Database × Request)}
  {x : Database × Request} {key address : String} {bucket : Int}

/-- `rate_limit` charges a call to its identity and to `global`, and denies it when either is over
its limit. -/
theorem rateLimit_apply (clock : ℕ → Int) (address : String) (db : Database) :
  let bucket := clock 0 / 60
  let byAddress := (db.prune (bucket - 1)).charge (store.identity address) bucket
  let byAll := byAddress.charge "global" bucket
  store.rateLimit clock address db =
    (if 60 < byAddress.requestCount (store.identity address) bucket ∨
        600 < byAll.requestCount "global" bucket then
      .error (.Denied 429 "rate_limited") else .ok (), byAll)
  := by
  intro bucket byAddress byAll
  have hlimited : (Routine.atomic do
      deleteRequestRates (bucket - 1)
      let byAddress ← overLimit bucket (store.identity address) 60
      let byAll ← overLimit bucket "global" 600
      return byAddress || byAll) db =
      (.ok (decide (60 < byAddress.requestCount (store.identity address) bucket) ||
        decide (600 < byAll.requestCount "global" bucket)), byAll) := rfl
  rw [rateLimit, Routine.bind_apply, hlimited]
  by_cases hover : 60 < byAddress.requestCount (store.identity address) bucket ∨
      600 < byAll.requestCount "global" bucket
  · rw [if_pos hover]
    simp only [← Bool.decide_or, hover]
    rfl
  · rw [if_neg hover]
    simp only [← Bool.decide_or, hover]
    rfl

/-- What `rate_limit` decides by, and what it leaves: the counts of its bucket and the later ones
are those before, with one more call of its identity and of `global`, and the rows of buckets before
the previous one are gone. -/
theorem rateLimit_spec (db : Database) (clock : ℕ → Int)
    (hidentity : store.identity address ≠ "global") :
  ∃ db', store.rateLimit clock address db =
      (if 60 < db'.requestCount (store.identity address) (clock 0 / 60) ∨
          600 < db'.requestCount "global" (clock 0 / 60) then
        .error (.Denied 429 "rate_limited") else .ok (), db') ∧
    (∀ key, ∀ bucket ≥ clock 0 / 60, db'.requestCount key bucket =
      if (key = store.identity address ∨ key = "global") ∧ bucket = clock 0 / 60 then
        min (db.requestCount key bucket + 1) 1000000
      else db.requestCount key bucket) ∧
    ∀ row ∈ db'.requestRates, clock 0 / 60 - 1 ≤ row.bucket
  := by
  have hspec := store.rateLimit_apply clock address db
  generalize clock 0 / 60 = now at hspec ⊢
  dsimp only at hspec
  have hsame : ((db.prune (now - 1)).charge (store.identity address) now).requestCount
      (store.identity address) now =
        (((db.prune (now - 1)).charge (store.identity address) now).charge "global"
          now).requestCount (store.identity address) now :=
    (Database.requestCount_charge.trans (if_neg (fun h => hidentity h.1))).symm
  rw [hsame] at hspec
  refine ⟨_, hspec, ?_, ?_⟩
  · intro key bucket hbucket
    have hprune (key : String) :
        (db.prune (now - 1)).requestCount key bucket = db.requestCount key bucket :=
      Database.requestCount_prune (by omega)
    simp only [Database.requestCount_charge]
    by_cases hnow : bucket = now
    · subst hnow
      by_cases hkey : key = "global"
      · simp [hkey, hidentity.symm, hprune]
      · by_cases haddress : key = store.identity address
        · simp [haddress, hidentity, hprune]
        · simp [hkey, haddress, hprune]
    · simp [hnow, hprune]
  · intro row hrow
    rcases Database.mem_charge hrow with hnow | ⟨row', hrow', hbucket⟩
    · omega
    · rcases Database.mem_charge hrow' with hnow | ⟨row'', hrow'', hbucket'⟩
      · omega
      · have hpruned := Database.mem_prune hrow''
        omega

/-- A request is a rate-limited call that is charged to `key` in `bucket`. -/
def charges (store : LicenseStore) (key : String) (bucket : Int) (r : Request) : Bool :=
  match r.call with
  | .rateLimit address =>
      (key = store.identity address ∨ key = "global") ∧ r.clock 0 / 60 = bucket
  | _ => false

/-- The number of calls of a history that are charged to `key` in `bucket`. -/
def charged (store : LicenseStore) (key : String) (bucket : Int)
    (h : List (Database × Request)) : ℕ :=
  h.countP fun x => store.charges key bucket x.2

/-- The number of those that return. -/
def passed (store : LicenseStore) (key : String) (bucket : Int)
    (h : List (Database × Request)) : ℕ :=
  h.countP fun x => store.charges key bucket x.2 && (store.exec x.2 x.1).1.isOk

/-- The clock readings of the rate-limited calls of a history. -/
def readings (h : List (Database × Request)) : List Int :=
  h.filterMap fun x =>
    match x.2.call with
    | .rateLimit _ => some (x.2.clock 0)
    | _ => none

/-- The rate-limited calls of a history read clocks that do not go back. -/
def Clocked (h : List (Database × Request)) : Prop := (readings h).Pairwise (· ≤ ·)

/-- The rate limit holds: a call is denied when it and the calls before it exceed the limit of its
identity or of all, in its bucket; so at most 60 calls of an identity and 600 of all return; and a
call leaves no rows of buckets before the previous one. -/
structure RateLimited (store : LicenseStore) (h : List (Database × Request)) : Prop where
  denied : ∀ before x after address, h = before ++ x :: after → x.2.call = .rateLimit address →
    (store.exec x.2 x.1).1 =
      if 60 < store.charged (store.identity address) (x.2.clock 0 / 60) (before ++ [x]) ∨
          600 < store.charged "global" (x.2.clock 0 / 60) (before ++ [x]) then
        .error (.Denied 429 "rate_limited")
      else .ok .done
  within : ∀ address bucket, store.passed (store.identity address) bucket h ≤ 60 ∧
    store.passed "global" bucket h ≤ 600
  pruned : ∀ x ∈ h, ∀ address, x.2.call = .rateLimit address →
    ∀ row ∈ (store.exec x.2 x.1).2.requestRates, x.2.clock 0 / 60 - 1 ≤ row.bucket

theorem exec_rateLimit {r : Request} (hcall : r.call = .rateLimit address) :
  store.exec r db =
    (((store.rateLimit r.clock address db).1.map fun _ => .done),
      (store.rateLimit r.clock address db).2)
  := by
  rw [exec, hcall]
  dsimp only
  rw [Routine.bind_apply]
  rcases store.rateLimit r.clock address db with ⟨e | a, s⟩
  · rfl
  · rfl

theorem charges_rateLimit {r : Request} (hcall : r.call = .rateLimit address) :
  store.charges key bucket r = decide
    ((key = store.identity address ∨ key = "global") ∧ r.clock 0 / 60 = bucket)
  := by
  rw [charges, hcall]

theorem charges_other {r : Request} (hcall : ∀ address, r.call ≠ .rateLimit address) :
  store.charges key bucket r = false
  := by
  rw [charges]
  split
  · next address h => exact absurd h (hcall address)
  · rfl

theorem readings_rateLimit (hcall : x.2.call = .rateLimit address) :
  readings (h ++ [x]) = readings h ++ [x.2.clock 0]
  := by
  simp [readings, hcall]

theorem readings_other (hcall : ∀ address, x.2.call ≠ .rateLimit address) :
  readings (h ++ [x]) = readings h
  := by
  obtain ⟨db, call, clock⟩ := x
  cases call with
  | rateLimit address => exact absurd rfl (hcall address)
  | _ => simp [readings]

theorem charged_concat :
  store.charged key bucket (h ++ [x]) =
    store.charged key bucket h + if store.charges key bucket x.2 then 1 else 0
  := by
  simp [charged, List.countP_append, List.countP_singleton]

/-- The counts of the current bucket and the later ones are the numbers of calls, up to the cap. -/
theorem requestCount_of_run (hidentity : ∀ address, store.identity address ≠ "global")
    {db₀ : Database} (hempty : db₀.requestRates = []) (hrun : Run store.Step db₀ h db) :
  ∀ key bucket, (∀ t ∈ readings h, t / 60 ≤ bucket) →
    db.requestCount key bucket = min (store.charged key bucket h) 1000000
  := by
  induction hrun with
  | nil =>
      intro key bucket _
      simp [Database.requestCount, hempty, charged]
  | @snoc h db db' r _ hstep ih =>
      intro key bucket hbucket
      by_cases hcall : ∃ address, r.call = .rateLimit address
      · obtain ⟨address, hcall⟩ := hcall
        rw [readings_rateLimit hcall, List.forall_mem_append, List.forall_mem_singleton] at hbucket
        obtain ⟨db₁, hrate, hcount, _⟩ :=
          store.rateLimit_spec db r.clock (hidentity address)
        rw [Step, exec_rateLimit hcall, hrate] at hstep
        rw [← hstep, hcount key bucket hbucket.2, charged_concat, charges_rateLimit hcall,
          ih key bucket hbucket.1]
        by_cases hcharged : (key = store.identity address ∨ key = "global") ∧
            r.clock 0 / 60 = bucket
        · rw [if_pos ⟨hcharged.1, hcharged.2.symm⟩, if_pos (by simpa using hcharged)]
          omega
        · rw [if_neg (fun h => hcharged ⟨h.1, h.2.symm⟩), if_neg (by simpa using hcharged)]
          rfl
      · push Not at hcall
        rw [readings_other hcall] at hbucket
        have hsame : SameRates db (store.exec r db).2 := exec_sameRates hcall db
        rw [hstep] at hsame
        rw [charged_concat, charges_other hcall, Database.requestCount, hsame]
        apply ih key bucket hbucket

/-- A rate-limited call of a run is denied when it and the calls before it exceed a limit. -/
theorem denied_of_run (hidentity : ∀ address, store.identity address ≠ "global") {db₀ : Database}
    (hempty : db₀.requestRates = []) (hrun : Run store.Step db₀ h db) {r : Request}
    (hcall : r.call = .rateLimit address) (hclock : Clocked (h ++ [(db, r)])) :
  (store.exec r db).1 =
    if 60 < store.charged (store.identity address) (r.clock 0 / 60) (h ++ [(db, r)]) ∨
        600 < store.charged "global" (r.clock 0 / 60) (h ++ [(db, r)]) then
      .error (.Denied 429 "rate_limited")
    else .ok .done
  := by
  have hlast : ∀ t ∈ readings (h ++ [(db, r)]), t / 60 ≤ r.clock 0 / 60 := by
    rw [Clocked, readings_rateLimit (x := (db, r)) hcall, List.pairwise_append] at hclock
    rw [readings_rateLimit (x := (db, r)) hcall, List.forall_mem_append,
      List.forall_mem_singleton]
    constructor
    · intro t ht
      apply Int.ediv_le_ediv (by decide)
      apply hclock.2.2 t ht _ (List.mem_singleton_self _)
    · rfl
  obtain ⟨db₁, hrate, _, _⟩ :=
    store.rateLimit_spec db r.clock (hidentity address)
  have hstep : store.Step db r db₁ := by
    rw [Step, exec_rateLimit hcall, hrate]
  have hcount := requestCount_of_run hidentity hempty (hrun.snoc hstep)
  have hover (limit count : ℕ) (hlimit : limit < 1000000) :
      limit < min count 1000000 ↔ limit < count := by
    omega
  rw [exec_rateLimit hcall, hrate, hcount _ _ hlast, hcount _ _ hlast]
  simp (disch := decide) only [hover]
  split_ifs
  · rfl
  · rfl

theorem passed_le_charged (key : String) (bucket : Int) (h : List (Database × Request)) :
  store.passed key bucket h ≤ store.charged key bucket h
  := by
  apply List.countP_mono_left
  intro x _ hx
  exact (Bool.and_eq_true_iff.mp hx).1

/-- When a charged call returns only while the limit is kept, at most as many return. -/
theorem passed_le {limit : ℕ} (h : List (Database × Request))
    (hkept : ∀ before x after, h = before ++ x :: after → store.charges key bucket x.2 = true →
      (store.exec x.2 x.1).1.isOk = true → store.charged key bucket (before ++ [x]) ≤ limit) :
  store.passed key bucket h ≤ limit
  := by
  induction h using List.reverseRecOn with
  | nil => apply Nat.zero_le
  | append_singleton h x ih =>
      by_cases hpasses : store.charges key bucket x.2 && (store.exec x.2 x.1).1.isOk
      · obtain ⟨hcharges, hok⟩ := Bool.and_eq_true_iff.mp hpasses
        apply (passed_le_charged key bucket _).trans
        apply hkept h x [] rfl hcharges hok
      · have hsame : store.passed key bucket (h ++ [x]) = store.passed key bucket h := by
          simp [passed, List.countP_append, hpasses]
        rw [hsame]
        apply ih
        intro before y after hsplit
        apply hkept before y (after ++ [x])
        rw [hsplit]
        simp

theorem clocked_before {before after : List (Database × Request)}
    (hclock : Clocked (before ++ x :: after)) :
  Clocked (before ++ [x])
  := by
  have hsublist : (before ++ [x]).Sublist (before ++ x :: after) := by
    simp
  apply List.Pairwise.sublist (hsublist.filterMap _) hclock

/-- In every run of requests whose rate-limited calls read clocks that do not go back, the rate
limit holds. -/
theorem rateLimited_of_run (hidentity : ∀ address, store.identity address ≠ "global")
    {db₀ : Database} (hempty : db₀.requestRates = []) {h : List (Database × Request)}
    (hrun : Run store.Step db₀ h db) (hclock : Clocked h) :
  store.RateLimited h
  := by
  have hdenied : ∀ before x after address, h = before ++ x :: after →
      x.2.call = .rateLimit address → (store.exec x.2 x.1).1 =
        if 60 < store.charged (store.identity address) (x.2.clock 0 / 60) (before ++ [x]) ∨
            600 < store.charged "global" (x.2.clock 0 / 60) (before ++ [x]) then
          .error (.Denied 429 "rate_limited")
        else .ok .done := by
    rintro before x after address rfl hcall
    apply denied_of_run hidentity hempty hrun.before.1 hcall (clocked_before hclock)
  have hkept : ∀ key bucket before x after, h = before ++ x :: after →
      store.charges key bucket x.2 = true → (store.exec x.2 x.1).1.isOk = true →
      ∃ address, (key = store.identity address ∨ key = "global") ∧
        store.charged (store.identity address) bucket (before ++ [x]) ≤ 60 ∧
        store.charged "global" bucket (before ++ [x]) ≤ 600 := by
    intro key bucket before x after hsplit hcharges hok
    by_cases hcall : ∃ address, x.2.call = .rateLimit address
    · obtain ⟨address, hcall⟩ := hcall
      rw [charges_rateLimit hcall, decide_eq_true_eq] at hcharges
      obtain ⟨hkey, rfl⟩ := hcharges
      use address, hkey
      rw [hdenied before x after address hsplit hcall] at hok
      split_ifs at hok with hover
      · cases hok
      · omega
    · rw [charges_other (by simpa using hcall)] at hcharges
      cases hcharges
  constructor
  · exact hdenied
  · intro address bucket
    constructor
    · apply passed_le
      intro before x after hsplit hcharges hok
      obtain ⟨address', hkey, hwithin, _⟩ := hkept _ _ before x after hsplit hcharges hok
      rcases hkey with hkey | hkey
      · rw [hkey]
        exact hwithin
      · exact absurd hkey (hidentity address)
    · apply passed_le
      intro before x after hsplit hcharges hok
      obtain ⟨_, _, _, hwithin⟩ := hkept _ _ before x after hsplit hcharges hok
      exact hwithin
  · intro x _ address hcall
    obtain ⟨db', hrate, _, hpruned⟩ :=
      store.rateLimit_spec x.1 x.2.clock (hidentity address)
    rw [exec_rateLimit hcall, hrate]
    exact hpruned

/-- A store whose digests are not `global`. -/
def digestStore : LicenseStore := { sampleStore with identity := fun address => "#" ++ address }

/-- One address calls 61 times in a minute, and once in the next. -/
def sampleCalls : List Request :=
  List.replicate 61 ⟨.rateLimit "192.0.2.1", fun _ => 59⟩ ++
    [⟨.rateLimit "192.0.2.1", fun _ => 60⟩]

theorem rateLimited_burst :
  digestStore.RateLimited (Run.trace digestStore.serve Database.empty sampleCalls) ∧
    (Run.trace digestStore.serve Database.empty sampleCalls).map
        (fun x => (digestStore.exec x.2 x.1).1.isOk) = List.replicate 60 true ++ [false, true]
  := by
  constructor
  · apply rateLimited_of_run _ rfl (run_serve sampleCalls)
    · rw [Clocked]
      decide +kernel
    · intro address h
      have hfirst := congrArg (fun text => text.toList.head?) h
      simp [digestStore] at hfirst
  · decide +kernel

end LicenseStore

end VynxDesk.Licensing
