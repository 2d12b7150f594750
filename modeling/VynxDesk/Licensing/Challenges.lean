import VynxDesk.Licensing.DeviceLimit

/-!
# Challenges

A request either leaves the challenges alone, issues one, or spends the one it proves
(`LicenseStore.Step.challenges`).  Along a run every pending challenge was issued by an earlier
request and has not been spent since, and no nonce is spent more often than it was issued
(`LicenseStore.Accounted`).
-/

namespace VynxDesk.Licensing

/-- How a call uses a challenge: the nonce and the signature it is given, the operation and the
binding the challenge must be for, and which of the call's clock readings it must be before its
expiry. -/
structure Use where
  nonce : String
  signature : String
  operation : String
  binding : String
  reading : ℕ
  deriving DecidableEq, Repr

namespace LicenseStore

variable {store : LicenseStore} {db db' : Database}

/-- The use that a call makes of a challenge. -/
def use (store : LicenseStore) : Call → Option Use
  | .activate _ code nonce signature => some ⟨nonce, signature, "activate", store.sha code, 0⟩
  | .refresh activationId nonce signature =>
      some ⟨nonce, signature, "refresh", store.sha activationId, 0⟩
  | .devices token nonce signature => some ⟨nonce, signature, "devices", store.sha token, 2⟩
  | _ => none

/-- Whether a request returns. -/
def succeeds (store : LicenseStore) (x : Database × Request) : Bool := (store.exec x.2 x.1).1.isOk

/-- The challenge that a request issues. -/
def issuedBy (store : LicenseStore) (x : Database × Request) : Option Challenge :=
  match x.2.call with
  | .challenge nonce publicKey operation binding =>
      if store.succeeds x then
        (store.loadDeviceKey publicKey).map fun der =>
          ⟨nonce, der, store.sha256 der, operation, binding, x.2.clock 0 + challengeTtl⟩
      else none
  | _ => none

/-- The nonce that a request spends. -/
def spentBy (store : LicenseStore) (x : Database × Request) : Option String :=
  if store.succeeds x then (store.use x.2.call).map (·.nonce) else none

/-- What a request does to the challenges. -/
inductive Disposal (store : LicenseStore) (db : Database) (r : Request) (db' : Database) :
    Prop where
  | kept
      (hissued : store.issuedBy (db, r) = none) (hspent : store.spentBy (db, r) = none)
      (hchallenges : db'.challenges = db.challenges)
  | issued (row : Challenge)
      (hissued : store.issuedBy (db, r) = some row) (hspent : store.spentBy (db, r) = none)
      (hchallenges :
        db'.challenges = db.challenges.filter (r.clock 0 < ·.expiresAt) ++ [row])
  | spent (u : Use) (row : Challenge)
      (huse : store.use r.call = some u)
      (hproves : store.Proves db u.nonce u.signature u.operation u.binding (r.clock u.reading) row)
      (hissued : store.issuedBy (db, r) = none) (hspent : store.spentBy (db, r) = some u.nonce)
      (hchallenges : db'.challenges = db.challenges.filter (¬ ·.nonce = u.nonce))

theorem succeeds_of_yields {r : Request} {reply : Reply}
    (h : (store.exec r).Yields db reply db') :
  store.succeeds (db, r) = true
  := by
  simp only [succeeds, Routine.Yields] at h ⊢
  rw [h]
  rfl

theorem succeeds_of_raises {r : Request} {e : Error}
    (h : (store.exec r).Raises db e db') :
  store.succeeds (db, r) = false
  := by
  simp only [succeeds, Routine.Raises] at h ⊢
  rw [h]
  rfl

/-- Enrolling a device leaves the challenges alone. -/
theorem enrol_challenges {license : License} {proof : Challenge} {did : String} {now : Int}
    {device : Device} (h : (enrol license proof did now).Yields db device db') :
  db'.challenges = db.challenges
  := by
  rcases enrol_yields h with ⟨_, _, rfl⟩ | ⟨_, _, rfl⟩
  · rfl
  · rfl

/-- What a request that returns does to the challenges. -/
theorem exec_disposal {r : Request} {reply : Reply} (h : (store.exec r).Yields db reply db') :
  store.Disposal db r db'
  := by
  have hok := succeeds_of_yields h
  rw [exec] at h
  split at h
  all_goals
    rename_i hcall
    simp only [bind_pure_comp, Routine.yields_map] at h
    obtain ⟨_, h, _⟩ := h
  case h_8 =>
    obtain ⟨der, hder, _, _, hchallenges⟩ := challenge_yields h
    apply Disposal.issued _ _ _ hchallenges
    · simp [issuedBy, hcall, hok, hder]
    · simp [spentBy, hcall, use]
  case h_9 =>
    obtain ⟨proof, _, _, _, hproof, _, _, henrol⟩ := activate_yields h
    apply Disposal.spent _ proof (by rw [hcall]; rfl) hproof
    · simp [issuedBy, hcall]
    · simp [spentBy, hcall, use, hok]
    · exact enrol_challenges henrol
  case h_10 =>
    obtain ⟨proof, hproof, rfl⟩ := refresh_yields h
    apply Disposal.spent _ proof (by rw [hcall]; rfl) hproof
    · simp [issuedBy, hcall]
    · simp [spentBy, hcall, use, hok]
    · rfl
  case h_11 =>
    obtain ⟨proof, hproof, rfl⟩ := devices_yields h
    apply Disposal.spent _ proof (by rw [hcall]; rfl) hproof
    · simp [issuedBy, hcall]
    · simp [spentBy, hcall, use, hok]
    · rfl
  all_goals
    apply Disposal.kept
    · simp [issuedBy, hcall]
    · simp [spentBy, hcall, use]
  case h_1 =>
    obtain ⟨_, _, _, _, _, hchallenges⟩ := issue_yields h
    exact hchallenges
  case h_2 => exact (extend_yields h).2.2
  case h_3 => exact (revoke_yields h).2.2
  case h_4 => exact (rotateCode_yields h).2.2
  case h_5 => exact (releaseDevice_yields h).2.2
  case h_6 => rw [auditEvents_yields h]
  case h_7 => exact (rateLimit_within.of_yields h).challenges

/-- What a request does to the challenges. -/
theorem Step.disposal {r : Request} (h : store.Step db r db') :
  store.Disposal db r db'
  := by
  subst h
  rcases Routine.yields_or_raises (store.exec r) db with ⟨reply, db', h⟩ | ⟨e, db', h⟩
  · rw [h]
    apply exec_disposal h
  · rw [h]
    have hfails := succeeds_of_raises h
    apply Disposal.kept
    · simp only [issuedBy, hfails]
      split <;> rfl
    · simp [spentBy, hfails]
    · exact (exec_raises h).challenges

/-- What the history of a run says about the pending challenges: each was issued by a request of
the run after which its nonce has not been spent, and a nonce was spent, or is pending, at most as
often as it was issued. -/
structure Accounted (store : LicenseStore) (h : List (Database × Request)) (db : Database) :
    Prop where
  issued : ∀ row ∈ db.challenges, ∃ earlier x later, h = earlier ++ x :: later ∧
    store.issuedBy x = some row ∧ row.nonce ∉ later.filterMap store.spentBy
  once : ∀ nonce, (h.filterMap store.spentBy).count nonce +
    db.challenges.countP (·.nonce = nonce) ≤ (h.filterMap store.issuedBy).countP (·.nonce = nonce)

namespace Accounted

variable {h : List (Database × Request)} {r : Request}

/-- A challenge that stays pending is still accounted for after a request that does not spend
it. -/
theorem issued_snoc (hacc : store.Accounted h db) {row : Challenge} (hrow : row ∈ db.challenges)
    (hspent : store.spentBy (db, r) ≠ some row.nonce) :
  ∃ earlier x later, h ++ [(db, r)] = earlier ++ x :: later ∧
    store.issuedBy x = some row ∧ row.nonce ∉ later.filterMap store.spentBy
  := by
  obtain ⟨earlier, x, later, rfl, hissued, hlater⟩ := hacc.issued row hrow
  use earlier, x, later ++ [(db, r)]
  refine ⟨by simp, hissued, ?_⟩
  rw [List.filterMap_append, List.mem_append]
  rintro (hmem | hmem)
  · exact hlater hmem
  · apply hspent
    simpa using hmem

theorem step (hacc : store.Accounted h db) (hstep : store.Step db r db') :
  store.Accounted (h ++ [(db, r)]) db'
  := by
  rcases hstep.disposal with ⟨hissued, hspent, hc⟩ | ⟨row, hissued, hspent, hc⟩ |
    ⟨u, row, huse, hproves, hissued, hspent, hc⟩
  · constructor
    · intro row hrow
      rw [hc] at hrow
      apply hacc.issued_snoc hrow
      simp [hspent]
    · intro nonce
      simpa [hissued, hspent, hc] using hacc.once nonce
  · constructor
    · intro row' hrow'
      rw [hc, List.mem_append, List.mem_singleton] at hrow'
      rcases hrow' with hrow' | rfl
      · apply hacc.issued_snoc (List.mem_of_mem_filter hrow')
        simp [hspent]
      · use h, (db, r), []
        simp [hissued]
    · intro nonce
      have hold := hacc.once nonce
      have hfilter : (db.challenges.filter (r.clock 0 < ·.expiresAt)).countP (·.nonce = nonce) ≤
          db.challenges.countP (·.nonce = nonce) :=
        List.Sublist.countP_le List.filter_sublist
      simp only [List.filterMap_append, List.count_append, List.countP_append, hc,
        List.filterMap_cons, List.filterMap_nil, hissued, hspent, List.count_nil, add_zero]
      omega
  · constructor
    · intro row' hrow'
      rw [hc] at hrow'
      apply hacc.issued_snoc (List.mem_of_mem_filter hrow')
      rw [hspent]
      intro hsame
      simp only [Option.some.injEq] at hsame
      simpa [hsame] using List.of_mem_filter hrow'
    · intro nonce
      have hold := hacc.once nonce
      simp only [List.filterMap_append, List.count_append, List.countP_append, hc,
        List.filterMap_cons, List.filterMap_nil, hissued, hspent, List.countP_nil, add_zero]
      rcases eq_or_ne u.nonce nonce with rfl | hne
      · have hmatch := List.find?_some hproves.pending
        have hpending : 0 < db.challenges.countP (·.nonce = u.nonce) := by
          apply List.countP_pos_iff.mpr
          use row, List.mem_of_find?_eq_some hproves.pending
        have hgone : (db.challenges.filter (¬ ·.nonce = u.nonce)).countP
            (·.nonce = u.nonce) = 0 := by
          simp [List.countP_eq_zero]
        have hone : List.count u.nonce [u.nonce] = 1 := by
          simp
        omega
      · have hfilter : (db.challenges.filter (¬ ·.nonce = u.nonce)).countP (·.nonce = nonce) ≤
            db.challenges.countP (·.nonce = nonce) :=
          List.Sublist.countP_le List.filter_sublist
        have hnone : List.count nonce [u.nonce] = 0 := by
          simp [hne]
        omega

theorem of_run (hrun : Run store.Step Database.empty h db) :
  store.Accounted h db
  := by
  apply hrun.history_invariant store.Accounted
  · constructor
    · intro row hrow
      cases hrow
    · intro nonce
      simp [Database.empty]
  · intro h db r db' _ hacc hstep
    apply hacc.step hstep

end Accounted

/-- A request that uses a challenge and returns has proven it. -/
theorem proves_of_succeeds {r : Request} {u : Use} (huse : store.use r.call = some u)
    (hok : store.succeeds (db, r) = true) :
  ∃ row, store.Proves db u.nonce u.signature u.operation u.binding (r.clock u.reading) row
  := by
  have hspent : store.spentBy (db, r) = some u.nonce := by
    simp [spentBy, hok, huse]
  have hstep : store.Step db r (store.exec r db).2 := rfl
  rcases hstep.disposal with ⟨_, hnone, _⟩ |
    ⟨_, _, hnone, _⟩ | ⟨u', row, huse', hproves, _⟩
  · rw [hspent] at hnone
    cases hnone
  · rw [hspent] at hnone
    cases hnone
  · use row
    rw [huse, Option.some.injEq] at huse'
    rw [huse']
    exact hproves

/-- In every run of requests, no nonce is spent more often than it was issued; a request that
spends one comes after a request that issued it, with no other spending it in between, for the
operation and the binding that the request uses it for, reads its clock before the expiry of the
challenge, and bears a signature that verifies under the key stored with it; and a request that
uses a challenge and raises leaves every table as it was. -/
theorem challenges_of_run {h : List (Database × Request)}
    (hrun : Run store.Step Database.empty h db) :
  (∀ nonce, (h.filterMap store.spentBy).count nonce ≤
    (h.filterMap store.issuedBy).countP (·.nonce = nonce)) ∧
  (∀ before db₀ r after u, h = before ++ (db₀, r) :: after → store.use r.call = some u →
    store.succeeds (db₀, r) = true →
      ∃ row earlier x later, before = earlier ++ x :: later ∧ store.issuedBy x = some row ∧
        row.nonce = u.nonce ∧ u.nonce ∉ later.filterMap store.spentBy ∧
        row.operation = u.operation ∧ row.binding = u.binding ∧
        r.clock u.reading < row.expiresAt ∧
        store.verify row.publicKey u.signature
          (challengeMessage u.operation u.nonce u.binding) = true) ∧
  ∀ (db : Database) (r : Request) (u : Use) (e : Error), store.use r.call = some u →
    (store.exec r db).1 = .error e → (store.exec r db).2 = db
  := by
  refine ⟨?_, ?_, ?_⟩
  · intro nonce
    have := (Accounted.of_run hrun).once nonce
    omega
  · intro before db₀ r after u hsplit huse hok
    subst hsplit
    have hacc := Accounted.of_run hrun.before.1
    obtain ⟨row, hproves⟩ := proves_of_succeeds huse hok
    have hpending := hproves.pending
    obtain ⟨earlier, x, later, rfl, hissued, hlater⟩ :=
      hacc.issued row (List.mem_of_find?_eq_some hpending)
    have hnonce : row.nonce = u.nonce := by
      simpa using List.find?_some hpending
    rw [hnonce] at hlater
    use row, earlier, x, later
    exact ⟨rfl, hissued, hnonce, hlater, hproves.sameOperation, hproves.sameBinding, hproves.live,
      hproves.verified⟩
  · intro db r u e huse hraises
    apply exec_reverts _ db e
    · rw [Routine.Raises, ← hraises]
    · intro address hcall
      rw [hcall] at huse
      cases huse

theorem challenges_activated :
  (Run.trace sampleStore.serve Database.empty sampleRequests).filterMap sampleStore.spentBy
    = ["first", "second"] ∧
  ∀ nonce,
    ((Run.trace sampleStore.serve Database.empty sampleRequests).filterMap
        sampleStore.spentBy).count nonce
      ≤ ((Run.trace sampleStore.serve Database.empty sampleRequests).filterMap
          sampleStore.issuedBy).countP (·.nonce = nonce)
  := by
  constructor
  · decide +kernel
  · exact (challenges_of_run (run_serve sampleRequests)).1

end LicenseStore

end VynxDesk.Licensing
