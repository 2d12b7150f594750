import VynxDesk.Licensing.Store

/-!
# What the calls of the license store do

For each call, what it has checked when it returns and how it leaves the tables of licenses,
devices and challenges.  A call that raises leaves every table as it was, `rate_limit` excepted,
which counts the requests it denies (`LicenseStore.exec_reverts`).
-/

namespace VynxDesk.Licensing

/-- `db'` has the licenses, devices and challenges of `db`. -/
structure Agree (db db' : Database) : Prop where
  licenses : db'.licenses = db.licenses
  devices : db'.devices = db.devices
  challenges : db'.challenges = db.challenges

theorem Agree.refl (db : Database) : Agree db db
  := ⟨rfl, rfl, rfl⟩

theorem Agree.trans (db db' db'' : Database) (h : Agree db db') (h' : Agree db' db'') :
  Agree db db''
  := ⟨h'.licenses.trans h.licenses, h'.devices.trans h.devices, h'.challenges.trans h.challenges⟩

/-- The database without the challenges of a nonce. -/
def Database.spend (db : Database) (nonce : String) : Database :=
  { db with challenges := db.challenges.filter (¬ ·.nonce = nonce) }

namespace LicenseStore

variable {store : LicenseStore} {db db' : Database} {clock : ℕ → Int}
  {nonce token licenseId signature : String}

/-- A signature proves possession of the key of a pending challenge: `row` is pending for the
nonce, it has not expired, was issued for this operation and binding, and the signature verifies
under the key stored with it. -/
structure Proves (store : LicenseStore) (db : Database) (nonce signature operation binding : String)
    (now : Int) (row : Challenge) : Prop where
  pending : db.challengeOf nonce = some row
  live : now < row.expiresAt
  sameOperation : row.operation = operation
  sameBinding : row.binding = binding
  verified :
    store.verify row.publicKey signature (challengeMessage operation nonce binding) = true

/-- `_consume` returns the challenge that its signature proves, and spends the nonce. -/
theorem consume_yields {operation binding : String} {now : Int} {row : Challenge} :
  (store.consume nonce signature operation binding now).Yields db row db' ↔
    store.Proves db nonce signature operation binding now row ∧ db' = db.spend nonce
  := by
  simp [consume, deleteChallenges]
  constructor
  · rintro ⟨hrow, ⟨hlive, hoperation, hbinding⟩, hsignature, rfl⟩
    apply And.intro ⟨hrow, hlive, hoperation, hbinding, hsignature⟩
    simp [Database.spend]
  · rintro ⟨⟨hrow, hlive, hoperation, hbinding, hsignature⟩, rfl⟩
    use hrow, ⟨hlive, hoperation, hbinding⟩, hsignature
    simp [Database.spend]

/-- `_license` returns an unrevoked, unexpired license of the given id. -/
theorem license_yields {lid : String} {now : Int} {row : License} :
  (license lid now).Yields db row db' ↔
    db.licenseOf lid = some row ∧ (row.revoked = false ∧ now < row.expiresAt) ∧ db' = db
  := by
  simp [license]

/-- `issue` adds one license, of a new id and for one device at least. -/
theorem issue_yields {uuid : String} {days maxDevices : Int} {reply : Issued}
    (h : (store.issue clock token uuid days maxDevices).Yields db reply db') :
  ∃ row : License, 1 ≤ row.maxDevices ∧ (∀ l ∈ db.licenses, l.id ≠ row.id) ∧
    db'.licenses = db.licenses ++ [row] ∧ db'.devices = db.devices ∧
    db'.challenges = db.challenges
  := by
  simp [issue, insertLicense, audit, insertOperatorEvent] at h
  obtain ⟨⟨_, hmax, _⟩, hfresh, rfl, rfl⟩ := h
  use ⟨uuid, store.sha ("vxd_" ++ token), clock 0 + days * 86400, maxDevices, false⟩, hmax
  simp only [and_self, and_true]
  intro l hl
  apply (hfresh l hl).1

/-- `extend` changes the expiry of licenses. -/
theorem extend_yields {days expiry : Int}
    (h : (store.extend clock licenseId days).Yields db expiry db') :
  db'.licenses =
      db.licenses.map (fun l => if l.id = licenseId then { l with expiresAt := expiry } else l) ∧
    db'.devices = db.devices ∧ db'.challenges = db.challenges
  := by
  simp [extend, updateLicenses, audit, insertOperatorEvent] at h
  obtain ⟨_, row, _, rfl, rfl⟩ := h
  simp

/-- `revoke` marks licenses as revoked. -/
theorem revoke_yields (h : (store.revoke clock licenseId).Yields db () db') :
  db'.licenses =
      db.licenses.map (fun l => if l.id = licenseId then { l with revoked := true } else l) ∧
    db'.devices = db.devices ∧ db'.challenges = db.challenges
  := by
  simp [revoke, updateLicenses, audit, insertOperatorEvent] at h
  obtain ⟨_, rfl⟩ := h
  simp

/-- `rotate_code` changes the code hash of licenses. -/
theorem rotateCode_yields {code : String}
    (h : (store.rotateCode clock token licenseId).Yields db code db') :
  db'.licenses = db.licenses.map (fun l =>
      if l.id = licenseId ∧ l.revoked = false then { l with codeHash := store.sha code } else l) ∧
    db'.devices = db.devices ∧ db'.challenges = db.challenges
  := by
  simp [rotateCode, updateCodeHash, updateLicenses, audit, insertOperatorEvent] at h
  obtain ⟨_, _, rfl, rfl⟩ := h
  simp

/-- `release_device` marks devices as revoked. -/
theorem releaseDevice_yields {deviceId : String}
    (h : (store.releaseDevice clock licenseId deviceId).Yields db () db') :
  db'.licenses = db.licenses ∧
    db'.devices = db.devices.map (fun d =>
      if d.id = deviceId ∧ d.licenseId = licenseId then { d with revoked := true } else d) ∧
    db'.challenges = db.challenges
  := by
  simp [releaseDevice, updateDevices, audit, insertOperatorEvent] at h
  obtain ⟨_, rfl⟩ := h
  simp

/-- `audit_events` only reads. -/
theorem auditEvents_yields {limit : Int} {events : List OperatorEvent}
    (h : (auditEvents limit).Yields db events db') :
  db' = db
  := by
  simp [auditEvents] at h
  apply h.2.2

/-- `rate_limit` writes to its own table only, whether it denies or not. -/
theorem rateLimit_within {address : String} :
  (store.rateLimit clock address).Within Agree
  := by
  have hover (bucket : Int) (key : String) (limit : Nat) :
      (overLimit bucket key limit).Within Agree := by
    apply Routine.Within.bind Agree.trans
    · apply Routine.Within.write
      intro db
      split_ifs
      · exact ⟨rfl, rfl, rfl⟩
      · exact ⟨rfl, rfl, rfl⟩
    · intro _
      apply Routine.Within.bind Agree.trans (Routine.Within.read Agree.refl)
      intro _
      apply Routine.Within.pure Agree.refl
  apply Routine.Within.bind Agree.trans
  · apply Routine.Within.atomic Agree.refl
    apply Routine.Within.bind Agree.trans
    · apply Routine.Within.write
      intro db
      exact ⟨rfl, rfl, rfl⟩
    · intro _
      apply Routine.Within.bind Agree.trans (hover _ _ _)
      intro _
      apply Routine.Within.bind Agree.trans (hover _ _ _)
      intro _
      apply Routine.Within.pure Agree.refl
  · intro _
    apply Routine.Within.require Agree.refl

/-- `challenge` deletes what has expired and adds one row, for the key it is given. -/
theorem challenge_yields {publicKey operation binding reply : String}
    (h : (store.challenge clock nonce publicKey operation binding).Yields db reply db') :
  ∃ der, store.loadDeviceKey publicKey = some der ∧
    db'.licenses = db.licenses ∧ db'.devices = db.devices ∧
    db'.challenges = db.challenges.filter (clock 0 < ·.expiresAt) ++
      [⟨nonce, der, store.sha256 der, operation, binding, clock 0 + challengeTtl⟩]
  := by
  simp [challenge, deleteChallenges, insertChallenge] at h
  obtain ⟨der, hder, _, _, _, rfl, rfl⟩ := h
  use der, hder
  simp only [← not_le, decide_not, and_self]

/-- An activation yields the unrevoked device of its key, or a new one when the license has a
slot left. -/
theorem enrol_yields {license : License} {proof : Challenge} {did : String} {now : Int}
    {device : Device} (h : (enrol license proof did now).Yields db device db') :
  db.deviceOfKey license.id proof.keyId = some device ∧ device.revoked = false ∧ db' = db ∨
    db.deviceOfKey license.id proof.keyId = none ∧
      (db.activeDevices license.id).length < license.maxDevices ∧
      db' = { db with
        devices :=
          db.devices ++ [⟨did, license.id, proof.keyId, proof.publicKey, now, false⟩] }
  := by
  simp only [enrol, Routine.yields_read_bind] at h
  rcases hkey : db.deviceOfKey license.id proof.keyId with _ | device'
  · right
    simp [hkey, insertDevice] at h
    obtain ⟨hslot, _, _, _, rfl⟩ := h
    trivial
  · left
    simp [hkey] at h
    obtain ⟨⟨hrevoked, rfl⟩, rfl⟩ := h
    trivial

/-- `activate` spends a challenge for the hash of its code, and enrols the challenge's key with the
license of that code. -/
theorem activate_yields {did code : String} {reply : Minted}
    (h : (store.activate clock did code nonce signature).Yields db reply db') :
  ∃ proof named license device,
    store.Proves db nonce signature "activate" (store.sha code) (clock 0) proof ∧
    db.licenseOfCode (store.sha code) = some named ∧
    db.licenseOf named.id = some license ∧
    (enrol license proof did (clock 2)).Yields (db.spend nonce) device db'
  := by
  simp [activate, Routine.yields_bind, consume_yields, license_yields] at h
  obtain ⟨proof, hproof, named, hnamed, license, ⟨hlicense, _⟩, device, hdevice, rfl⟩ := h
  use proof, named, license, device, hproof, hnamed, hlicense

/-- `refresh` spends a challenge for the hash of its activation id. -/
theorem refresh_yields {activationId : String} {reply : Minted}
    (h : (store.refresh clock activationId nonce signature).Yields db reply db') :
  ∃ proof,
    store.Proves db nonce signature "refresh" (store.sha activationId) (clock 0) proof ∧
    db' = db.spend nonce
  := by
  simp [refresh, Routine.yields_bind, consume_yields, license_yields] at h
  obtain ⟨proof, hproof, _, _, _, license, ⟨_, _, hdb⟩, _⟩ := h
  use proof

/-- `_verify_token` leaves the database alone. -/
theorem verifyToken_within {now : Int} :
  (store.verifyToken token now).Within Eq
  := by
  have htrans (db db' db'' : Database) (h : db = db') (h' : db' = db'') : db = db'' := h.trans h'
  rw [verifyToken]
  split
  · apply Routine.Within.bind htrans (Routine.Within.require Eq.refl)
    intro _
    apply Routine.Within.bind htrans (Routine.Within.require Eq.refl)
    intro _
    apply Routine.Within.bind htrans (Routine.Within.expect Eq.refl)
    intro payload
    apply Routine.Within.bind htrans (Routine.Within.require Eq.refl)
    intro _
    apply Routine.Within.bind htrans (Routine.Within.require Eq.refl)
    intro _
    apply Routine.Within.pure Eq.refl
  · apply Routine.Within.raise Eq.refl

/-- `devices` spends a challenge for the hash of its token. -/
theorem devices_yields {reply : Inventory}
    (h : (store.devices clock token nonce signature).Yields db reply db') :
  ∃ proof,
    store.Proves db nonce signature "devices" (store.sha token) (clock 2) proof ∧
    db' = db.spend nonce
  := by
  simp [devices, Routine.yields_bind, consume_yields, license_yields] at h
  obtain ⟨payload, db₁, htoken, _, proof, hproof, _, _, _, _, _, _, hdb, _⟩ := h
  have hsame : db = db₁ := verifyToken_within.of_yields htoken
  rw [← hsame] at hproof hdb
  use proof

/-- The calls that raise leave the database as it was, `rate_limit` excepted. -/
theorem exec_reverts {r : Request} (hr : ∀ address, r.call ≠ .rateLimit address) :
  (store.exec r).Reverts
  := by
  have hread (p : Bool) (e : Error) :
      (Routine.require p e : Statements Unit).Within Eq :=
    Routine.Within.require Eq.refl
  rw [exec]
  split
  case h_1 =>
    apply Routine.Reverts.map
    apply Routine.Reverts.bind (hread _ _)
    intro _
    apply Routine.Reverts.atomic
  case h_2 =>
    apply Routine.Reverts.map
    apply Routine.Reverts.bind (hread _ _)
    intro _
    apply Routine.Reverts.atomic
  case h_6 =>
    apply Routine.Reverts.map
    apply Routine.Reverts.bind (hread _ _)
    intro _
    apply Routine.Reverts.of_within
    apply Routine.Within.read Eq.refl
  case h_7 address hcall => exact absurd hcall (hr address)
  case h_8 =>
    apply Routine.Reverts.map
    apply Routine.Reverts.bind
    · apply Routine.Within.expect Eq.refl
    · intro _
      apply Routine.Reverts.atomic
  case h_11 =>
    apply Routine.Reverts.map
    apply Routine.Reverts.bind verifyToken_within
    intro _
    apply Routine.Reverts.atomic
  all_goals
    apply Routine.Reverts.map
    apply Routine.Reverts.atomic

end LicenseStore

end VynxDesk.Licensing
