import VynxDesk.Licensing.DeviceLimit

/-!
# What is never given back

`Effect` says what a request does to the licenses and devices: it restores neither a revoked license
nor a released device (`RevokedLicense`, `ReleasedDevice`), and ids and codes stay distinct (`Keyed`).
-/

namespace VynxDesk.Licensing

namespace LicenseStore

variable {store : LicenseStore} {db db' : Database}

/-- The code that a call draws. -/
def drawn : Call → Option String
  | .issue token _ _ _ => some ("vxd_" ++ token)
  | .rotateCode token _ => some ("vxd_" ++ token)
  | _ => none

/-- What a request does to licenses and devices. -/
inductive Effect (store : LicenseStore) (db : Database) (r : Request) (db' : Database) : Prop where
  /-- Neither table changes. -/
  | same (hlicenses : db'.licenses = db.licenses) (hdevices : db'.devices = db.devices)
  /-- A license is issued, for the code that is drawn. -/
  | issued (row : License) (code : String)
      (hdrawn : drawn r.call = some code) (hcode : row.codeHash = store.sha code)
      (hfresh : ∀ l ∈ db.licenses, l.id ≠ row.id ∧ l.codeHash ≠ row.codeHash)
      (hlicenses : db'.licenses = db.licenses ++ [row]) (hdevices : db'.devices = db.devices)
  /-- Licenses change, other than in their id and their code, and none is restored. -/
  | updated (f : License → License)
      (hid : ∀ l, (f l).id = l.id) (hcode : ∀ l, (f l).codeHash = l.codeHash)
      (hrevoked : ∀ l, l.revoked = true → (f l).revoked = true)
      (hlicenses : db'.licenses = db.licenses.map f) (hdevices : db'.devices = db.devices)
  /-- The code of an unrevoked license becomes the one that is drawn. -/
  | rotated (lid code : String)
      (hdrawn : drawn r.call = some code)
      (hfresh : ∀ l ∈ db.licenses, ¬ (l.id = lid ∧ l.revoked = false) →
        l.codeHash ≠ store.sha code)
      (hlicenses : db'.licenses = db.licenses.map fun l =>
        if l.id = lid ∧ l.revoked = false then { l with codeHash := store.sha code } else l)
      (hdevices : db'.devices = db.devices)
  /-- Devices are released. -/
  | released (lid did : String)
      (hlicenses : db'.licenses = db.licenses)
      (hdevices : db'.devices = db.devices.map fun d =>
        if d.id = did ∧ d.licenseId = lid then { d with revoked := true } else d)
  /-- A device is enrolled. -/
  | enrolled (row : Device)
      (hfresh : ∀ d ∈ db.devices,
        d.id ≠ row.id ∧ ¬ (d.licenseId = row.licenseId ∧ d.keyId = row.keyId))
      (hlicenses : db'.licenses = db.licenses) (hdevices : db'.devices = db.devices ++ [row])

/-- A license is issued under an id and a code that no license has. -/
theorem issue_fresh {clock : ℕ → Int} {token uuid : String} {days maxDevices : Int}
    {reply : Issued} (h : (store.issue clock token uuid days maxDevices).Yields db reply db') :
  ∃ row : License, row.codeHash = store.sha ("vxd_" ++ token) ∧
    (∀ l ∈ db.licenses, l.id ≠ row.id ∧ l.codeHash ≠ row.codeHash) ∧
    db'.licenses = db.licenses ++ [row] ∧ db'.devices = db.devices
  := by
  simp [issue, insertLicense, audit, insertOperatorEvent] at h
  obtain ⟨_, hfresh, rfl, rfl⟩ := h
  use ⟨uuid, store.sha ("vxd_" ++ token), clock 0 + days * 86400, maxDevices, false⟩, rfl, hfresh

/-- An expiry is extended for an unrevoked license. -/
theorem extend_finds {clock : ℕ → Int} {licenseId : String} {days expiry : Int}
    (h : (store.extend clock licenseId days).Yields db expiry db') :
  ∃ l ∈ db.licenses, l.id = licenseId ∧ l.revoked = false
  := by
  simp [extend, updateLicenses, audit, insertOperatorEvent] at h
  obtain ⟨_, row, hfound, _⟩ := h
  use row, List.mem_of_find?_eq_some hfound
  simpa using List.find?_some hfound

/-- What is revoked is a license. -/
theorem revoke_finds {clock : ℕ → Int} {licenseId : String}
    (h : (store.revoke clock licenseId).Yields db () db') :
  ∃ l ∈ db.licenses, l.id = licenseId
  := by
  simp [revoke, updateLicenses, audit, insertOperatorEvent] at h
  have hpos : 0 < db.licenses.countP fun l => decide (l.id = licenseId) := by omega
  simpa [List.countP_pos_iff] using hpos

/-- A code is rotated for an unrevoked license, to one that no other license has. -/
theorem rotateCode_fresh {clock : ℕ → Int} {token licenseId code : String}
    (h : (store.rotateCode clock token licenseId).Yields db code db') :
  (∃ l ∈ db.licenses, l.id = licenseId ∧ l.revoked = false) ∧
    (∀ l ∈ db.licenses, ¬ (l.id = licenseId ∧ l.revoked = false) → l.codeHash ≠ store.sha code) ∧
    code = "vxd_" ++ token
  := by
  simp [rotateCode, updateCodeHash, updateLicenses, audit, insertOperatorEvent] at h
  obtain ⟨hfresh, hone, -, rfl⟩ := h
  have hfound : ∃ l ∈ db.licenses, l.id = licenseId ∧ l.revoked = false := by
    have hpos : 0 < db.licenses.countP fun l => decide (l.id = licenseId) && !l.revoked := by
      omega
    simpa [List.countP_pos_iff] using hpos
  refine ⟨hfound, ?_, rfl⟩
  intro l hl hother
  obtain ⟨l', hl', hid, hlive⟩ := hfound
  rcases hfresh with hnone | hfresh
  · rw [hnone l' hl' hid] at hlive
    cases hlive
  · apply hfresh l hl
    by_cases hsame : l.id = licenseId
    · right
      simpa [hsame] using hother
    · left
      exact hsame

/-- An activation yields the unrevoked device of its key, or a device of a new id. -/
theorem enrol_fresh {license : License} {proof : Challenge} {did : String} {now : Int}
    {device : Device} (h : (enrol license proof did now).Yields db device db') :
  db.deviceOfKey license.id proof.keyId = some device ∧ device.revoked = false ∧ db' = db ∨
    db.deviceOfKey license.id proof.keyId = none ∧
      ∃ row : Device, row.licenseId = license.id ∧ row.keyId = proof.keyId ∧
        (∀ d ∈ db.devices, d.id ≠ row.id ∧ ¬ (d.licenseId = row.licenseId ∧ d.keyId = row.keyId)) ∧
        db' = { db with devices := db.devices ++ [row] }
  := by
  simp only [enrol, Routine.yields_read_bind] at h
  rcases hkey : db.deviceOfKey license.id proof.keyId with _ | device'
  · right
    simp [hkey, insertDevice] at h
    obtain ⟨_, hfresh, _, _, rfl⟩ := h
    refine ⟨rfl, ⟨did, license.id, proof.keyId, proof.publicKey, now, false⟩, rfl, rfl, ?_, rfl⟩
    intro d hd
    obtain ⟨hid, hother⟩ := hfresh d hd
    apply And.intro hid
    rintro ⟨howner, hkeys⟩
    exact hother howner hkeys
  · left
    simp [hkey] at h
    obtain ⟨⟨hrevoked, rfl⟩, rfl⟩ := h
    trivial

/-- What a request that returns does. -/
theorem exec_effect {r : Request} {reply : Reply} (h : (store.exec r).Yields db reply db') :
  store.Effect db r db'
  := by
  rw [exec] at h
  split at h
  all_goals
    rename_i hcall
    simp only [bind_pure_comp, Routine.yields_map] at h
    obtain ⟨_, h, _⟩ := h
  case h_1 =>
    obtain ⟨row, hcode, hfresh, hlicenses, hdevices⟩ := issue_fresh h
    apply Effect.issued row _ _ hcode hfresh hlicenses hdevices
    rw [hcall]
    rfl
  case h_2 =>
    obtain ⟨hlicenses, hdevices, _⟩ := extend_yields h
    apply Effect.updated _ _ _ _ hlicenses hdevices
    · intro l
      split_ifs <;> rfl
    · intro l
      split_ifs <;> rfl
    · intro l hl
      split_ifs <;> exact hl
  case h_3 =>
    obtain ⟨hlicenses, hdevices, _⟩ := revoke_yields h
    apply Effect.updated _ _ _ _ hlicenses hdevices
    · intro l
      split_ifs <;> rfl
    · intro l
      split_ifs <;> rfl
    · intro l hl
      split_ifs
      · rfl
      · exact hl
  case h_4 =>
    obtain ⟨hlicenses, hdevices, _⟩ := rotateCode_yields h
    obtain ⟨_, hfresh, rfl⟩ := rotateCode_fresh h
    apply Effect.rotated _ _ _ hfresh hlicenses hdevices
    rw [hcall]
    rfl
  case h_5 =>
    obtain ⟨hlicenses, hdevices, _⟩ := releaseDevice_yields h
    apply Effect.released _ _ hlicenses hdevices
  case h_6 =>
    rw [auditEvents_yields h]
    exact Effect.same rfl rfl
  case h_7 =>
    have hagree := rateLimit_within.of_yields h
    apply Effect.same hagree.licenses hagree.devices
  case h_8 =>
    obtain ⟨_, _, hlicenses, hdevices, _⟩ := challenge_yields h
    apply Effect.same hlicenses hdevices
  case h_9 =>
    obtain ⟨_, _, license, _, _, _, _, henrol⟩ := activate_yields h
    rcases enrol_fresh henrol with ⟨_, _, rfl⟩ | ⟨_, row, _, _, hfresh, rfl⟩
    · exact Effect.same rfl rfl
    · exact Effect.enrolled row hfresh rfl rfl
  case h_10 =>
    obtain ⟨_, _, rfl⟩ := refresh_yields h
    exact Effect.same rfl rfl
  case h_11 =>
    obtain ⟨_, _, rfl⟩ := devices_yields h
    exact Effect.same rfl rfl

/-- What a request does. -/
theorem Step.effect {r : Request} (h : store.Step db r db') :
  store.Effect db r db'
  := by
  subst h
  rcases Routine.yields_or_raises (store.exec r) db with ⟨reply, db', h⟩ | ⟨e, db', h⟩
  · rw [h]
    apply exec_effect h
  · rw [h]
    apply Effect.same (exec_raises h).licenses (exec_raises h).devices

/-! ### What is kept -/

/-- The codes of licenses and the ids of devices are distinct. -/
structure Keyed (db : Database) : Prop where
  codes : ∀ l ∈ db.licenses, ∀ l' ∈ db.licenses, l.codeHash = l'.codeHash → l.id = l'.id
  devices : (db.devices.map (·.id)).Nodup

theorem Keyed.effect {r : Request} (h : Keyed db) (heffect : store.Effect db r db') :
  Keyed db'
  := by
  rcases heffect with ⟨hl, hd⟩ | ⟨row, code, _, _, hfresh, hl, hd⟩ | ⟨f, hid, hcode, _, hl, hd⟩ |
    ⟨lid, code, _, hfresh, hl, hd⟩ | ⟨lid, did, hl, hd⟩ | ⟨row, hfresh, hl, hd⟩
  · constructor
    · rw [hl]
      exact h.codes
    · rw [hd]
      exact h.devices
  · constructor
    · rw [hl]
      simp only [List.forall_mem_append, List.forall_mem_singleton]
      refine ⟨fun l hmem => ⟨h.codes l hmem, ?_⟩, ?_, fun _ => trivial⟩
      · intro hsame
        exact absurd hsame (hfresh l hmem).2
      · intro l hmem hsame
        exact absurd hsame.symm (hfresh l hmem).2
    · rw [hd]
      exact h.devices
  · constructor
    · rw [hl]
      simp only [List.forall_mem_map, hid, hcode]
      exact h.codes
    · rw [hd]
      exact h.devices
  · constructor
    · rw [hl]
      simp only [List.forall_mem_map]
      intro l hmem l' hmem'
      have hold := h.codes l hmem l' hmem'
      have hl := hfresh l hmem
      have hl' := hfresh l' hmem'
      split_ifs with hrow hrow' hrow'
      · intro _
        rw [hrow.1, hrow'.1]
      · intro hsame
        exact absurd hsame.symm (hl' hrow')
      · intro hsame
        exact absurd hsame (hl hrow)
      · exact hold
    · rw [hd]
      exact h.devices
  · constructor
    · rw [hl]
      exact h.codes
    · rw [hd, List.map_map]
      have hsame : (fun d : Device => d.id) ∘ (fun d =>
          if d.id = did ∧ d.licenseId = lid then { d with revoked := true } else d) = (·.id) := by
        funext d
        dsimp only [Function.comp]
        split_ifs <;> rfl
      rw [hsame]
      exact h.devices
  · constructor
    · rw [hl]
      exact h.codes
    · rw [hd, List.map_append, List.nodup_append]
      refine ⟨h.devices, List.nodup_singleton _, ?_⟩
      simpa using fun d hmem => (hfresh d hmem).1

theorem Keyed.of_run {h : List (Database × Request)} (hrun : Run store.Step Database.empty h db) :
  Keyed db
  := by
  apply hrun.invariant Keyed
  · constructor
    · intro l hl
      cases hl
    · apply List.nodup_nil
  · intro db r db' hdb hstep
    apply hdb.effect hstep.effect

/-- The license is revoked. -/
structure RevokedLicense (lid : String) (db : Database) : Prop where
  mem : ∃ l ∈ db.licenses, l.id = lid
  all : ∀ l ∈ db.licenses, l.id = lid → l.revoked = true

theorem RevokedLicense.effect {lid : String} {r : Request} (h : RevokedLicense lid db)
    (heffect : store.Effect db r db') :
  RevokedLicense lid db'
  := by
  obtain ⟨l₀, hmem₀, hid₀⟩ := h.mem
  rcases heffect with ⟨hl, -⟩ | ⟨row, code, _, _, hfresh, hl, -⟩ | ⟨f, hid, _, hrevoked, hl, -⟩ |
    ⟨lid', code, _, _, hl, -⟩ | ⟨_, _, hl, -⟩ | ⟨_, _, hl, -⟩
  · constructor
    · rw [hl]
      exact h.mem
    · rw [hl]
      exact h.all
  · constructor
    · use l₀
      rw [hl]
      exact ⟨List.mem_append_left _ hmem₀, hid₀⟩
    · rw [hl]
      simp only [List.forall_mem_append, List.forall_mem_singleton]
      apply And.intro h.all
      intro hsame
      exact absurd (hid₀.trans hsame.symm) (hfresh l₀ hmem₀).1
  · constructor
    · use f l₀
      rw [hl]
      exact ⟨List.mem_map_of_mem hmem₀, (hid l₀).trans hid₀⟩
    · rw [hl]
      simp only [List.forall_mem_map, hid]
      intro l hmem hsame
      apply hrevoked
      apply h.all l hmem hsame
  · constructor
    · rw [hl]
      refine ⟨_, List.mem_map_of_mem hmem₀, ?_⟩
      split_ifs <;> exact hid₀
    · rw [hl]
      simp only [List.forall_mem_map]
      intro l hmem
      have hold := h.all l hmem
      split_ifs <;> exact hold
  · constructor
    · rw [hl]
      exact h.mem
    · rw [hl]
      exact h.all
  · constructor
    · rw [hl]
      exact h.mem
    · rw [hl]
      exact h.all

/-- The device is released. -/
structure ReleasedDevice (lid did key : String) (db : Database) : Prop where
  mem : ∃ d ∈ db.devices, d.id = did ∧ d.licenseId = lid ∧ d.keyId = key
  all : ∀ d ∈ db.devices, d.id = did → d.revoked = true

theorem ReleasedDevice.effect {lid did key : String} {r : Request}
    (h : ReleasedDevice lid did key db) (heffect : store.Effect db r db') :
  ReleasedDevice lid did key db'
  := by
  have hsame : db'.devices = db.devices → ReleasedDevice lid did key db' := by
    intro hd
    constructor
    · rw [hd]
      exact h.mem
    · rw [hd]
      exact h.all
  obtain ⟨d₀, hmem₀, hid₀, howner₀, hkey₀⟩ := h.mem
  rcases heffect with ⟨-, hd⟩ | ⟨_, _, _, _, _, -, hd⟩ | ⟨_, _, _, _, -, hd⟩ | ⟨_, _, _, _, -, hd⟩ |
    ⟨lid', did', -, hd⟩ | ⟨row, hfresh, -, hd⟩
  · apply hsame hd
  · apply hsame hd
  · apply hsame hd
  · apply hsame hd
  · constructor
    · rw [hd]
      refine ⟨_, List.mem_map_of_mem hmem₀, ?_⟩
      split_ifs <;> exact ⟨hid₀, howner₀, hkey₀⟩
    · rw [hd]
      simp only [List.forall_mem_map]
      intro d hmem
      have hold := h.all d hmem
      split_ifs
      · intro _
        rfl
      · exact hold
  · constructor
    · use d₀
      rw [hd]
      exact ⟨List.mem_append_left _ hmem₀, hid₀, howner₀, hkey₀⟩
    · rw [hd]
      simp only [List.forall_mem_append, List.forall_mem_singleton]
      apply And.intro h.all
      intro hid
      exact absurd (hid₀.trans hid.symm) (hfresh d₀ hmem₀).1

end LicenseStore

end VynxDesk.Licensing
