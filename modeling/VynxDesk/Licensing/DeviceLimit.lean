import VynxDesk.Licensing.Calls
import VynxDesk.Lib.Run

/-!
# The device limit

What a request can do to the licenses and devices is one of five things (`Change`).  The limit
survives each of them (`Limited.change`), and so every run of requests.
-/

namespace VynxDesk.Licensing

/-- How a request changes licenses and devices. -/
inductive Change (db db' : Database) : Prop where
  /-- Neither table changes. -/
  | same
      (hlicenses : db'.licenses = db.licenses) (hdevices : db'.devices = db.devices)
  /-- A license is issued. -/
  | issued (row : License)
      (hfresh : ∀ l ∈ db.licenses, l.id ≠ row.id) (hpos : 1 ≤ row.maxDevices)
      (hlicenses : db'.licenses = db.licenses ++ [row]) (hdevices : db'.devices = db.devices)
  /-- Licenses change other than in their id and their limit. -/
  | updated (f : License → License)
      (hid : ∀ l, (f l).id = l.id) (hmax : ∀ l, (f l).maxDevices = l.maxDevices)
      (hlicenses : db'.licenses = db.licenses.map f) (hdevices : db'.devices = db.devices)
  /-- Devices are released. -/
  | released (f : Device → Device)
      (howner : ∀ d, (f d).licenseId = d.licenseId) (hkey : ∀ d, (f d).keyId = d.keyId)
      (hrevoked : ∀ d, d.revoked → (f d).revoked)
      (hlicenses : db'.licenses = db.licenses) (hdevices : db'.devices = db.devices.map f)
  /-- A device is admitted to a license with a slot left. -/
  | admitted (row : Device) (license : License)
      (hmem : license ∈ db.licenses) (howner : row.licenseId = license.id)
      (hslot : (db.activeDevices license.id).length < license.maxDevices)
      (hfresh : ∀ d ∈ db.devices, ¬ (d.licenseId = row.licenseId ∧ d.keyId = row.keyId))
      (hlicenses : db'.licenses = db.licenses) (hdevices : db'.devices = db.devices ++ [row])

namespace LicenseStore

variable {store : LicenseStore} {db db' : Database}

/-- What a successful activation changes. -/
theorem activate_change {clock : ℕ → Int} {did code nonce signature : String} {reply : Minted}
    (h : (store.activate clock did code nonce signature).Yields db reply db') :
  Change db db'
  := by
  obtain ⟨proof, named, license, device, _, _, hlicense, henrol⟩ := activate_yields h
  rcases enrol_yields henrol with ⟨_, _, rfl⟩ | ⟨hnew, hslot, rfl⟩
  · exact Change.same rfl rfl
  · refine Change.admitted _ license (List.mem_of_find?_eq_some hlicense) rfl hslot ?_ rfl rfl
    intro d hd
    simpa using List.find?_eq_none.mp hnew d hd

/-- What a request that returns changes. -/
theorem exec_change {r : Request} {reply : Reply} (h : (store.exec r).Yields db reply db') :
  Change db db'
  := by
  rw [exec] at h
  split at h
  all_goals simp only [bind_pure_comp, Routine.yields_map] at h
  case h_1 =>
    obtain ⟨_, h, _⟩ := h
    obtain ⟨row, hpos, hfresh, hlicenses, hdevices, _⟩ := issue_yields h
    apply Change.issued row hfresh hpos hlicenses hdevices
  case h_2 =>
    obtain ⟨_, h, _⟩ := h
    obtain ⟨hlicenses, hdevices, _⟩ := extend_yields h
    apply Change.updated _ _ _ hlicenses hdevices
    · intro l
      split_ifs <;> rfl
    · intro l
      split_ifs <;> rfl
  case h_3 =>
    obtain ⟨_, h, _⟩ := h
    obtain ⟨hlicenses, hdevices, _⟩ := revoke_yields h
    apply Change.updated _ _ _ hlicenses hdevices
    · intro l
      split_ifs <;> rfl
    · intro l
      split_ifs <;> rfl
  case h_4 =>
    obtain ⟨_, h, _⟩ := h
    obtain ⟨hlicenses, hdevices, _⟩ := rotateCode_yields h
    apply Change.updated _ _ _ hlicenses hdevices
    · intro l
      split_ifs <;> rfl
    · intro l
      split_ifs <;> rfl
  case h_5 =>
    obtain ⟨_, h, _⟩ := h
    obtain ⟨hlicenses, hdevices, _⟩ := releaseDevice_yields h
    apply Change.released _ _ _ _ hlicenses hdevices
    · intro d
      split_ifs <;> rfl
    · intro d
      split_ifs <;> rfl
    · intro d hd
      split_ifs
      · rfl
      · exact hd
  case h_6 =>
    obtain ⟨_, h, _⟩ := h
    rw [auditEvents_yields h]
    exact Change.same rfl rfl
  case h_7 =>
    obtain ⟨_, h, _⟩ := h
    have := rateLimit_within.of_yields h
    apply Change.same this.licenses this.devices
  case h_8 =>
    obtain ⟨_, h, _⟩ := h
    obtain ⟨_, _, hlicenses, hdevices, _⟩ := challenge_yields h
    apply Change.same hlicenses hdevices
  case h_9 =>
    obtain ⟨_, h, _⟩ := h
    apply activate_change h
  case h_10 =>
    obtain ⟨_, h, _⟩ := h
    obtain ⟨_, _, rfl⟩ := refresh_yields h
    exact Change.same rfl rfl
  case h_11 =>
    obtain ⟨_, h, _⟩ := h
    obtain ⟨_, _, rfl⟩ := devices_yields h
    exact Change.same rfl rfl

/-- What a request that raises leaves of licenses, devices and challenges: all of them. -/
theorem exec_raises {r : Request} {e : Error} (h : (store.exec r).Raises db e db') :
  Agree db db'
  := by
  by_cases hr : ∃ address, r.call = .rateLimit address
  · obtain ⟨address, hr⟩ := hr
    simp only [exec, hr, bind_pure_comp, Routine.raises_map] at h
    apply rateLimit_within.of_raises h
  · rw [exec_reverts (fun address hcall => hr ⟨address, hcall⟩) _ _ _ h]
    apply Agree.refl

/-- What a request changes. -/
theorem Step.change {r : Request} (h : store.Step db r db') :
  Change db db'
  := by
  subst h
  rcases Routine.yields_or_raises (store.exec r) db with ⟨reply, db', h⟩ | ⟨e, db', h⟩
  · rw [h]
    apply exec_change h
  · rw [h]
    apply Change.same (exec_raises h).licenses (exec_raises h).devices

end LicenseStore

/-- Licenses have distinct ids, devices belong to licenses, no license has more unrevoked devices
than its limit, and no two devices of a license have the same key. -/
structure Limited (db : Database) : Prop where
  ids : (db.licenses.map (·.id)).Nodup
  owned : ∀ d ∈ db.devices, ∃ l ∈ db.licenses, l.id = d.licenseId
  limit : ∀ l ∈ db.licenses, (db.activeDevices l.id).length ≤ l.maxDevices
  keys : (db.devices.map fun d => (d.licenseId, d.keyId)).Nodup

namespace Limited

variable {db db' : Database}

theorem empty : Limited Database.empty
  := ⟨List.nodup_nil, nofun, nofun, List.nodup_nil⟩

/-- A license that is issued has a limit, and no devices yet. -/
theorem issued (h : Limited db) {row : License} (hfresh : ∀ l ∈ db.licenses, l.id ≠ row.id)
    (hpos : 1 ≤ row.maxDevices) (hl : db'.licenses = db.licenses ++ [row])
    (hd : db'.devices = db.devices) :
  Limited db'
  := by
  constructor
  · rw [hl, List.map_append, List.nodup_append]
    refine ⟨h.ids, List.nodup_singleton _, ?_⟩
    simpa using hfresh
  · intro d hdev
    rw [hd] at hdev
    obtain ⟨l, hmem, hown⟩ := h.owned d hdev
    use l
    simp [hl, hmem, hown]
  · intro l hmem
    simp only [Database.activeDevices, hd]
    rw [hl, List.mem_append, List.mem_singleton] at hmem
    rcases hmem with hmem | rfl
    · apply h.limit l hmem
    · have hnone : db.activeDevices l.id = [] := by
        apply List.filter_eq_nil_iff.mpr
        intro d hdev
        obtain ⟨l', hmem', hown⟩ := h.owned d hdev
        have := hfresh l' hmem'
        grind
      rw [Database.activeDevices] at hnone
      rw [hnone]
      simp only [List.length_nil]
      omega
  · rw [hd]
    exact h.keys

theorem updated (h : Limited db) {f : License → License} (hid : ∀ l, (f l).id = l.id)
    (hmax : ∀ l, (f l).maxDevices = l.maxDevices) (hl : db'.licenses = db.licenses.map f)
    (hd : db'.devices = db.devices) :
  Limited db'
  := by
  constructor
  · have hids : (db.licenses.map f).map (·.id) = db.licenses.map (·.id) := by
      simp [Function.comp_def, hid]
    rw [hl, hids]
    exact h.ids
  · intro d hdev
    rw [hd] at hdev
    obtain ⟨l, hmem, hown⟩ := h.owned d hdev
    use f l
    rw [hl]
    exact ⟨List.mem_map_of_mem hmem, (hid l).trans hown⟩
  · intro l hmem
    rw [hl] at hmem
    obtain ⟨l', hmem', rfl⟩ := List.mem_map.mp hmem
    simp only [Database.activeDevices, hd, hid, hmax]
    apply h.limit l' hmem'
  · rw [hd]
    exact h.keys

/-- Releasing devices leaves no license with more of them. -/
theorem released (h : Limited db) {f : Device → Device}
    (howner : ∀ d, (f d).licenseId = d.licenseId) (hkey : ∀ d, (f d).keyId = d.keyId)
    (hrevoked : ∀ d, d.revoked → (f d).revoked) (hl : db'.licenses = db.licenses)
    (hd : db'.devices = db.devices.map f) :
  Limited db'
  := by
  constructor
  · rw [hl]
    exact h.ids
  · intro d hdev
    rw [hd] at hdev
    obtain ⟨d', hdev', rfl⟩ := List.mem_map.mp hdev
    rw [hl, howner]
    apply h.owned d' hdev'
  · intro l hmem
    rw [hl] at hmem
    have hle : (db'.activeDevices l.id).length ≤ (db.activeDevices l.id).length := by
      simp only [Database.activeDevices, hd, ← List.countP_eq_length_filter, List.countP_map]
      apply List.countP_mono_left
      intro d _ hactive
      have := hrevoked d
      have := howner d
      grind
    have := h.limit l hmem
    omega
  · rw [hd, List.map_map]
    simpa only [Function.comp_def, howner, hkey] using h.keys

/-- A device that is admitted takes a slot of its own license only. -/
theorem admitted (h : Limited db) {row : Device} {license : License}
    (hmem : license ∈ db.licenses) (howner : row.licenseId = license.id)
    (hslot : (db.activeDevices license.id).length < license.maxDevices)
    (hfresh : ∀ d ∈ db.devices, ¬ (d.licenseId = row.licenseId ∧ d.keyId = row.keyId))
    (hl : db'.licenses = db.licenses) (hd : db'.devices = db.devices ++ [row]) :
  Limited db'
  := by
  constructor
  · rw [hl]
    exact h.ids
  · intro d hdev
    rw [hd, List.mem_append, List.mem_singleton] at hdev
    rw [hl]
    rcases hdev with hdev | rfl
    · apply h.owned d hdev
    · exact ⟨license, hmem, howner.symm⟩
  · intro l hmem'
    rw [hl] at hmem'
    have hle : (db'.activeDevices l.id).length ≤
        (db.activeDevices l.id).length + if l.id = license.id then 1 else 0 := by
      simp only [Database.activeDevices, hd, List.filter_append, List.length_append]
      split_ifs with hid
      · simp only [add_le_add_iff_left]
        apply List.length_filter_le
      · have : row.licenseId ≠ l.id := by
          rw [howner]
          exact Ne.symm hid
        simp [this]
    split_ifs at hle with hid
    · have hsame : l = license := List.inj_on_of_nodup_map h.ids hmem' hmem hid
      subst hsame
      omega
    · have := h.limit l hmem'
      omega
  · rw [hd, List.map_append, List.nodup_append]
    refine ⟨h.keys, List.nodup_singleton _, ?_⟩
    simp only [List.map_cons, List.map_nil, List.mem_singleton, forall_eq, List.mem_map,
      forall_exists_index, and_imp]
    rintro _ d hdev rfl hsame
    rw [Prod.mk.injEq] at hsame
    apply hfresh d hdev hsame

theorem change (h : Limited db) (hc : Change db db') :
  Limited db'
  := by
  cases hc with
  | same hl hd =>
      constructor
      · rw [hl]
        exact h.ids
      · rw [hl, hd]
        exact h.owned
      · simp only [hl, Database.activeDevices, hd]
        exact h.limit
      · rw [hd]
        exact h.keys
  | issued _ hfresh hpos hl hd => apply h.issued hfresh hpos hl hd
  | updated _ hid hmax hl hd => apply h.updated hid hmax hl hd
  | released _ howner hkey hrevoked hl hd => apply h.released howner hkey hrevoked hl hd
  | admitted _ _ hmem howner hslot hfresh hl hd =>
      apply h.admitted hmem howner hslot hfresh hl hd

/-- Every run of requests from the empty database stays within the limits. -/
theorem of_run {store : LicenseStore} {h : List (Database × LicenseStore.Request)}
    (hrun : Run store.Step Database.empty h db) :
  Limited db
  := by
  apply hrun.invariant Limited empty
  intro db r db' hdb hstep
  apply hdb.change hstep.change

end Limited

namespace LicenseStore

variable {store : LicenseStore} {db db' : Database}

/-- A device is found by its license and key. -/
theorem deviceOfKey_of_mem (hdb : Limited db) {device : Device} (hmem : device ∈ db.devices) :
  db.deviceOfKey device.licenseId device.keyId = some device
  := by
  rcases hfound : db.deviceOfKey device.licenseId device.keyId with _ | device'
  · have := List.find?_eq_none.mp hfound device hmem
    simp at this
  · have hsame := List.find?_some hfound
    simp only [decide_eq_true_eq] at hsame
    rw [List.inj_on_of_nodup_map hdb.keys (List.mem_of_find?_eq_some hfound) hmem]
    simpa using hsame

/-- A license found by its code is found by its id. -/
theorem licenseOf_of_code (hdb : Limited db) {codeHash : String} {license : License}
    (h : db.licenseOfCode codeHash = some license) :
  db.licenseOf license.id = some license
  := by
  have hmem := List.mem_of_find?_eq_some h
  rcases hfound : db.licenseOf license.id with _ | license'
  · have := List.find?_eq_none.mp hfound license hmem
    simp at this
  · have hsame := List.find?_some hfound
    simp only [decide_eq_true_eq] at hsame
    rw [List.inj_on_of_nodup_map hdb.ids (List.mem_of_find?_eq_some hfound) hmem hsame]

/-- What `_consume` raises. -/
theorem consume_raises {nonce signature operation binding : String} {now : Int} {e : Error}
    (h : (store.consume nonce signature operation binding now).Raises db e db') :
  e = .authorizationDenied
  := by
  simp [consume, deleteChallenges, Routine.raises_bind] at h
  rcases h with ⟨_, h, _⟩ | ⟨_, _, ⟨_, h, _⟩ | ⟨_, _, h, _⟩⟩
  · exact h
  · exact h
  · exact h

/-- What `_license` raises. -/
theorem license_raises {lid : String} {now : Int} {e : Error}
    (h : (license lid now).Raises db e db') :
  e = .authorizationDenied
  := by
  simp [license, Routine.raises_bind] at h
  rcases h with ⟨_, h, _⟩ | ⟨_, _, _, h, _⟩
  · exact h
  · exact h

/-- What the enrolment of a key that has a device raises. -/
theorem enrol_raises {license : License} {proof : Challenge} {did : String} {now : Int}
    {device : Device} {e : Error} (hdevice : db.deviceOfKey license.id proof.keyId = some device)
    (h : (enrol license proof did now).Raises db e db') :
  e = .authorizationDenied
  := by
  simp [enrol, hdevice, Routine.raises_bind] at h
  apply h.2.1

section Active

variable {did code nonce signature : String} {proof : Challenge} {license : License}
  {device : Device}

/-- The device of a license and key is found after the code of the license and the challenge of
the key have been looked up once more. -/
theorem deviceOfKey_again (hdb : Limited db)
    (hproof : db.challengeOf nonce = some proof)
    (hlicense : db.licenseOfCode (store.sha code) = some license)
    (hdevice : device ∈ db.devices) (howner : device.licenseId = license.id)
    (hkey : device.keyId = proof.keyId) {proof' : Challenge} {named license' : License}
    (hproof' : db.challengeOf nonce = some proof')
    (hnamed : db.licenseOfCode (store.sha code) = some named)
    (hlicense' : db.licenseOf named.id = some license') :
  (db.spend nonce).deviceOfKey license'.id proof'.keyId = some device
  := by
  have hfound := deviceOfKey_of_mem hdb hdevice
  have hsame : proof = proof' := by
    simpa [hproof] using hproof'
  have hsame' : license = named := by
    simpa [hlicense] using hnamed
  have hid : license'.id = named.id := by
    simpa using List.find?_some hlicense'
  rw [howner, hkey, hsame, hsame', ← hid] at hfound
  exact hfound

/-- What an activation raises when the key of its challenge has a device of the license of its
code. -/
theorem activate_raises (hdb : Limited db) {clock : ℕ → Int} {e : Error}
    (hproof : db.challengeOf nonce = some proof)
    (hlicense : db.licenseOfCode (store.sha code) = some license)
    (hdevice : device ∈ db.devices) (howner : device.licenseId = license.id)
    (hkey : device.keyId = proof.keyId)
    (h : (store.activate clock did code nonce signature).Raises db e db') :
  e = .authorizationDenied
  := by
  simp [activate, Routine.raises_atomic, Routine.raises_bind, consume_yields, license_yields] at h
  obtain ⟨_, db₁, h | ⟨proof', hproof', ⟨_, h, _⟩ | ⟨named, hnamed, h⟩⟩⟩ := h
  · apply consume_raises h
  · exact h
  · rcases h with h | ⟨license', ⟨hlicense', _⟩, h⟩
    · apply license_raises h
    · have hfound := deviceOfKey_again hdb hproof hlicense hdevice howner hkey hproof'.pending
        hnamed hlicense'
      apply enrol_raises hfound h

/-- An activation adds no device when the key of its challenge has a device of the license of its
code. -/
theorem activate_devices (hdb : Limited db) {clock : ℕ → Int} {reply : Minted}
    (hproof : db.challengeOf nonce = some proof)
    (hlicense : db.licenseOfCode (store.sha code) = some license)
    (hdevice : device ∈ db.devices) (howner : device.licenseId = license.id)
    (hkey : device.keyId = proof.keyId)
    (h : (store.activate clock did code nonce signature).Yields db reply db') :
  db'.devices = db.devices
  := by
  obtain ⟨proof', named, license', _, hproof', hnamed, hlicense', henrol⟩ := activate_yields h
  have hfound := deviceOfKey_again hdb hproof hlicense hdevice howner hkey hproof'.pending
    hnamed hlicense'
  rcases enrol_yields henrol with ⟨_, _, rfl⟩ | ⟨hnone, _⟩
  · rfl
  · rw [hfound] at hnone
    cases hnone

/-- An activation with a proven challenge and the code of a live license yields the active device
that the key of the challenge has. -/
theorem activate_of_active (hdb : Limited db) (clock : ℕ → Int) (did : String)
    (hproof : store.Proves db nonce signature "activate" (store.sha code) (clock 0) proof)
    (hlicense : db.licenseOfCode (store.sha code) = some license)
    (hlive : license.revoked = false ∧ clock 1 < license.expiresAt)
    (hdevice : device ∈ db.devices) (howner : device.licenseId = license.id)
    (hkey : device.keyId = proof.keyId) (hactive : device.revoked = false) :
  (store.activate clock did code nonce signature).Yields db
    (store.mint license device (clock 3)) (db.spend nonce)
  := by
  have hid := licenseOf_of_code hdb hlicense
  have hfound := deviceOfKey_again hdb hproof.pending hlicense hdevice howner hkey hproof.pending
    hlicense hid
  have henrol : (enrol license proof did (clock 2)).Yields (db.spend nonce) device
      (db.spend nonce) := by
    simp [enrol, hfound, hactive]
  simp only [activate, Routine.yields_atomic, Routine.yields_bind, consume_yields]
  use proof, db.spend nonce, ⟨hproof, rfl⟩
  simp only [Routine.yields_read, Routine.yields_expect, license_yields]
  refine ⟨_, _, ⟨rfl, rfl⟩, license, _, ⟨hlicense, rfl⟩, license, _, ⟨hid, hlive, rfl⟩, device, _,
    henrol, ?_⟩
  simp

end Active

/-- In every run of requests, no license ever has more unrevoked devices than its limit, no two
devices of a license have the same key, and activating a key that has an active device adds no
device, is not refused for lack of a slot, and succeeds with that device when the challenge is
proven and the license live. -/
theorem deviceLimit_of_run {h : List (Database × Request)}
    (hrun : Run store.Step Database.empty h db) :
  (∀ l ∈ db.licenses, (db.activeDevices l.id).length ≤ l.maxDevices) ∧
  (db.devices.map fun d => (d.licenseId, d.keyId)).Nodup ∧
  ∀ (r : Request) (did code nonce signature : String) (proof : Challenge) (license : License)
    (device : Device),
    r.call = .activate did code nonce signature →
    db.challengeOf nonce = some proof → db.licenseOfCode (store.sha code) = some license →
    device ∈ db.devices → device.licenseId = license.id → device.keyId = proof.keyId →
    device.revoked = false →
      (store.exec r db).2.devices = db.devices ∧
      (store.exec r db).1 ≠ .error (.Denied 409 "device_limit_reached") ∧
      (store.Proves db nonce signature "activate" (store.sha code) (r.clock 0) proof →
        license.revoked = false → r.clock 1 < license.expiresAt →
        (store.exec r db).1 = .ok (.minted (store.mint license device (r.clock 3))))
  := by
  have hdb := Limited.of_run hrun
  refine ⟨hdb.limit, hdb.keys, ?_⟩
  intro r did code nonce signature proof license device hcall hproof hlicense hdevice howner hkey
    hactive
  have hexec : store.exec r = Reply.minted <$> store.activate r.clock did code nonce signature := by
    simp only [exec, hcall, bind_pure_comp]
  rw [hexec]
  rcases Routine.yields_or_raises (store.activate r.clock did code nonce signature) db with
    ⟨reply, db', hyields⟩ | ⟨e, db', hraises⟩
  · have hreply : (Reply.minted <$> store.activate r.clock did code nonce signature).Yields db
        (.minted reply) db' := Routine.yields_map.mpr ⟨reply, hyields, rfl⟩
    rw [Routine.Yields] at hreply
    rw [hreply]
    use activate_devices hdb hproof hlicense hdevice howner hkey hyields, by rintro ⟨⟩
    intro hproves hlive hexpiry
    have hagain := activate_of_active hdb r.clock did hproves hlicense ⟨hlive, hexpiry⟩ hdevice
      howner hkey hactive
    rw [Routine.Yields, hyields] at hagain
    grind
  · have hraises' : (Reply.minted <$> store.activate r.clock did code nonce signature).Raises db
        e db' := Routine.raises_map.mpr hraises
    rw [Routine.Raises] at hraises'
    rw [hraises', activate_raises hdb hproof hlicense hdevice howner hkey hraises]
    use congrArg Database.devices (Routine.raises_atomic.mp hraises).1, by rintro ⟨⟩
    intro hproves hlive hexpiry
    have hagain := activate_of_active hdb r.clock did hproves hlicense ⟨hlive, hexpiry⟩ hdevice
      howner hkey hactive
    rw [Routine.Yields, hraises] at hagain
    grind

/-- The database after a request. -/
def serve (store : LicenseStore) (db : Database) (r : Request) : Database := (store.exec r db).2

/-- Every list of requests is a run. -/
theorem run_serve (requests : List Request) :
  Run store.Step Database.empty (Run.trace store.serve Database.empty requests)
    (requests.foldl store.serve Database.empty)
  := by
  apply Run.of_next
  intro db r
  rfl

/-- A store whose cryptography is a toy. -/
def sampleStore : LicenseStore where
  sha256 bytes := if bytes = [1] then "key" else "hash"
  loadDeviceKey text := if text = "public key" then some [1] else none
  verify key signature _ := key = [1] ∧ signature = "signed"
  kid := "kid"
  sign _ := "signature"
  verifySignature signature _ := signature = "signature"
  dumps _ := "payload"
  loads _ := none
  identity address := address
  actor := "local-operator"

/-- A license for one device is issued, activated, and activated again. -/
def sampleRequests : List Request :=
  [⟨.issue "code" "license" 1 1, fun _ => 0⟩,
    ⟨.challenge "first" "public key" "activate" "hash", fun _ => 10⟩,
    ⟨.activate "device" "vxd_code" "first" "signed", fun _ => 20⟩,
    ⟨.challenge "second" "public key" "activate" "hash", fun _ => 30⟩,
    ⟨.activate "unused" "vxd_code" "second" "signed", fun _ => 40⟩]

theorem deviceLimit_activated :
  (sampleRequests.foldl sampleStore.serve Database.empty).devices.length = 1 ∧
  ∀ l ∈ (sampleRequests.foldl sampleStore.serve Database.empty).licenses,
    ((sampleRequests.foldl sampleStore.serve Database.empty).activeDevices l.id).length
      ≤ l.maxDevices
  := by
  constructor
  · decide +kernel
  · exact (deviceLimit_of_run (run_serve sampleRequests)).1

end LicenseStore

end VynxDesk.Licensing
