import VynxDesk.Licensing.Effect
import VynxDesk.Licensing.Challenges

/-!
# Revocation is final

What a revocation, a release of a device or a rotation of a code takes away is not given back by
whatever requests follow, and every request that mints a token or lists devices has found its
license unrevoked and unexpired.
-/

namespace VynxDesk.Licensing

namespace LicenseStore

variable {store : LicenseStore} {db db' : Database} {r : Request}
  {did lid nonce signature : String} {clock : ℕ → Int}

/-! ### Codes -/

/-- The codes that a call draws or presents. -/
def codes : Call → List String
  | .activate _ code _ _ => [code]
  | call => (drawn call).toList

theorem mem_codes_of_drawn {call : Call} {code : String} (h : drawn call = some code) :
  code ∈ codes call
  := by
  cases call <;> simp_all [codes, drawn]

/-- The codes of a history have distinct hashes. -/
def Distinct (store : LicenseStore) (h : List (Database × Request)) : Prop :=
  ∀ x ∈ h, ∀ y ∈ h, ∀ c ∈ codes x.2.call, ∀ c' ∈ codes y.2.call, store.sha c = store.sha c' → c = c'

/-- A license has the code it had, or the one that was drawn. -/
theorem Effect.code (heffect : store.Effect db r db') :
  ∀ l ∈ db'.licenses, (∃ l' ∈ db.licenses, l'.id = l.id ∧ l'.codeHash = l.codeHash) ∨
    ∃ code, drawn r.call = some code ∧ l.codeHash = store.sha code
  := by
  have hkept : ∀ l ∈ db.licenses, (∃ l' ∈ db.licenses, l'.id = l.id ∧ l'.codeHash = l.codeHash) ∨
      ∃ code, drawn r.call = some code ∧ l.codeHash = store.sha code := by
    intro l hmem
    left
    use l
  rcases heffect with ⟨hl, -⟩ | ⟨row, code, hdrawn, hcode, _, hl, -⟩ |
    ⟨f, hid, hcode, _, hl, -⟩ | ⟨lid, code, hdrawn, _, hl, -⟩ | ⟨_, _, hl, -⟩ | ⟨_, _, hl, -⟩
  · rw [hl]
    exact hkept
  · rw [hl]
    simp only [List.forall_mem_append, List.forall_mem_singleton]
    apply And.intro hkept
    right
    use code
  · rw [hl]
    simp only [List.forall_mem_map, hid, hcode]
    exact hkept
  · rw [hl]
    simp only [List.forall_mem_map]
    intro l hmem
    split_ifs
    · right
      use code
    · apply hkept l hmem
  · rw [hl]
    exact hkept
  · rw [hl]
    exact hkept

/-- Every code that a license ever had was drawn. -/
theorem drawn_of_run {h : List (Database × Request)} (hrun : Run store.Step Database.empty h db) :
  ∀ l ∈ db.licenses, ∃ x ∈ h, ∃ code, drawn x.2.call = some code ∧ l.codeHash = store.sha code
  := by
  apply hrun.history_invariant fun h db =>
    ∀ l ∈ db.licenses, ∃ x ∈ h, ∃ code, drawn x.2.call = some code ∧ l.codeHash = store.sha code
  · intro l hl
    cases hl
  · intro h db r db' _ hdb hstep l hmem
    rcases hstep.effect.code l hmem with ⟨l', hmem', -, hsame⟩ | ⟨code, hdrawn, hcode⟩
    · obtain ⟨x, hx, code, hdrawn, hcode⟩ := hdb l' hmem'
      use x, List.mem_append_left _ hx, code, hdrawn
      rw [← hsame, hcode]
    · use (db, r)
      exact ⟨by simp, code, hdrawn, hcode⟩

/-- No license but `lid` has the code of this hash. -/
def Opens (lid hash : String) (db : Database) : Prop :=
  ∀ l ∈ db.licenses, l.codeHash = hash → l.id = lid

/-- No license has the code of this hash. -/
def Unopened (hash : String) (db : Database) : Prop := ∀ l ∈ db.licenses, l.codeHash ≠ hash

theorem Opens.effect {hash : String} (h : Opens lid hash db)
    (hfree : ∀ code, drawn r.call = some code → store.sha code ≠ hash)
    (heffect : store.Effect db r db') :
  Opens lid hash db'
  := by
  intro l hmem hhash
  rcases heffect.code l hmem with ⟨l', hmem', hid, hsame⟩ | ⟨code, hdrawn, hcode⟩
  · rw [← hid]
    apply h l' hmem' (hsame.trans hhash)
  · exact absurd (hcode.symm.trans hhash) (hfree code hdrawn)

theorem Unopened.effect {hash : String} (h : Unopened hash db)
    (hfree : ∀ code, drawn r.call = some code → store.sha code ≠ hash)
    (heffect : store.Effect db r db') :
  Unopened hash db'
  := by
  intro l hmem hhash
  rcases heffect.code l hmem with ⟨l', hmem', _, hsame⟩ | ⟨code, hdrawn, hcode⟩
  · exact h l' hmem' (hsame.trans hhash)
  · exact hfree code hdrawn (hcode.symm.trans hhash)

/-- A code is drawn once, so that no license but the one that had it ever has it again. -/
theorem free_of_distinct {h earlier later : List (Database × Request)} {x y : Database × Request}
    {l : License} {code : String} (hrun : Run store.Step Database.empty h db)
    (hsplit : h = earlier ++ x :: later) (hdistinct : store.Distinct h)
    (hdrawn : (h.filterMap fun x => drawn x.2.call).Nodup) (hl : l ∈ x.1.licenses)
    (hcode : l.codeHash = store.sha code) (hy : y ∈ h) (hpresented : code ∈ codes y.2.call) :
  ∀ z ∈ x :: later, ∀ c, drawn z.2.call = some c → store.sha c ≠ store.sha code
  := by
  intro z hz c hc hsame
  obtain ⟨w, hw, c', hc', hhash⟩ := drawn_of_run (hsplit ▸ hrun).before.1 l hl
  have hwh : w ∈ h := by
    rw [hsplit]
    exact List.mem_append_left _ hw
  have hzh : z ∈ h := by
    rw [hsplit]
    exact List.mem_append_right _ hz
  have hfirst : c' = code :=
    hdistinct w hwh y hy c' (mem_codes_of_drawn hc') code hpresented (hhash.symm.trans hcode)
  have hsecond : c = code := hdistinct z hzh y hy c (mem_codes_of_drawn hc) code hpresented hsame
  rw [hsplit, List.filterMap_append, List.nodup_append] at hdrawn
  apply hdrawn.2.2 code _ code _ rfl
  · rw [List.mem_filterMap]
    exact ⟨w, hw, hfirst ▸ hc'⟩
  · rw [List.mem_filterMap]
    exact ⟨z, hz, hsecond ▸ hc⟩

/-! ### What a request is about -/

/-- The payload a token claims to have. -/
def tokenPayload (store : LicenseStore) (token : String) : Option Payload :=
  match token.splitOn "." with
  | [_, _, encoded, _] => (store.loads encoded).bind payloadOf
  | _ => none

/-- The license that a call is for. -/
def licenseFor (store : LicenseStore) (db : Database) : Call → Option String
  | .extend licenseId _ => some licenseId
  | .rotateCode _ licenseId => some licenseId
  | .activate _ code _ _ => (db.licenseOfCode (store.sha code)).map (·.id)
  | .refresh activationId _ _ => (db.deviceOf activationId).map (·.licenseId)
  | .devices token _ _ => (store.tokenPayload token).map (·.licenseId)
  | _ => none

/-- The key that a call activates. -/
def keyFor (db : Database) : Call → Option String
  | .activate _ _ nonce _ => (db.challengeOf nonce).map (·.keyId)
  | _ => none

/-- The activation that a call uses. -/
def activationFor (store : LicenseStore) : Call → Option String
  | .refresh activationId _ _ => some activationId
  | .devices token _ _ => (store.tokenPayload token).map (·.activationId)
  | _ => none

/-- The clock reading that a call checks the expiry of its license with. -/
def expiryReading : Call → Option ℕ
  | .activate _ _ _ _ => some 1
  | .refresh _ _ _ => some 1
  | .devices _ _ _ => some 3
  | _ => none

theorem verifyToken_yields {token : String} {now : Int} {payload : Payload}
    (h : (store.verifyToken token now).Yields db payload db') :
  store.tokenPayload token = some payload ∧ db' = db
  := by
  have hsame : db = db' := verifyToken_within.of_yields h
  rw [verifyToken] at h
  split at h
  · rename_i hsplit
    simp only [Routine.yields_require_bind, Routine.yields_expect_bind, Routine.yields_pure] at h
    obtain ⟨_, _, payload', hpayload, _, _, rfl, _⟩ := h
    apply And.intro _ hsame.symm
    rw [tokenPayload]
    rw [hsplit]
    apply hpayload
  · simp at h

/-- A license is found where it is. -/
theorem mem_of_licenseOf {l : License} (h : db.licenseOf lid = some l) :
  l ∈ db.licenses ∧ l.id = lid
  := by
  use List.mem_of_find?_eq_some h
  simpa using List.find?_some h

/-- An activation finds the license of its code unrevoked, and unexpired. -/
theorem activate_finds {code : String} {reply : Minted}
    (h : (store.activate clock did code nonce signature).Yields db reply db') :
  ∃ named l, db.licenseOfCode (store.sha code) = some named ∧ db.licenseOf named.id = some l ∧
    l.revoked = false ∧ clock 1 < l.expiresAt
  := by
  simp [activate, Routine.yields_bind, consume_yields, license_yields] at h
  obtain ⟨_, _, named, hnamed, l, ⟨hl, hlive, hexpiry⟩, _⟩ := h
  use named, l, hnamed, hl

/-- A refresh finds its device unrevoked, and the license of the device unrevoked and unexpired. -/
theorem refresh_finds {activationId : String} {reply : Minted}
    (h : (store.refresh clock activationId nonce signature).Yields db reply db') :
  ∃ device l, db.deviceOf activationId = some device ∧ device.revoked = false ∧
    db.licenseOf device.licenseId = some l ∧ l.revoked = false ∧ clock 1 < l.expiresAt
  := by
  simp [refresh, Routine.yields_bind, consume_yields, license_yields] at h
  obtain ⟨_, _, device, hdevice, ⟨hrevoked, _⟩, l, ⟨hl, ⟨hlive, hexpiry⟩, _⟩, _⟩ := h
  use device, l, hdevice, hrevoked, hl

/-- A listing finds the license of its token unrevoked and unexpired, and the device of the token
unrevoked; it lists unrevoked devices. -/
theorem devices_finds {token : String} {reply : Inventory}
    (h : (store.devices clock token nonce signature).Yields db reply db') :
  ∃ payload l, store.tokenPayload token = some payload ∧ db.licenseOf payload.licenseId = some l ∧
    (l.revoked = false ∧ clock 3 < l.expiresAt) ∧
    (∃ device ∈ db.devices, device.id = payload.activationId ∧ device.revoked = false) ∧
    ∀ x ∈ reply.devices, ∃ device ∈ db.devices, device.id = x.1 ∧ device.revoked = false
  := by
  simp [devices, Routine.yields_bind, consume_yields, license_yields] at h
  obtain ⟨payload, _, htoken, _, _, _, _, l, ⟨hl, hlive, hexpiry⟩, device, hdevice,
    ⟨hrevoked, _⟩, _, rfl⟩ := h
  obtain ⟨hpayload, rfl⟩ := verifyToken_yields htoken
  refine ⟨payload, l, hpayload, hl, ⟨hlive, hexpiry⟩, ?_, ?_⟩
  · have hfound := List.find?_some hdevice
    simp only [Bool.and_eq_true, decide_eq_true_eq] at hfound
    use device, List.mem_of_find?_eq_some hdevice, hfound.1
  · intro x hx
    simp only [List.mem_map, List.mem_mergeSort] at hx
    obtain ⟨d, hd, rfl⟩ := hx
    obtain ⟨hmem, hactive⟩ := List.mem_filter.mp hd
    simp only [Bool.not_eq_true, decide_eq_true_eq] at hactive
    use d, hmem, rfl, hactive.2

/-- A request that returns yields its reply. -/
theorem yields_of_succeeds (hok : store.succeeds (db, r) = true) :
  ∃ reply db', (store.exec r).Yields db reply db'
  := by
  rcases Routine.yields_or_raises (store.exec r) db with h | ⟨e, db', h⟩
  · exact h
  · rw [succeeds_of_raises h] at hok
    cases hok

/-- A step of a request that returns yields its reply. -/
theorem Step.yields (hstep : store.Step db r db') (hok : store.succeeds (db, r) = true) :
  ∃ reply, (store.exec r).Yields db reply db'
  := by
  obtain ⟨reply, db₁, h⟩ := yields_of_succeeds hok
  have hdb : db₁ = db' := by
    rw [← hstep, h]
  use reply
  rw [← hdb]
  exact h

/-- A request that mints a token or lists devices has found its license unrevoked, and checked its
expiry. -/
theorem license_of_succeeds {i : ℕ} (hreading : expiryReading r.call = some i)
    (hok : store.succeeds (db, r) = true) :
  ∃ l ∈ db.licenses, store.licenseFor db r.call = some l.id ∧ l.revoked = false ∧
    r.clock i < l.expiresAt
  := by
  obtain ⟨reply, db', h⟩ := yields_of_succeeds hok
  cases hcall : r.call with
  | activate did code nonce signature =>
      rw [hcall] at hreading
      cases hreading
      simp only [exec, hcall, bind_pure_comp, Routine.yields_map] at h
      obtain ⟨_, h, _⟩ := h
      obtain ⟨named, l, hnamed, hl, hlive, hexpiry⟩ := activate_finds h
      obtain ⟨hmem, hid⟩ := mem_of_licenseOf hl
      use l, hmem
      refine ⟨?_, hlive, hexpiry⟩
      unfold licenseFor
      dsimp only
      rw [hnamed, hid]
      rfl
  | refresh activationId nonce signature =>
      rw [hcall] at hreading
      cases hreading
      simp only [exec, hcall, bind_pure_comp, Routine.yields_map] at h
      obtain ⟨_, h, _⟩ := h
      obtain ⟨device, l, hdevice, _, hl, hlive, hexpiry⟩ := refresh_finds h
      obtain ⟨hmem, hid⟩ := mem_of_licenseOf hl
      use l, hmem
      refine ⟨?_, hlive, hexpiry⟩
      unfold licenseFor
      dsimp only
      rw [hdevice, hid]
      rfl
  | devices token nonce signature =>
      rw [hcall] at hreading
      cases hreading
      simp only [exec, hcall, bind_pure_comp, Routine.yields_map] at h
      obtain ⟨_, h, _⟩ := h
      obtain ⟨payload, l, hpayload, hl, ⟨hlive, hexpiry⟩, _⟩ := devices_finds h
      obtain ⟨hmem, hid⟩ := mem_of_licenseOf hl
      use l, hmem
      refine ⟨?_, hlive, hexpiry⟩
      unfold licenseFor
      dsimp only
      rw [hpayload, hid]
      rfl
  | _ =>
      rw [hcall] at hreading
      cases hreading

/-- A request for a license that returns has found the license unrevoked. -/
theorem live_of_succeeds (hfor : store.licenseFor db r.call = some lid)
    (hok : store.succeeds (db, r) = true) :
  ∃ l ∈ db.licenses, l.id = lid ∧ l.revoked = false
  := by
  have hserves {i : ℕ} (hreading : expiryReading r.call = some i) :
      ∃ l ∈ db.licenses, l.id = lid ∧ l.revoked = false := by
    obtain ⟨l, hmem, hl, hlive, _⟩ := license_of_succeeds hreading hok
    rw [hfor, Option.some.injEq] at hl
    use l, hmem, hl.symm
  obtain ⟨reply, db', h⟩ := yields_of_succeeds hok
  cases hcall : r.call with
  | extend licenseId days =>
      rw [hcall] at hfor
      cases hfor
      simp only [exec, hcall, bind_pure_comp, Routine.yields_map] at h
      obtain ⟨_, h, _⟩ := h
      apply extend_finds h
  | rotateCode token licenseId =>
      rw [hcall] at hfor
      cases hfor
      simp only [exec, hcall, bind_pure_comp, Routine.yields_map] at h
      obtain ⟨_, h, _⟩ := h
      apply (rotateCode_fresh h).1
  | activate did code nonce signature => exact hserves (by rw [hcall]; rfl)
  | refresh activationId nonce signature => exact hserves (by rw [hcall]; rfl)
  | devices token nonce signature => exact hserves (by rw [hcall]; rfl)
  | _ =>
      rw [hcall] at hfor
      cases hfor

/-- A request that uses an activation and returns has found its device unrevoked. -/
theorem activation_of_succeeds (hfor : store.activationFor r.call = some did)
    (hok : store.succeeds (db, r) = true) :
  ∃ d ∈ db.devices, d.id = did ∧ d.revoked = false
  := by
  obtain ⟨reply, db', h⟩ := yields_of_succeeds hok
  cases hcall : r.call with
  | refresh activationId nonce signature =>
      rw [hcall] at hfor
      cases hfor
      simp only [exec, hcall, bind_pure_comp, Routine.yields_map] at h
      obtain ⟨_, h, _⟩ := h
      obtain ⟨device, _, hdevice, hrevoked, _⟩ := refresh_finds h
      use device, List.mem_of_find?_eq_some hdevice
      exact ⟨by simpa using List.find?_some hdevice, hrevoked⟩
  | devices token nonce signature =>
      rw [hcall] at hfor
      simp only [exec, hcall, bind_pure_comp, Routine.yields_map] at h
      obtain ⟨_, h, _⟩ := h
      obtain ⟨payload, _, hpayload, _, _, hdevice, _⟩ := devices_finds h
      unfold activationFor at hfor
      dsimp only at hfor
      rw [hpayload] at hfor
      cases hfor
      exact hdevice
  | _ =>
      rw [hcall] at hfor
      cases hfor

/-- An activation that returns has found no released device of its license and key. -/
theorem key_of_succeeds (hdb : Limited db) {key : String}
    (hfor : store.licenseFor db r.call = some lid) (hkey : keyFor db r.call = some key)
    (hok : store.succeeds (db, r) = true) :
  ∀ d ∈ db.devices, d.licenseId = lid → d.keyId = key → d.revoked = false
  := by
  obtain ⟨reply, db', h⟩ := yields_of_succeeds hok
  cases hcall : r.call with
  | activate did code nonce signature =>
      rw [hcall] at hfor hkey
      simp only [exec, hcall, bind_pure_comp, Routine.yields_map] at h
      obtain ⟨_, h, _⟩ := h
      obtain ⟨proof, named, license, device, hproof, hnamed, hlicense, henrol⟩ := activate_yields h
      change (db.licenseOfCode (store.sha code)).map (·.id) = some lid at hfor
      change (db.challengeOf nonce).map (·.keyId) = some key at hkey
      rw [hnamed] at hfor
      rw [hproof.pending] at hkey
      cases hfor
      cases hkey
      intro d hmem howner hkeys
      dsimp only at howner hkeys
      have hfound : (db.spend nonce).deviceOfKey license.id proof.keyId = some d := by
        rw [(mem_of_licenseOf hlicense).2, ← howner, ← hkeys]
        exact deviceOfKey_of_mem hdb hmem
      rcases enrol_fresh henrol with ⟨hdevice, hrevoked, _⟩ | ⟨hnone, _⟩
      · rw [hfound] at hdevice
        cases hdevice
        exact hrevoked
      · rw [hfound] at hnone
        cases hnone
  | _ =>
      rw [hcall] at hkey
      cases hkey

/-- What is listed is not released. -/
theorem active_of_listed {reply : Inventory} (h : (store.exec r db).1 = .ok (.inventory reply)) :
  ∀ x ∈ reply.devices, ∃ d ∈ db.devices, d.id = x.1 ∧ d.revoked = false
  := by
  have hyields : (store.exec r).Yields db (.inventory reply) (store.exec r db).2 := by
    rw [Routine.Yields, ← h]
  cases hcall : r.call with
  | devices token nonce signature =>
      simp only [exec, hcall, bind_pure_comp, Routine.yields_map] at hyields
      obtain ⟨_, hyields, hreply⟩ := hyields
      cases hreply
      obtain ⟨_, _, _, _, _, _, hlisted⟩ := devices_finds hyields
      exact hlisted
  | _ => simp [exec, hcall] at hyields

/-- A code that opens no license activates nothing. -/
theorem Unopened.not_succeeds {code : String} (h : Unopened (store.sha code) db)
    (hcall : r.call = .activate did code nonce signature) :
  store.succeeds (db, r) = false
  := by
  cases hok : store.succeeds (db, r) with
  | false => rfl
  | true =>
      obtain ⟨reply, db', hyields⟩ := yields_of_succeeds hok
      simp only [exec, hcall, bind_pure_comp, Routine.yields_map] at hyields
      obtain ⟨_, hyields, _⟩ := hyields
      obtain ⟨_, named, _, _, _, hnamed, _⟩ := activate_yields hyields
      have hcode : named.codeHash = store.sha code := by
        simpa using List.find?_some hnamed
      exact absurd hcode (h named (List.mem_of_find?_eq_some hnamed))

/-! ### The main result -/

section Final

variable {h before after : List (Database × Request)} {x : Database × Request}

/-- A license that is revoked stays so. -/
theorem revokedLicense_after (hrun : Run store.Step Database.empty (before ++ x :: after) db)
    (hcall : x.2.call = .revoke lid) (hok : store.succeeds x = true) :
  ∀ y ∈ after, RevokedLicense lid y.1
  := by
  apply (hrun.after (RevokedLicense lid) _ _).1
  · intro db' hstep
    obtain ⟨reply, hyields⟩ := Step.yields hstep hok
    simp only [exec, hcall, Routine.yields_bind] at hyields
    obtain ⟨_, _, hyields, hdone⟩ := hyields
    obtain ⟨-, rfl⟩ := Routine.yields_pure.mp hdone
    obtain ⟨hlicenses, -⟩ := revoke_yields hyields
    obtain ⟨l, hmem, hid⟩ := revoke_finds hyields
    constructor
    · rw [hlicenses]
      refine ⟨_, List.mem_map_of_mem hmem, ?_⟩
      rw [if_pos hid]
      exact hid
    · rw [hlicenses]
      simp only [List.forall_mem_map]
      intro l hmem
      split_ifs with hsame
      · intro _
        rfl
      · intro hid
        exact absurd hid hsame
  · intro y _ db' hy hstep
    apply hy.effect hstep.effect

/-- A device that is released stays so. -/
theorem releasedDevice_after (hrun : Run store.Step Database.empty (before ++ x :: after) db)
    {key : String} (hcall : x.2.call = .releaseDevice lid did) (hok : store.succeeds x = true)
    (hkey : ∃ d ∈ x.1.devices, d.id = did ∧ d.licenseId = lid ∧ d.keyId = key) :
  ∀ y ∈ after, ReleasedDevice lid did key y.1
  := by
  apply (hrun.after (ReleasedDevice lid did key) _ _).1
  · intro db' hstep
    obtain ⟨reply, hyields⟩ := Step.yields hstep hok
    simp only [exec, hcall, Routine.yields_bind] at hyields
    obtain ⟨_, _, hyields, hdone⟩ := hyields
    obtain ⟨-, rfl⟩ := Routine.yields_pure.mp hdone
    obtain ⟨-, hdevices, -⟩ := releaseDevice_yields hyields
    obtain ⟨d, hmem, hid, howner, hkeys⟩ := hkey
    constructor
    · rw [hdevices]
      refine ⟨_, List.mem_map_of_mem hmem, ?_⟩
      split_ifs <;> exact ⟨hid, howner, hkeys⟩
    · rw [hdevices]
      simp only [List.forall_mem_map]
      intro d' hmem'
      split_ifs with hsame
      · intro _
        rfl
      · intro hid'
        have hone : d' = d :=
          List.inj_on_of_nodup_map (Keyed.of_run hrun.before.1).devices hmem' hmem
            (hid'.trans hid.symm)
        rw [hone] at hsame
        exact absurd ⟨hid, howner⟩ hsame
  · intro y _ db' hy hstep
    apply hy.effect hstep.effect

/-- A code that a rotation has replaced opens no license ever after. -/
theorem unopened_after (hrun : Run store.Step Database.empty (before ++ x :: after) db)
    {token code : String} (hcall : x.2.call = .rotateCode token lid)
    (hok : store.succeeds x = true) (hopens : Opens lid (store.sha code) x.1)
    (hfree : ∀ y ∈ x :: after, ∀ c, drawn y.2.call = some c → store.sha c ≠ store.sha code) :
  ∀ y ∈ after, Unopened (store.sha code) y.1
  := by
  apply (hrun.after (Unopened (store.sha code)) _ _).1
  · intro db' hstep
    obtain ⟨reply, hyields⟩ := Step.yields hstep hok
    simp only [exec, hcall, bind_pure_comp, Routine.yields_map] at hyields
    obtain ⟨_, hyields, _⟩ := hyields
    obtain ⟨hlicenses, -⟩ := rotateCode_yields hyields
    obtain ⟨⟨l₀, hmem₀, hid₀, hlive₀⟩, -, rfl⟩ := rotateCode_fresh hyields
    rw [Unopened]
    rw [hlicenses]
    simp only [List.forall_mem_map]
    intro l hmem
    split_ifs with hrow
    · apply hfree x List.mem_cons_self
      rw [hcall]
      rfl
    · intro hsame
      have hl : l = l₀ :=
        List.inj_on_of_nodup_map (Limited.of_run hrun.before.1).ids hmem hmem₀
          ((hopens l hmem hsame).trans hid₀.symm)
      rw [hl] at hrow
      exact hrow ⟨hid₀, hlive₀⟩
  · intro y hy db' hopen hstep
    apply hopen.effect _ hstep.effect
    apply hfree y (List.mem_cons_of_mem _ hy)

/-- A code that a license has had opens no other license ever after. -/
theorem opens_after {z : Database × Request} {code : String}
    (hrun : Run store.Step Database.empty (before ++ z :: after) db)
    (hmem : ∃ l ∈ z.1.licenses, l.id = lid ∧ l.codeHash = store.sha code)
    (hfree : ∀ y ∈ z :: after, ∀ c, drawn y.2.call = some c → store.sha c ≠ store.sha code) :
  ∀ y ∈ z :: after, Opens lid (store.sha code) y.1
  := by
  have hz : Opens lid (store.sha code) z.1 := by
    obtain ⟨l, hl, hid, hcode⟩ := hmem
    intro l' hl' hcode'
    rw [← hid]
    apply (Keyed.of_run hrun.before.1).codes l' hl' l hl (hcode'.trans hcode.symm)
  rw [List.forall_mem_cons]
  apply And.intro hz
  apply (hrun.after (Opens lid (store.sha code)) _ _).1
  · intro db' hstep
    apply hz.effect _ hstep.effect
    apply hfree z List.mem_cons_self
  · intro y hy db' hopens hstep
    apply hopens.effect _ hstep.effect
    apply hfree y (List.mem_cons_of_mem _ hy)

/-- Along every run of requests: after a revocation no request for the license returns; after a
release, no activation of the key of the device under its license and no request with its activation
returns, and no listing has the device; after a rotation, no code that the license had activates, as
long as no code is drawn twice and the codes have distinct hashes; and a request that mints a token
or lists devices has found its license unrevoked, and its expiry after the clock reading. -/
theorem revocation_of_run (hrun : Run store.Step Database.empty h db) :
  (∀ before x after lid, h = before ++ x :: after → x.2.call = .revoke lid →
    store.succeeds x = true →
      ∀ y ∈ after, store.licenseFor y.1 y.2.call = some lid → store.succeeds y = false) ∧
  (∀ before x after lid did key, h = before ++ x :: after → x.2.call = .releaseDevice lid did →
    store.succeeds x = true →
    (∃ d ∈ x.1.devices, d.id = did ∧ d.licenseId = lid ∧ d.keyId = key) →
      ∀ y ∈ after,
        (store.licenseFor y.1 y.2.call = some lid → keyFor y.1 y.2.call = some key →
          store.succeeds y = false) ∧
        (store.activationFor y.2.call = some did → store.succeeds y = false) ∧
        ∀ reply, (store.exec y.2 y.1).1 = .ok (.inventory reply) → ∀ i ∈ reply.devices, i.1 ≠ did) ∧
  (store.Distinct h → (h.filterMap fun x => drawn x.2.call).Nodup →
    ∀ before x after token lid, h = before ++ x :: after → x.2.call = .rotateCode token lid →
      store.succeeds x = true →
      ∀ z ∈ before ++ [x], ∀ l ∈ z.1.licenses, l.id = lid → ∀ y ∈ after, ∀ did code nonce signature,
        l.codeHash = store.sha code → y.2.call = .activate did code nonce signature →
          store.succeeds y = false) ∧
  ∀ x ∈ h, ∀ i, expiryReading x.2.call = some i → store.succeeds x = true →
    ∃ l ∈ x.1.licenses, store.licenseFor x.1 x.2.call = some l.id ∧ l.revoked = false ∧
      x.2.clock i < l.expiresAt
  := by
  refine ⟨?_, ?_, ?_, ?_⟩
  · intro before x after lid hsplit hcall hok y hy hfor
    subst hsplit
    by_contra hsucceeds
    rw [Bool.not_eq_false] at hsucceeds
    obtain ⟨l, hmem, hid, hlive⟩ := live_of_succeeds hfor hsucceeds
    have hrevoked := (revokedLicense_after hrun hcall hok y hy).all l hmem hid
    rw [hlive] at hrevoked
    cases hrevoked
  · intro before x after lid did key hsplit hcall hok hkey y hy
    subst hsplit
    have hreleased := releasedDevice_after hrun hcall hok hkey y hy
    refine ⟨?_, ?_, ?_⟩
    · intro hfor hfor'
      by_contra hsucceeds
      rw [Bool.not_eq_false] at hsucceeds
      obtain ⟨d, hmem, hid, howner, hkeys⟩ := hreleased.mem
      obtain ⟨earlier, later, hlater⟩ := List.append_of_mem (List.mem_append_right before
        (List.mem_cons_of_mem x hy))
      have hdb := Limited.of_run (hlater ▸ hrun).before.1
      have hactive := key_of_succeeds hdb hfor hfor' hsucceeds d hmem howner hkeys
      rw [hreleased.all d hmem hid] at hactive
      cases hactive
    · intro hfor
      by_contra hsucceeds
      rw [Bool.not_eq_false] at hsucceeds
      obtain ⟨d, hmem, hid, hactive⟩ := activation_of_succeeds hfor hsucceeds
      rw [hreleased.all d hmem hid] at hactive
      cases hactive
    · intro reply hreply i hi hsame
      obtain ⟨d, hmem, hid, hactive⟩ := active_of_listed hreply i hi
      rw [hreleased.all d hmem (hid.trans hsame)] at hactive
      cases hactive
  · intro hdistinct hdrawn before x after token lid hsplit hcall hok z hz l hl hid y hy did code nonce
      signature hcode hactivate
    obtain ⟨earlier, later, hbefore⟩ := List.append_of_mem hz
    have hsplit' : h = earlier ++ z :: (later ++ after) := by
      rw [hsplit, List.append_cons, hbefore]
      simp
    have hpresented : code ∈ codes y.2.call := by
      rw [hactivate]
      exact List.mem_singleton_self code
    have hyh : y ∈ h := by
      rw [hsplit]
      exact List.mem_append_right _ (List.mem_cons_of_mem x hy)
    have hfree := free_of_distinct hrun hsplit' hdistinct hdrawn hl hcode hyh hpresented
    have hlater : ∀ w ∈ x :: after, w ∈ z :: (later ++ after) := by
      have hlast : x ∈ z :: later := by
        have hx : (earlier ++ z :: later).getLast (by simp) = x := by
          simp [← hbefore]
        rw [← hx, List.getLast_append_of_ne_nil _ (List.cons_ne_nil z later)]
        apply List.getLast_mem
      rw [List.forall_mem_cons, ← List.cons_append]
      exact ⟨List.mem_append_left _ hlast, fun w hw => List.mem_append_right _ hw⟩
    have hopens := opens_after (hsplit' ▸ hrun) ⟨l, hl, hid, hcode⟩ hfree x
      (hlater x List.mem_cons_self)
    have hunopened := unopened_after (hsplit ▸ hrun) hcall hok hopens
      (fun w hw => hfree w (hlater w hw)) y hy
    apply hunopened.not_succeeds hactivate
  · intro x _ i hreading hok
    apply license_of_succeeds hreading hok

end Final

/-- A store whose hashes of distinct texts are distinct. -/
def distinctStore : LicenseStore :=
  { sampleStore with
    sha256 := fun bytes =>
      if bytes = [1] then "key" else String.ofList (bytes.map fun b => Char.ofNat b.toNat) }

/-- A license is issued, and a device activated. -/
def activated : List Request :=
  [⟨.issue "code" "license" 1 1, fun _ => 0⟩,
    ⟨.challenge "first" "public key" "activate" "vxd_code", fun _ => 10⟩,
    ⟨.activate "device" "vxd_code" "first" "signed", fun _ => 20⟩]

/-- The code of the license is rotated, its device is released, and it is revoked. -/
def rotation : Request := ⟨.rotateCode "fresh" "license", fun _ => 30⟩

def release : Request := ⟨.releaseDevice "license" "device", fun _ => 40⟩

def revocation : Request := ⟨.revoke "license", fun _ => 50⟩

/-- An activation with the first code, a refresh, and an extension. -/
def attempts : List Request :=
  [⟨.challenge "second" "public key" "activate" "vxd_code", fun _ => 60⟩,
    ⟨.activate "unused" "vxd_code" "second" "signed", fun _ => 60⟩,
    ⟨.challenge "third" "public key" "refresh" "device", fun _ => 60⟩,
    ⟨.refresh "device" "third" "signed", fun _ => 60⟩,
    ⟨.extend "license" 1, fun _ => 60⟩]

/-- The history of the requests in which `r` follows the activation. -/
def historyOf (r : Request) : List (Database × Request) :=
  Run.trace distinctStore.serve Database.empty (activated ++ r :: attempts)

/-- What the activation leaves. -/
def activatedDatabase : Database := activated.foldl distinctStore.serve Database.empty

/-- The history of the attempts after `r`. -/
def attemptsAfter (r : Request) : List (Database × Request) :=
  Run.trace distinctStore.serve (distinctStore.serve activatedDatabase r) attempts

theorem historyOf_eq (r : Request) :
  historyOf r = Run.trace distinctStore.serve Database.empty activated
    ++ (activatedDatabase, r) :: attemptsAfter r
  := Run.trace_append _ _ _ _

theorem run_historyOf (r : Request) :
  ∃ db, Run distinctStore.Step Database.empty (historyOf r) db
  := by
  refine ⟨_, Run.of_next ?_ _ _⟩
  intro db r
  rfl

theorem revocation_attempted :
  (∀ y ∈ attemptsAfter revocation, distinctStore.licenseFor y.1 y.2.call = some "license" →
    distinctStore.succeeds y = false) ∧
  (∀ y ∈ attemptsAfter release, distinctStore.activationFor y.2.call = some "device" →
    distinctStore.succeeds y = false) ∧
  ∀ y ∈ attemptsAfter rotation, y.2.call = .activate "unused" "vxd_code" "second" "signed" →
    distinctStore.succeeds y = false
  := by
  refine ⟨?_, ?_, ?_⟩
  · obtain ⟨db, hrun⟩ := run_historyOf revocation
    apply (revocation_of_run hrun).1 _ _ _ "license" (historyOf_eq revocation) rfl
    decide +kernel
  · obtain ⟨db, hrun⟩ := run_historyOf release
    intro y hy
    refine ((revocation_of_run hrun).2.1 _ _ _ "license" "device" "key" (historyOf_eq release) rfl
      ?_ ?_ y hy).2.1
    · decide +kernel
    · decide +kernel
  · obtain ⟨db, hrun⟩ := run_historyOf rotation
    have hdistinct : distinctStore.Distinct (historyOf rotation) := by
      rw [Distinct]
      decide +kernel
    have hdrawn : ((historyOf rotation).filterMap fun x => drawn x.2.call).Nodup := by
      decide +kernel
    have hlicense : ∃ l ∈ activatedDatabase.licenses, l.id = "license" ∧
        l.codeHash = distinctStore.sha "vxd_code" := by
      decide +kernel
    obtain ⟨l, hl, hid, hcode⟩ := hlicense
    intro y hy
    apply (revocation_of_run hrun).2.2.1 hdistinct hdrawn _ _ _ "fresh" "license"
      (historyOf_eq rotation) rfl _ (activatedDatabase, rotation) _ l hl hid y hy _ _ _ _ hcode
    · decide +kernel
    · simp

end LicenseStore

end VynxDesk.Licensing
