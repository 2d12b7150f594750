import Mathlib.Order.Lattice.Nat
import Mathlib.Logic.Equiv.List
import Mathlib.Data.Int.ConditionallyCompleteOrder
import VynxDesk.Lib.SplitOn
import VynxDesk.Licensing.Revocation

/-!
# Minted tokens

A token that `_mint` makes is read back by `_verify_token`, which takes it from its issue until its
expiry.  The license is checked with one clock reading and the token is minted with a later one: a
token is good exactly when the second one is before the end of the license as well
(`LicenseStore.mints_iff`).
-/

namespace VynxDesk.Licensing

/-- The fields of a token's object, in the order of their names. -/
def Payload.fields (payload : Payload) : List (String × Value) :=
  [("activation_id", .str payload.activationId), ("aud", .str payload.aud),
    ("exp", .int payload.exp), ("iat", .int payload.iat), ("key_id", .str payload.keyId),
    ("license_id", .str payload.licenseId)]

/-- The window in which a payload is accepted. -/
def Payload.AcceptedAt (payload : Payload) (now : Int) : Prop :=
  now < payload.exp ∧ payload.iat ≤ now + 5 ∧ 0 < payload.exp - payload.iat ∧
    payload.exp - payload.iat ≤ tokenTtl

instance (payload : Payload) (now : Int) : Decidable (payload.AcceptedAt now) :=
  inferInstanceAs (Decidable (_ ∧ _))

namespace LicenseStore

variable {store : LicenseStore} {db db' : Database}

theorem payloadOf_fields (payload : Payload) :
  payloadOf payload.fields = some payload
  := by
  simp [payloadOf, Payload.fields, List.lookup_cons]

/-- The encodings round-trip: base64url and the hexadecimal digits of a key write no point, the key
verifies what it has signed, and the JSON of a token is read as it was written. -/
structure RoundTrips (store : LicenseStore) : Prop where
  kid : '.' ∉ store.kid.toList
  dumps : ∀ payload, '.' ∉ (store.dumps payload).toList
  sign : ∀ text, '.' ∉ (store.sign text).toList
  verify : ∀ text, store.verifySignature (store.sign text) text = true
  loads : ∀ payload, store.loads (store.dumps payload) = some payload.fields

/-- The payload of the token that is minted at `now`. -/
def mintedPayload (license : License) (device : Device) (now : Int) : Payload :=
  ⟨audience, license.id, device.id, device.keyId, now, min (now + tokenTtl) license.expiresAt⟩

/-- The parts of a minted token. -/
def mintedParts (store : LicenseStore) (payload : Payload) : List String :=
  ["v1", store.kid, store.dumps payload,
    store.sign ("VYNXDESK-TOKEN/1\n" ++ store.tokenMessage (store.dumps payload))]

/-- A minted token is split into its parts. -/
theorem mint_splitOn (h : store.RoundTrips) (license : License) (device : Device) (now : Int) :
  (store.mint license device now).token.splitOn "."
    = store.mintedParts (mintedPayload license device now)
  := by
  have hparts : ∀ part ∈ store.mintedParts (mintedPayload license device now),
      '.' ∉ part.toList := by
    simp only [mintedParts, List.forall_mem_cons, List.not_mem_nil, false_imp_iff, implies_true,
      and_true]
    exact ⟨by decide, h.kid, h.dumps _, h.sign _⟩
  have hjoin : (store.mint license device now).token
      = String.ofList (['.'].intercalate
          ((store.mintedParts (mintedPayload license device now)).map String.toList)) := by
    apply String.toList_injective
    simp [mint, mintedParts, mintedPayload, tokenMessage, List.intercalate_cons_cons]
  rw [hjoin]
  apply splitOn_join (List.cons_ne_nil _ _) hparts

/-- A minted token is accepted as its payload inside the window of the payload, and denied outside
it. -/
theorem verifyToken_mint (h : store.RoundTrips) (license : License) (device : Device)
    (now t : Int) :
  store.verifyToken (store.mint license device now).token t = do
    Routine.require ((mintedPayload license device now).AcceptedAt t) .authorizationDenied
    return mintedPayload license device now
  := by
  have hverified : store.verifySignature
      (store.sign ("VYNXDESK-TOKEN/1\n"
        ++ store.tokenMessage (store.dumps (mintedPayload license device now))))
      ("VYNXDESK-TOKEN/1\n" ++ "v1" ++ "." ++ store.kid ++ "."
        ++ store.dumps (mintedPayload license device now)) = true := by
    have htext : "VYNXDESK-TOKEN/1\n" ++ "v1" ++ "." ++ store.kid ++ "."
          ++ store.dumps (mintedPayload license device now)
        = "VYNXDESK-TOKEN/1\n"
          ++ store.tokenMessage (store.dumps (mintedPayload license device now)) := by
      apply String.toList_injective
      simp [tokenMessage]
    rw [htext]
    apply h.verify
  rw [verifyToken, mint_splitOn h, mintedParts]
  dsimp only
  rw [hverified, h.loads, Option.bind_some, payloadOf_fields]
  simp only [decide_true, and_self]
  rfl

/-- When a minted token is accepted, and as what. -/
theorem verifyToken_mint_yields (h : store.RoundTrips) {license : License} {device : Device}
    {now t : Int} {payload : Payload} :
  (store.verifyToken (store.mint license device now).token t).Yields db payload db' ↔
    (mintedPayload license device now).AcceptedAt t ∧
      payload = mintedPayload license device now ∧ db' = db
  := by
  rw [verifyToken_mint h, Routine.yields_require_bind, Routine.yields_pure, decide_eq_true_eq]

/-- When a minted token is denied. -/
theorem verifyToken_mint_raises (h : store.RoundTrips) {license : License} {device : Device}
    {now t : Int} {e : Error} :
  (store.verifyToken (store.mint license device now).token t).Raises db e db' ↔
    ¬ (mintedPayload license device now).AcceptedAt t ∧ e = .authorizationDenied ∧ db' = db
  := by
  rw [verifyToken_mint h, Routine.raises_bind]
  simp

/-- The token of a reply is good until it expires: it lives for a while, for `TOKEN_TTL` at most and
not longer than its license, and it is accepted from its issue until its expiry and never after. -/
structure GoodAs (store : LicenseStore) (license : License) (reply : Minted) (payload : Payload) :
    Prop where
  read : store.tokenPayload reply.token = some payload
  lifetime : 0 < payload.exp - payload.iat ∧ payload.exp - payload.iat ≤ tokenTtl
  expiresIn : 0 < reply.expiresIn
  licensed : payload.exp ≤ license.expiresAt
  accepted : ∀ db t, payload.iat ≤ t → t < payload.exp →
    (store.verifyToken reply.token t).Yields db payload db
  rejected : ∀ db t, payload.exp ≤ t →
    (store.verifyToken reply.token t).Raises db .authorizationDenied db

/-- The token of a reply has a payload as which it is good until it expires. -/
def Good (store : LicenseStore) (license : License) (reply : Minted) : Prop :=
  ∃ payload, store.GoodAs license reply payload

/-- A token that is minted before the end of its license is good. -/
theorem goodAs_mint (h : store.RoundTrips) {license : License} (device : Device) {now : Int}
    (hnow : now < license.expiresAt) :
  store.GoodAs license (store.mint license device now) (mintedPayload license device now)
  := by
  have hlifetime : 0 < min (now + tokenTtl) license.expiresAt - now := by
    rw [tokenTtl]
    omega
  have httl : min (now + tokenTtl) license.expiresAt - now ≤ tokenTtl := by
    omega
  have hread : store.tokenPayload (store.mint license device now).token
      = some (mintedPayload license device now) := by
    rw [tokenPayload, mint_splitOn h, mintedParts]
    dsimp only
    rw [h.loads, Option.bind_some, payloadOf_fields]
  refine ⟨hread, ⟨hlifetime, httl⟩, hlifetime, min_le_right _ _, ?_, ?_⟩
  · intro db t hissued hlive
    rw [verifyToken_mint_yields h]
    refine ⟨⟨hlive, ?_, hlifetime, httl⟩, rfl, rfl⟩
    omega
  · intro db t hexpired
    rw [verifyToken_mint_raises h]
    refine ⟨?_, rfl, rfl⟩
    rintro ⟨hlive, -⟩
    omega

/-- A minted token is good exactly when it is minted before the end of its license. -/
theorem good_mint_iff (h : store.RoundTrips) (license : License) (device : Device) (now : Int) :
  store.Good license (store.mint license device now) ↔ now < license.expiresAt
  := by
  constructor
  · rintro ⟨payload, hgood⟩
    have hexpires : 0 < min (now + tokenTtl) license.expiresAt - now := hgood.expiresIn
    omega
  · intro hnow
    use mintedPayload license device now
    apply goodAs_mint h device hnow

/-- The clock reading that a call mints its token with. -/
def mintReading : Call → ℕ
  | .activate _ _ _ _ => 3
  | _ => 2

/-- An activation mints a token of the license of its code. -/
theorem activate_mints {clock : ℕ → Int} {did code nonce signature : String} {reply : Minted}
    (h : (store.activate clock did code nonce signature).Yields db reply db') :
  ∃ named license device, db.licenseOfCode (store.sha code) = some named ∧
    db.licenseOf named.id = some license ∧ reply = store.mint license device (clock 3)
  := by
  simp [activate, Routine.yields_bind, consume_yields, license_yields] at h
  obtain ⟨_, _, named, hnamed, license, ⟨hlicense, _⟩, device, _, rfl⟩ := h
  use named, license, device, hnamed, hlicense

/-- A refresh mints a token of the license of its device. -/
theorem refresh_mints {clock : ℕ → Int} {activationId nonce signature : String} {reply : Minted}
    (h : (store.refresh clock activationId nonce signature).Yields db reply db') :
  ∃ device license, db.deviceOf activationId = some device ∧
    db.licenseOf device.licenseId = some license ∧ reply = store.mint license device (clock 2)
  := by
  simp [refresh, Routine.yields_bind, consume_yields, license_yields] at h
  obtain ⟨_, _, device, hdevice, _, license, ⟨hlicense, _⟩, rfl⟩ := h
  use device, license, hdevice, hlicense

/-- A request that returns a token has found its license, and the token is good exactly when the
clock has not reached the end of the license when the token is minted. -/
theorem mints_iff (henc : store.RoundTrips) {r : Request} {reply : Minted}
    (h : (store.exec r).Yields db (.minted reply) db') :
  ∃ lid license, store.licenseFor db r.call = some lid ∧ db.licenseOf lid = some license ∧
    (store.Good license reply ↔ r.clock (mintReading r.call) < license.expiresAt)
  := by
  obtain ⟨call, clock⟩ := r
  cases call with
  | activate did code nonce signature =>
      simp [exec] at h
      obtain ⟨named, license, device, hnamed, hlicense, rfl⟩ := activate_mints h
      refine ⟨named.id, license, ?_, hlicense, good_mint_iff henc license device (clock 3)⟩
      rw [licenseFor, hnamed, Option.map_some]
  | refresh activationId nonce signature =>
      simp [exec] at h
      obtain ⟨device, license, hdevice, hlicense, rfl⟩ := refresh_mints h
      refine ⟨device.licenseId, license, ?_, hlicense, good_mint_iff henc license device (clock 2)⟩
      rw [licenseFor, hdevice, Option.map_some]
  | _ => simp [exec] at h

/-! ### A refresh in the last second of a license -/

/-- The numbers of a payload. -/
def payloadNumbers (payload : Payload) : (List ℕ × List ℕ × List ℕ × List ℕ) × Int × Int :=
  ((payload.aud.toList.map Char.toNat, payload.licenseId.toList.map Char.toNat,
    payload.activationId.toList.map Char.toNat, payload.keyId.toList.map Char.toNat),
    payload.iat, payload.exp)

/-- The payload of its numbers. -/
def ofPayloadNumbers (numbers : (List ℕ × List ℕ × List ℕ × List ℕ) × Int × Int) : Payload :=
  let text (codes : List ℕ) := String.ofList (codes.map Char.ofNat)
  ⟨text numbers.1.1, text numbers.1.2.1, text numbers.1.2.2.1, text numbers.1.2.2.2, numbers.2.1,
    numbers.2.2⟩

theorem ofPayloadNumbers_payloadNumbers (payload : Payload) :
  ofPayloadNumbers (payloadNumbers payload) = payload
  := by
  have htext (s : String) :
      String.ofList ((s.toList.map Char.toNat).map Char.ofNat) = s := by
    rw [List.map_map]
    simp [Function.comp_def]
  simp only [ofPayloadNumbers, payloadNumbers, htext]

/-- A payload in unary. -/
@[irreducible]
def unaryDumps (payload : Payload) : String :=
  String.ofList (List.replicate (Encodable.encode (payloadNumbers payload)) '1')

/-- The fields of a payload in unary. -/
@[irreducible]
def unaryLoads (encoded : String) : Option (List (String × Value)) :=
  (Encodable.decode encoded.toList.length).map fun numbers => (ofPayloadNumbers numbers).fields

theorem unaryLoads_unaryDumps (payload : Payload) :
  unaryLoads (unaryDumps payload) = some payload.fields
  := by
  delta unaryLoads unaryDumps
  rw [String.toList_ofList, List.length_replicate, Encodable.encodek, Option.map_some,
    ofPayloadNumbers_payloadNumbers]

/-- A store that writes its tokens in unary. -/
def unaryStore : LicenseStore where
  sha256 _ := "hash"
  loadDeviceKey _ := some [1]
  verify key signature _ := key = [1] ∧ signature = "signed"
  kid := "kid"
  sign _ := "signature"
  verifySignature signature _ := signature = "signature"
  dumps := unaryDumps
  loads := unaryLoads
  identity address := address
  actor := "local-operator"

theorem unaryStore_roundTrips : unaryStore.RoundTrips
  := by
  constructor
  · decide
  · intro payload
    change '.' ∉ (unaryDumps payload).toList
    simp [unaryDumps]
  · intro text
    change '.' ∉ "signature".toList
    decide
  · intro text
    rfl
  · apply unaryLoads_unaryDumps

/-- A license until 100. -/
def lastLicense : License := ⟨"license", "code", 100, 1, false⟩

/-- The device of the license. -/
def lastDevice : Device := ⟨"device", "license", "key", [1], 0, false⟩

/-- The license and its device, with a challenge for a refresh. -/
def lastSecond : Database where
  licenses := [lastLicense]
  devices := [lastDevice]
  challenges := [⟨"nonce", [1], "key", "refresh", "hash", 150⟩]
  operatorEvents := []
  requestRates := []

/-- A refresh that checks the license at 99 and mints at `now`. -/
def refreshAt (now : Int) : Request :=
  ⟨.refresh "device" "nonce" "signed", fun i => if i < 2 then 99 else now⟩

theorem refreshAt_yields (now : Int) :
  (unaryStore.exec (refreshAt now)).Yields lastSecond
    (.minted (unaryStore.mint lastLicense lastDevice now)) (lastSecond.spend "nonce")
  := rfl

theorem mints_before :
  unaryStore.Good lastLicense (unaryStore.mint lastLicense lastDevice 99)
  := by
  obtain ⟨lid, license, hfor, hlicense, hiff⟩ :=
    mints_iff unaryStore_roundTrips (refreshAt_yields 99)
  obtain rfl : "license" = lid := Option.some.inj hfor
  obtain rfl : lastLicense = license := Option.some.inj hlicense
  apply hiff.mpr
  decide

/-- A refresh in the last second of a license returns a token that is good for nothing, when the
clock ticks between the check of the license and the mint. -/
theorem not_mints :
  ¬ ∀ (store : LicenseStore) (db db' : Database) (r : Request) (reply : Minted),
    store.RoundTrips → Monotone r.clock → (store.exec r).Yields db (.minted reply) db' →
    ∀ lid license, store.licenseFor db r.call = some lid → db.licenseOf lid = some license →
      store.Good license reply
  := by
  intro h
  have hclock : Monotone (refreshAt 100).clock := by
    intro i j hij
    simp only [refreshAt]
    split_ifs
    · apply Int.le_refl
    · decide
    · omega
    · apply Int.le_refl
  have hgood := h unaryStore lastSecond _ (refreshAt 100) _ unaryStore_roundTrips hclock
    (refreshAt_yields 100) "license" lastLicense rfl rfl
  rw [good_mint_iff unaryStore_roundTrips] at hgood
  revert hgood
  decide

end LicenseStore

end VynxDesk.Licensing
