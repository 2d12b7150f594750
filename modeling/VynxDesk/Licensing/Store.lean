import VynxDesk.Licensing.Database
import Mathlib.Data.Int.Basic
import Mathlib.Data.String.Basic

/-!
# The license store

`LicenseStore` of `services/licensing/service.py`.  Its cryptography, the JSON of its tokens and
the address digest are parameters; what `secrets` and `uuid` draw are arguments of the calls.
A call reads the clock more than once: `clock i` is what its reading number `i` returns, and
nothing is assumed about the readings.  `LicenseStore.exec` runs a request, and `LicenseStore.Step`
is the transition relation of the database: transactions are serialised by `BEGIN IMMEDIATE`, so
that a run of the service is a sequence of requests.
-/

namespace VynxDesk.Licensing

/-- `TOKEN_TTL`. -/
def tokenTtl : Int := 300

/-- `CHALLENGE_TTL`. -/
def challengeTtl : Int := 90

/-- `AUDIENCE`. -/
def audience : String := "vynxdesk-managed-devices"

/-- The fields of a token, as `_mint` writes them. -/
structure Payload where
  aud : String
  licenseId : String
  activationId : String
  keyId : String
  iat : Int
  exp : Int
  deriving DecidableEq, Repr

/-- The value of a field of a JSON object, as far as `_verify_token` looks at it. -/
inductive Value where
  | int (n : Int)
  | str (s : String)
  | other
  deriving DecidableEq, Repr

/-- The store's signing key and what its calls use of the cryptography and JSON libraries. -/
structure LicenseStore where
  /-- `hashlib.sha256(…).hexdigest()`. -/
  sha256 : Bytes → String
  /-- `load_device_key`: the DER form of a canonical P-256 public key, when the text is one. -/
  loadDeviceKey : String → Option Bytes
  /-- Whether `key.verify` accepts the decoded signature of a message: key, signature, message. -/
  verify : Bytes → String → String → Bool
  /-- `self.kid`. -/
  kid : String
  /-- The encoded signature of a token's signed text. -/
  sign : String → String
  /-- Whether `public_key().verify` accepts the encoded signature of a text: signature, text. -/
  verifySignature : String → String → Bool
  /-- `b64url(json.dumps(payload))`. -/
  dumps : Payload → String
  /-- `json.loads(unb64url(encoded))`, when it is an object. -/
  loads : String → Option (List (String × Value))
  /-- The keyed digest of an address. -/
  identity : String → String
  /-- The actor of operator events. -/
  actor : String

/-- The reply of `issue`. -/
structure Issued where
  id : String
  code : String
  expiresAt : Int
  maxDevices : Int
  deriving DecidableEq, Repr

/-- The reply of `_mint`. -/
structure Minted where
  token : String
  activationId : String
  expiresIn : Int
  service : String
  deriving DecidableEq, Repr

/-- The reply of `devices`. -/
structure Inventory where
  devices : List (String × Int)
  maxDevices : Int
  expiresAt : Int
  service : String
  relayAuthorization : String
  deriving DecidableEq, Repr

namespace LicenseStore

variable (store : LicenseStore)

/-- `sha` of a text. -/
def sha (value : String) : String := store.sha256 value.toUTF8.toList

/-- `_audit`. -/
def audit (action licenseId : String) (deviceId : Option String) (details : List (String × Int))
    (now : Int) : Statements Unit :=
  insertOperatorEvent fun id => ⟨id, now, store.actor, action, licenseId, deviceId, details⟩

/-- `audit_events`. -/
def auditEvents (limit : Int) : Statements (List OperatorEvent) := do
  Routine.require (1 ≤ limit ∧ limit ≤ 1000) (.ValueError "limit must be 1..1000")
  Routine.read fun db => db.operatorEvents.reverse.take limit.toNat

/-- `issue`: `token` is what `secrets.token_urlsafe(32)` draws, `uuid` what `uuid.uuid4()`. -/
def issue (clock : ℕ → Int) (token uuid : String) (days maxDevices : Int) :
    Statements Issued := do
  Routine.require ((1 ≤ days ∧ days ≤ 3650) ∧ 1 ≤ maxDevices ∧ maxDevices ≤ 1000)
    (.ValueError "days must be 1..3650 and max_devices 1..1000")
  let code := "vxd_" ++ token
  let expiry := clock 0 + days * 86400
  Routine.atomic do
    insertLicense ⟨uuid, store.sha code, expiry, maxDevices, false⟩
    store.audit "issue" uuid none [("expires_at", expiry), ("max_devices", maxDevices)] (clock 1)
    return ⟨uuid, code, expiry, maxDevices⟩

/-- `extend`. -/
def extend (clock : ℕ → Int) (licenseId : String) (days : Int) : Statements Int := do
  Routine.require (1 ≤ days ∧ days ≤ 3650) (.ValueError "days must be 1..3650")
  Routine.atomic do
    let found ← Routine.read fun db => db.licenses.find? fun l => l.id = licenseId ∧ ¬ l.revoked
    let row ← Routine.expect found (.ValueError "Unknown or revoked license")
    let expiry := max (clock 0) row.expiresAt + days * 86400
    let _ ← updateLicenses (·.id = licenseId) fun l => { l with expiresAt := expiry }
    store.audit "extend" licenseId none [("expires_at", expiry), ("days", days)] (clock 1)
    return expiry

/-- `revoke`. -/
def revoke (clock : ℕ → Int) (licenseId : String) : Statements Unit :=
  Routine.atomic do
    let count ← updateLicenses (·.id = licenseId) fun l => { l with revoked := true }
    Routine.require (count = 1) (.ValueError "Unknown license")
    store.audit "revoke" licenseId none [] (clock 0)

/-- `rotate_code`. -/
def rotateCode (clock : ℕ → Int) (token licenseId : String) : Statements String := do
  let code := "vxd_" ++ token
  Routine.atomic do
    let count ← updateCodeHash (fun l => l.id = licenseId ∧ ¬ l.revoked) (store.sha code)
    Routine.require (count = 1) (.ValueError "Unknown or revoked license")
    store.audit "rotate-code" licenseId none [] (clock 0)
    return code

/-- `release_device`. -/
def releaseDevice (clock : ℕ → Int) (licenseId deviceId : String) : Statements Unit :=
  Routine.atomic do
    let count ← updateDevices (fun d => d.id = deviceId ∧ d.licenseId = licenseId)
      fun d => { d with revoked := true }
    Routine.require (count = 1) (.ValueError "Unknown device")
    store.audit "release-device" licenseId (some deviceId) [] (clock 0)

/-- One turn of the loop of `rate_limit`: whether `key` is over its limit. -/
def overLimit (bucket : Int) (key : String) (limit : Nat) : Statements Bool := do
  countRequest key bucket
  let count ← Routine.read (·.requestCount key bucket)
  return limit < count

/-- `rate_limit`: the request is counted also when it is denied. -/
def rateLimit (clock : ℕ → Int) (address : String) : Statements Unit := do
  let bucket := clock 0 / 60
  let limited ← Routine.atomic do
    deleteRequestRates (bucket - 1)
    let byAddress ← overLimit bucket (store.identity address) 60
    let byAll ← overLimit bucket "global" 600
    return byAddress || byAll
  Routine.require (!limited) (.Denied 429 "rate_limited")

/-- `challenge`: the nonce is what `secrets.token_urlsafe(32)` draws. -/
def challenge (clock : ℕ → Int) (nonce publicKey operation binding : String) :
    Statements String := do
  let der ← Routine.expect (store.loadDeviceKey publicKey) (.Denied 400 "invalid_device_key")
  let now := clock 0
  Routine.atomic do
    deleteChallenges (·.expiresAt ≤ now)
    let pending ← Routine.read (·.challenges.length)
    Routine.require (pending < 2000) (.Denied 429 "challenge_capacity")
    let ofKey ← Routine.read (·.challenges.countP (·.keyId = store.sha256 der))
    Routine.require (ofKey < 10) (.Denied 429 "challenge_capacity")
    insertChallenge ⟨nonce, der, store.sha256 der, operation, binding, now + challengeTtl⟩
    return nonce

/-- The text a device signs to use a challenge. -/
def challengeMessage (operation nonce binding : String) : String :=
  "VYNXDESK/1\n" ++ operation ++ "\n" ++ nonce ++ "\n" ++ binding

/-- `_consume`. -/
def consume (nonce signature operation binding : String) (now : Int) : Statements Challenge := do
  let found ← Routine.read (·.challengeOf nonce)
  let row ← Routine.expect found .authorizationDenied
  Routine.require (now < row.expiresAt ∧ row.operation = operation ∧ row.binding = binding)
    .authorizationDenied
  Routine.require
    (store.verify row.publicKey signature (challengeMessage operation nonce binding))
    .authorizationDenied
  deleteChallenges (·.nonce = nonce)
  return row

/-- `_license`. -/
def license (lid : String) (now : Int) : Statements License := do
  let found ← Routine.read (·.licenseOf lid)
  let row ← Routine.expect found .authorizationDenied
  Routine.require (!row.revoked ∧ now < row.expiresAt) .authorizationDenied
  return row

/-- The part of a token that is signed. -/
def tokenMessage (encoded : String) : String := "v1." ++ store.kid ++ "." ++ encoded

/-- `_mint`. -/
def mint (license : License) (device : Device) (now : Int) : Minted :=
  let expiry := min (now + tokenTtl) license.expiresAt
  let message :=
    store.tokenMessage (store.dumps ⟨audience, license.id, device.id, device.keyId, now, expiry⟩)
  ⟨message ++ "." ++ store.sign ("VYNXDESK-TOKEN/1\n" ++ message), device.id, expiry - now,
    audience⟩

/-- The device an activation is for: the one its key already has, or a new one when the license
has a slot left; `did` is what `uuid.uuid4()` draws. -/
def enrol (license : License) (proof : Challenge) (did : String) (now : Int) :
    Statements Device := do
  let found ← Routine.read (·.deviceOfKey license.id proof.keyId)
  match found with
  | some device => do
      Routine.require (!device.revoked) .authorizationDenied
      return device
  | none => do
      let count ← Routine.read (·.activeDevices license.id |>.length)
      Routine.require (count < license.maxDevices) (.Denied 409 "device_limit_reached")
      insertDevice ⟨did, license.id, proof.keyId, proof.publicKey, now, false⟩
      let created ← Routine.read (·.deviceOf did)
      Routine.expect created .TypeError

/-- `activate`. -/
def activate (clock : ℕ → Int) (did code nonce signature : String) : Statements Minted :=
  Routine.atomic do
    let proof ← store.consume nonce signature "activate" (store.sha code) (clock 0)
    let found ← Routine.read (·.licenseOfCode (store.sha code))
    let named ← Routine.expect found .authorizationDenied
    let license ← license named.id (clock 1)
    let device ← enrol license proof did (clock 2)
    return store.mint license device (clock 3)

/-- `refresh`. -/
def refresh (clock : ℕ → Int) (activationId nonce signature : String) : Statements Minted :=
  Routine.atomic do
    let proof ← store.consume nonce signature "refresh" (store.sha activationId) (clock 0)
    let found ← Routine.read (·.deviceOf activationId)
    let device ← Routine.expect found .authorizationDenied
    Routine.require (!device.revoked ∧ device.keyId = proof.keyId) .authorizationDenied
    let license ← license device.licenseId (clock 1)
    return store.mint license device (clock 2)

/-- The fields of a token's object, when it has exactly those of a token and they are of their
types. -/
def payloadOf (fields : List (String × Value)) : Option Payload :=
  if fields.map Prod.fst ⊆ ["aud", "license_id", "activation_id", "key_id", "iat", "exp"] then
    match fields.lookup "aud", fields.lookup "license_id", fields.lookup "activation_id",
      fields.lookup "key_id", fields.lookup "iat", fields.lookup "exp" with
    | some (.str aud), some (.str licenseId), some (.str activationId), some (.str keyId),
      some (.int iat), some (.int exp) => some ⟨aud, licenseId, activationId, keyId, iat, exp⟩
    | _, _, _, _, _, _ => none
  else none

/-- `_verify_token`: every failure is the same denial. -/
def verifyToken (token : String) (now : Int) : Statements Payload :=
  match token.splitOn "." with
  | [version, kid, encoded, signature] => do
      Routine.require (version = "v1" ∧ kid = store.kid) .authorizationDenied
      Routine.require
        (store.verifySignature signature
          ("VYNXDESK-TOKEN/1\n" ++ version ++ "." ++ kid ++ "." ++ encoded))
        .authorizationDenied
      let payload ← Routine.expect ((store.loads encoded).bind payloadOf) .authorizationDenied
      Routine.require (payload.aud = audience) .authorizationDenied
      Routine.require
        (now < payload.exp ∧ payload.iat ≤ now + 5 ∧ 0 < payload.exp - payload.iat ∧
          payload.exp - payload.iat ≤ tokenTtl)
        .authorizationDenied
      return payload
  | _ => Routine.raise .authorizationDenied

/-- `ORDER BY activated_at,id`. -/
def byActivation (d d' : Device) : Bool :=
  d.activatedAt < d'.activatedAt ∨ d.activatedAt = d'.activatedAt ∧ d.id ≤ d'.id

/-- `devices`. -/
def devices (clock : ℕ → Int) (token nonce signature : String) : Statements Inventory := do
  let payload ← store.verifyToken token (clock 0)
  Routine.atomic do
    Routine.require (clock 1 < payload.exp) .authorizationDenied
    let proof ← store.consume nonce signature "devices" (store.sha token) (clock 2)
    Routine.require (proof.keyId = payload.keyId) .authorizationDenied
    let license ← license payload.licenseId (clock 3)
    let found ← Routine.read fun db => db.devices.find? fun d =>
      d.id = payload.activationId ∧ d.licenseId = license.id
    let device ← Routine.expect found .authorizationDenied
    Routine.require (!device.revoked ∧ device.keyId = proof.keyId) .authorizationDenied
    let rows ← Routine.read fun db => (db.activeDevices license.id).mergeSort byActivation
    return ⟨rows.map fun d => (d.id, d.activatedAt), license.maxDevices, license.expiresAt,
      audience, "not-integrated"⟩

/-- A call of the store, with what it draws. -/
inductive Call where
  | issue (token uuid : String) (days maxDevices : Int)
  | extend (licenseId : String) (days : Int)
  | revoke (licenseId : String)
  | rotateCode (token licenseId : String)
  | releaseDevice (licenseId deviceId : String)
  | auditEvents (limit : Int)
  | rateLimit (address : String)
  | challenge (nonce publicKey operation binding : String)
  | activate (did code nonce signature : String)
  | refresh (activationId nonce signature : String)
  | devices (token nonce signature : String)
  deriving DecidableEq, Repr

/-- What a call returns. -/
inductive Reply where
  | issued (reply : Issued)
  | expiry (at' : Int)
  | done
  | code (code : String)
  | events (events : List OperatorEvent)
  | challenged (nonce : String) (expiresIn : Int)
  | minted (reply : Minted)
  | inventory (reply : Inventory)
  deriving DecidableEq, Repr

/-- A call with the clock readings it meets. -/
structure Request where
  call : Call
  clock : ℕ → Int

/-- Runs a request. -/
def exec (r : Request) : Statements Reply :=
  match r.call with
  | .issue token uuid days maxDevices => do
      return .issued (← store.issue r.clock token uuid days maxDevices)
  | .extend licenseId days => do return .expiry (← store.extend r.clock licenseId days)
  | .revoke licenseId => do
      store.revoke r.clock licenseId
      return .done
  | .rotateCode token licenseId => do return .code (← store.rotateCode r.clock token licenseId)
  | .releaseDevice licenseId deviceId => do
      store.releaseDevice r.clock licenseId deviceId
      return .done
  | .auditEvents limit => do return .events (← auditEvents limit)
  | .rateLimit address => do
      store.rateLimit r.clock address
      return .done
  | .challenge nonce publicKey operation binding => do
      return .challenged (← store.challenge r.clock nonce publicKey operation binding) challengeTtl
  | .activate did code nonce signature => do
      return .minted (← store.activate r.clock did code nonce signature)
  | .refresh activationId nonce signature => do
      return .minted (← store.refresh r.clock activationId nonce signature)
  | .devices token nonce signature => do
      return .inventory (← store.devices r.clock token nonce signature)

/-- One transaction of the database: a request, which returns or raises, and leaves `db'`. -/
def Step (db : Database) (r : Request) (db' : Database) : Prop := (store.exec r db).2 = db'

end LicenseStore

end VynxDesk.Licensing
