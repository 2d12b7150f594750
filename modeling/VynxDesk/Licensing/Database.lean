import VynxDesk.Lib.Routine
import Mathlib.Data.List.Nodup

/-!
# The license database

The tables of `services/licensing/service.py` and the statements its transactions are made of.
A statement that breaks a `PRIMARY KEY`, `UNIQUE` or `REFERENCES` clause of the schema raises
`Error.IntegrityError`, as SQLite does with `PRAGMA foreign_keys=ON`.  Columns `revoked` hold
`0` or `1`, and are booleans here.
-/

namespace VynxDesk.Licensing

/-- The bytes of a key in DER form. -/
abbrev Bytes : Type := List UInt8

/-- A row of `licenses`. -/
structure License where
  id : String
  codeHash : String
  expiresAt : Int
  maxDevices : Int
  revoked : Bool
  deriving DecidableEq, Repr

/-- A row of `devices`. -/
structure Device where
  id : String
  licenseId : String
  keyId : String
  publicKey : Bytes
  activatedAt : Int
  revoked : Bool
  deriving DecidableEq, Repr

/-- A row of `challenges`. -/
structure Challenge where
  nonce : String
  publicKey : Bytes
  keyId : String
  operation : String
  binding : String
  expiresAt : Int
  deriving DecidableEq, Repr

/-- A row of `operator_events`; `details` are the fields of its JSON text. -/
structure OperatorEvent where
  id : Nat
  occurredAt : Int
  actor : String
  action : String
  licenseId : String
  deviceId : Option String
  details : List (String × Int)
  deriving DecidableEq, Repr

/-- A row of `request_rates`. -/
structure RequestRate where
  identity : String
  bucket : Int
  count : Nat
  deriving DecidableEq, Repr

/-- The tables. -/
structure Database where
  licenses : List License
  devices : List Device
  challenges : List Challenge
  operatorEvents : List OperatorEvent
  requestRates : List RequestRate
  deriving DecidableEq, Repr

/-- The tables as the schema creates them. -/
def Database.empty : Database := ⟨[], [], [], [], []⟩

/-- What a call of the store raises: `Denied` with its status and code, a `ValueError` with its
text, SQLite's integrity error, or the error of taking a column of a row that is not there. -/
inductive Error where
  | Denied (status : Nat) (code : String)
  | ValueError (text : String)
  | IntegrityError
  | TypeError
  deriving DecidableEq, Repr

/-- `Denied()`. -/
def Error.authorizationDenied : Error := .Denied 401 "authorization_denied"

/-- What runs between `BEGIN IMMEDIATE` and `COMMIT`. -/
abbrev Statements (α : Type) : Type := Routine Database Error α

namespace Database

variable (db : Database)

/-- `SELECT * FROM licenses WHERE id=?`. -/
def licenseOf (id : String) : Option License := db.licenses.find? (·.id = id)

/-- `SELECT * FROM licenses WHERE code_hash=?`. -/
def licenseOfCode (codeHash : String) : Option License :=
  db.licenses.find? (·.codeHash = codeHash)

/-- `SELECT * FROM devices WHERE id=?`. -/
def deviceOf (id : String) : Option Device := db.devices.find? (·.id = id)

/-- `SELECT * FROM devices WHERE license_id=? AND key_id=?`. -/
def deviceOfKey (licenseId keyId : String) : Option Device :=
  db.devices.find? fun d => d.licenseId = licenseId ∧ d.keyId = keyId

/-- The devices of a license with `revoked=0`. -/
def activeDevices (licenseId : String) : List Device :=
  db.devices.filter fun d => d.licenseId = licenseId ∧ ¬ d.revoked

/-- `SELECT * FROM challenges WHERE nonce=?`. -/
def challengeOf (nonce : String) : Option Challenge := db.challenges.find? (·.nonce = nonce)

end Database

/-- `INSERT INTO licenses`. -/
def insertLicense (row : License) : Statements Unit := do
  let taken ← Routine.read fun db =>
    db.licenses.any fun l => l.id = row.id ∨ l.codeHash = row.codeHash
  Routine.require (!taken) .IntegrityError
  Routine.write fun db => { db with licenses := db.licenses ++ [row] }

/-- `UPDATE licenses SET … WHERE …`, of a column other than `code_hash`; returns the row count. -/
def updateLicenses (where' : License → Bool) (set : License → License) : Statements Nat := do
  let count ← Routine.read fun db => db.licenses.countP where'
  Routine.write fun db =>
    { db with licenses := db.licenses.map fun l => if where' l then set l else l }
  return count

/-- `UPDATE licenses SET code_hash=? WHERE …`: no other row may hold the new hash. -/
def updateCodeHash (where' : License → Bool) (codeHash : String) : Statements Nat := do
  let taken ← Routine.read fun db =>
    db.licenses.any where' && db.licenses.any fun l => !where' l && l.codeHash = codeHash
  Routine.require (!taken) .IntegrityError
  updateLicenses where' fun l => { l with codeHash }

/-- `INSERT INTO devices`. -/
def insertDevice (row : Device) : Statements Unit := do
  let taken ← Routine.read fun db =>
    db.devices.any fun d => d.id = row.id ∨ d.licenseId = row.licenseId ∧ d.keyId = row.keyId
  Routine.require (!taken) .IntegrityError
  let owned ← Routine.read fun db => (db.licenseOf row.licenseId).isSome
  Routine.require owned .IntegrityError
  Routine.write fun db => { db with devices := db.devices ++ [row] }

/-- `UPDATE devices SET … WHERE …`; returns the row count. -/
def updateDevices (where' : Device → Bool) (set : Device → Device) : Statements Nat := do
  let count ← Routine.read fun db => db.devices.countP where'
  Routine.write fun db =>
    { db with devices := db.devices.map fun d => if where' d then set d else d }
  return count

/-- `INSERT INTO challenges`. -/
def insertChallenge (row : Challenge) : Statements Unit := do
  let taken ← Routine.read fun db => db.challenges.any (·.nonce = row.nonce)
  Routine.require (!taken) .IntegrityError
  Routine.write fun db => { db with challenges := db.challenges ++ [row] }

/-- `DELETE FROM challenges WHERE …`. -/
def deleteChallenges (where' : Challenge → Bool) : Statements Unit :=
  Routine.write fun db => { db with challenges := db.challenges.filter (!where' ·) }

/-- `INSERT INTO operator_events`, its `id` the next of the `AUTOINCREMENT` sequence: no row of
the table is ever deleted. -/
def insertOperatorEvent (row : Nat → OperatorEvent) : Statements Unit :=
  Routine.write fun db =>
    { db with operatorEvents := db.operatorEvents ++ [row (db.operatorEvents.length + 1)] }

/-- `DELETE FROM request_rates WHERE bucket<?`. -/
def deleteRequestRates (bucket : Int) : Statements Unit :=
  Routine.write fun db =>
    { db with requestRates := db.requestRates.filter fun r => ¬ r.bucket < bucket }

/-- `INSERT INTO request_rates VALUES(?,?,1) ON CONFLICT(identity,bucket) DO UPDATE SET
count=MIN(count+1,1000000)`. -/
def countRequest (identity : String) (bucket : Int) : Statements Unit :=
  Routine.write fun db =>
    if db.requestRates.any fun r => r.identity = identity ∧ r.bucket = bucket then
      { db with
        requestRates := db.requestRates.map fun r =>
          if r.identity = identity ∧ r.bucket = bucket then
            { r with count := min (r.count + 1) 1000000 }
          else r }
    else { db with requestRates := db.requestRates ++ [⟨identity, bucket, 1⟩] }

/-- `SELECT count FROM request_rates WHERE identity=? AND bucket=?`. -/
def Database.requestCount (db : Database) (identity : String) (bucket : Int) : Nat :=
  ((db.requestRates.find? fun r => r.identity = identity ∧ r.bucket = bucket).map (·.count)).getD 0

end VynxDesk.Licensing
