import Mathlib.Data.Option.Basic

/-!
# The shared memory of the portable service

The main process and its helper, the portable service, talk through a shared memory.  Its mapping,
its name and the one-time token with which the helper authenticates itself lie under three locks.
Here are the operations on the three.  Each of them holds all of the locks it needs until its last
write, so it is one step.
-/

namespace VynxDesk.Portable

variable {Token Name : Type*} [DecidableEq Token] [DecidableEq Name]

/-- `SHMEM`, with the token written in the mapping, `SHMEM_RUNTIME_NAME` and `IPC_RUNTIME_TOKEN`.
-/
structure Runtime (Token Name : Type*) where
  shmem : Option (Option Token)
  shmemRuntimeName : Option Name
  ipcRuntimeToken : Option Token
  deriving DecidableEq

namespace Runtime

/-- `clear_runtime_shmem_state`. -/
def clearRuntimeShmemState (_ : Runtime Token Name) : Runtime Token Name := ⟨none, none, none⟩

/-- What `start_portable_service` does under the lock of `SHMEM`: it creates the mapping, names it
and writes the token into it, unless the token is not `writable`. -/
def createShmem (r : Runtime Token Name) (shmemName : Name) (ipcToken : Token) (writable : Bool) :
    Runtime Token Name :=
  { r with
    shmem := some (if writable then some ipcToken else none)
    shmemRuntimeName := some shmemName }

/-- `set_runtime_ipc_token`. -/
def setRuntimeIpcToken (r : Runtime Token Name) (token : Token) : Runtime Token Name :=
  { r with ipcRuntimeToken := some token }

/-- `consume_runtime_ipc_token_if_match`. -/
def consumeRuntimeIpcTokenIfMatch (r : Runtime Token Name) (candidate : Token) :
    Runtime Token Name × Bool × Option Name :=
  if r.ipcRuntimeToken = some candidate then
    ({ r with ipcRuntimeToken := none, shmem := r.shmem.map fun _ => none }, true,
      r.shmemRuntimeName)
  else (r, false, none)

/-- The restoration gives up: a stored copy of the token is dropped. -/
def dropToken (r : Runtime Token Name) (token : Token) : Runtime Token Name :=
  if r.ipcRuntimeToken = some token then { r with ipcRuntimeToken := none } else r

/-- `restore_runtime_ipc_token_after_failed_handshake`, where the token may not be `writable`. -/
def restoreRuntimeIpcTokenAfterFailedHandshake (r : Runtime Token Name) (token : Token)
    (expectedShmemName : Option Name) (writable : Bool) : Runtime Token Name :=
  if r.ipcRuntimeToken.any (fun current => current ≠ token) then r
  else if r.shmemRuntimeName ≠ expectedShmemName then r.dropToken token
  else
    match r.shmem with
    | none => r.dropToken token
    | some _ =>
        if writable then { r with shmem := some (some token), ipcRuntimeToken := some token }
        else r.dropToken token

variable {r : Runtime Token Name} {tok : Token}

omit [DecidableEq Name] in
@[simp]
theorem shmemRuntimeName_dropToken :
  (r.dropToken tok).shmemRuntimeName = r.shmemRuntimeName
  := by
  rw [dropToken]
  split <;> rfl

omit [DecidableEq Name] in
theorem ipcRuntimeToken_dropToken {stored : Token}
    (h : (r.dropToken tok).ipcRuntimeToken = some stored) :
  r.ipcRuntimeToken = some stored
  := by
  rw [dropToken] at h
  split at h
  next => cases h
  next => exact h

variable (r tok) in
/-- A restoration leaves the name of the shared memory. -/
@[simp]
theorem shmemRuntimeName_restore (expected : Option Name) (writable : Bool) :
  (r.restoreRuntimeIpcTokenAfterFailedHandshake tok expected writable).shmemRuntimeName
    = r.shmemRuntimeName
  := by
  rw [restoreRuntimeIpcTokenAfterFailedHandshake.eq_def]
  split
  · rfl
  split
  · apply shmemRuntimeName_dropToken
  split
  · apply shmemRuntimeName_dropToken
  split
  · rfl
  · apply shmemRuntimeName_dropToken

/-- A token that is stored after a restoration was stored before, or is the restored one and the
shared memory still has the expected name. -/
theorem ipcRuntimeToken_restore {expected : Option Name} {writable : Bool} {stored : Token}
    (h : (r.restoreRuntimeIpcTokenAfterFailedHandshake tok expected writable).ipcRuntimeToken
      = some stored) :
  r.ipcRuntimeToken = some stored ∨ stored = tok ∧ r.shmemRuntimeName = expected
  := by
  rw [restoreRuntimeIpcTokenAfterFailedHandshake.eq_def] at h
  split at h
  next => exact Or.inl h
  next =>
      split at h
      next => exact Or.inl (ipcRuntimeToken_dropToken h)
      next hname =>
          split at h
          next => exact Or.inl (ipcRuntimeToken_dropToken h)
          next =>
              split at h
              next => exact Or.inr ⟨(Option.some.inj h).symm, not_not.mp hname⟩
              next => exact Or.inl (ipcRuntimeToken_dropToken h)

end Runtime

end VynxDesk.Portable
