import Mathlib.Data.List.Basic
import Mathlib.Logic.Function.Basic
import VynxDesk.Lib.Run
import VynxDesk.Portable.Runtime

/-!
# The launches of the portable service

The calls of `start_portable_service`, the watchdogs of their launches, the token handshakes of the
IPC server and the tasks of the IPC connections share `RUNNING`, `STARTING`, `STARTING_TOKEN` and
the shared memory.  A step is what one of them does under one lock, or all its work between two
locks.  Launches are numbered as `STARTING_TOKEN` does, which is a `u64`: a run of the source has
fewer than `2 ^ 64` of them.  The `n`-th one generates the token `token n` and the shared-memory
name `name n`.

The history of a run is kept beside its state: the launches that are pending, those that have
cleared the shared memory, and the tokens that were consumed and accepted.
-/

namespace VynxDesk.Portable

/-- Where the thread of a launch is, once it has passed the check of `STARTING`. -/
inductive Phase where
  | clearing
  | creating
  | storing
  | spawning
  | arming
  | started
  | clearFailed
  | failing
  | failed
  deriving DecidableEq

/-- Whether the launch is still to store its token. -/
def Phase.early : Phase → Bool
  | .clearing | .creating | .storing => true
  | .spawning | .arming | .started | .clearFailed | .failing | .failed => false

/-- What creating the shared memory comes to. -/
inductive Creation where
  | created
  | unwritten
  | failed

/-- What starting the helper comes to: it runs, its start failed, or the launch failed without the
clean-up of the shared memory. -/
inductive Spawn where
  | running
  | refused
  | failed

/-- Where a watchdog is: `readToken` and `readStarting` carry what it has read. -/
inductive Watchdog where
  | asleep
  | readToken (current : ℕ)
  | readStarting (current : ℕ) (starting : Bool)
  | due
  | done
  deriving DecidableEq

/-- Where the task of an accepted connection is. -/
inductive ConnPhase where
  | waiting
  | reading
  | ponging
  | closing
  | closed
  deriving DecidableEq

/-- An accepted connection, and the token it was accepted with. -/
structure Conn (Token : Type*) where
  token : Token
  phase : ConnPhase

/-- A handshake that has consumed a token, and the name the shared memory had then.  Once it is
`refusing`, it has failed and the token has been restored. -/
structure Handshake (Token Name : Type*) where
  token : Token
  shmemName : Option Name
  refusing : Bool

/-- The globals, the threads and tasks, and the history. -/
structure System (Token Name : Type*) where
  runtime : Runtime Token Name
  running : Bool
  starting : Bool
  startingToken : ℕ
  callers : ℕ → Option Bool
  launches : ℕ → Option Phase
  watchdogs : ℕ → Option Watchdog
  helpers : List ℕ
  handshake : Option (Handshake Token Name)
  conns : ℕ → Option (Conn Token)
  reader : Option ℕ
  pending : List ℕ
  cleared : List ℕ
  consumed : List (Token × List ℕ)
  accepted : List Token

/-- The steps.  `call` and `pass` are those of a thread that calls `start_portable_service`; `pass`
says whether a helper of another origin runs.  `clear`, `create`, `store`, `spawn`, `clearFailed`,
`fail` and `arm` are those of a launch, `watch` those of its watchdog, `exit` the end of its helper.
`present`, `succeed`, `refuse` and `refused` are those of a handshake, `take`, `pong`, `ponged`,
`close` and `closed` those of the task of an accepted connection. -/
inductive Label (Token : Type*) where
  | call (t : ℕ)
  | pass (t : ℕ) (process : Bool)
  | clear (n : ℕ)
  | create (n : ℕ) (outcome : Creation)
  | store (n : ℕ)
  | spawn (n : ℕ) (outcome : Spawn)
  | clearFailed (n : ℕ)
  | fail (n : ℕ)
  | arm (n : ℕ)
  | watch (n : ℕ)
  | exit (n : ℕ)
  | present (candidate : Token)
  | succeed (k : ℕ)
  | refuse (writable : Bool)
  | refused
  | take (k : ℕ)
  | pong (k : ℕ)
  | ponged (k : ℕ)
  | close (k : ℕ)
  | closed (k : ℕ)

namespace System

variable {Token Name : Type*}

/-- Before the first launch. -/
def start : System Token Name where
  runtime := ⟨none, none, none⟩
  running := false
  starting := false
  startingToken := 0
  callers := fun _ => none
  launches := fun _ => none
  watchdogs := fun _ => none
  helpers := []
  handshake := none
  conns := fun _ => none
  reader := none
  pending := []
  cleared := []
  consumed := []
  accepted := []

/-- `STARTING` is set although nothing runs, as the check of `start_portable_service` sees it. -/
def isStale (s : System Token Name) (running process : Bool) : Bool :=
  s.starting && !running && !(process || !s.helpers.isEmpty)

/-- Whether the check of `start_portable_service` lets a launch pass. -/
def passes (s : System Token Name) (running process : Bool) : Bool :=
  !(s.starting && !s.isStale running process || running)

/-- The check of `start_portable_service` under the lock of `STARTING`, for a caller that has read
`running`. -/
def check (s : System Token Name) (running process : Bool) : System Token Name :=
  if s.passes running process then
    { s with
      starting := true
      startingToken := s.startingToken + 1
      launches := Function.update s.launches (s.startingToken + 1) (some .clearing)
      pending := s.pending ++ [s.startingToken + 1] }
  else { s with starting := s.starting && !s.isStale running process }

/-- The thread of a launch goes on. -/
def setLaunch (s : System Token Name) (n : ℕ) (phase : Phase) : System Token Name :=
  { s with launches := Function.update s.launches n (some phase) }

/-- The task of an accepted connection goes on. -/
def setConn (s : System Token Name) (k : ℕ) (conn : Conn Token) : System Token Name :=
  { s with conns := Function.update s.conns k (some conn) }

/-- A launch is over. -/
def ends (s : System Token Name) (n : ℕ) : System Token Name :=
  { s with pending := s.pending.filter (· ≠ n) }

/-- The first step of a launch: `clear_runtime_shmem_state`. -/
def clear (s : System Token Name) (n : ℕ) : System Token Name :=
  { s.setLaunch n .creating with
    runtime := s.runtime.clearRuntimeShmemState
    cleared := s.cleared ++ [n] }

/-- `clear_runtime_shmem_state` of a launch that fails. -/
def clearFailed (s : System Token Name) (n : ℕ) : System Token Name :=
  { s.setLaunch n .failing with runtime := s.runtime.clearRuntimeShmemState }

/-- The end of a launch that fails. -/
def fail (s : System Token Name) (n : ℕ) : System Token Name :=
  { (s.setLaunch n .failed).ends n with starting := false }

/-- `schedule_starting_timeout_reset`. -/
def arm (s : System Token Name) (n : ℕ) : System Token Name :=
  { s.setLaunch n .started with watchdogs := Function.update s.watchdogs n (some .asleep) }

/-- A watchdog goes on. -/
def setWatchdog (s : System Token Name) (n : ℕ) (watchdog : Watchdog) : System Token Name :=
  { s with watchdogs := Function.update s.watchdogs n (some watchdog) }

/-- A watchdog resets `STARTING`. -/
def timeOut (s : System Token Name) (n : ℕ) : System Token Name :=
  { (s.setWatchdog n .done).ends n with starting := false }

/-- The watchdog of the `n`-th launch: it reads `STARTING_TOKEN`, `STARTING` and `RUNNING` one after
the other, and resets `STARTING` if it is due. -/
def watch (s : System Token Name) (n : ℕ) : Watchdog → Option (System Token Name)
  | .asleep => some (s.setWatchdog n (.readToken s.startingToken))
  | .readToken current => some (s.setWatchdog n (.readStarting current s.starting))
  | .readStarting current starting =>
      some (s.setWatchdog n (if current = n ∧ starting ∧ !s.running then .due else .done))
  | .due => some (s.timeOut n)
  | .done => none

variable [DecidableEq Token]

/-- The launches with a token are over. -/
def endsToken (token : ℕ → Token) (s : System Token Name) (tok : Token) : System Token Name :=
  { s with pending := s.pending.filter (fun n => token n ≠ tok) }

/-- The validation of the token of a handshake. -/
def present (s : System Token Name) (candidate : Token) : System Token Name :=
  match s.runtime.consumeRuntimeIpcTokenIfMatch candidate with
  | (runtime, true, shmemName) =>
      { s with
        runtime
        handshake := some ⟨candidate, shmemName, false⟩
        consumed := s.consumed ++ [(candidate, s.cleared)] }
  | (runtime, false, _) => { s with runtime }

/-- A handshake succeeds. -/
def succeed (s : System Token Name) (k : ℕ) (tok : Token) : System Token Name :=
  { s.setConn k ⟨tok, .waiting⟩ with
    handshake := none
    accepted := s.accepted ++ [tok] }

/-- A handshake that has consumed a token fails: the token is restored. -/
def refuse [DecidableEq Name] (s : System Token Name) (hs : Handshake Token Name)
    (writable : Bool) : System Token Name :=
  { s with
    runtime := s.runtime.restoreRuntimeIpcTokenAfterFailedHandshake hs.token hs.shmemName writable
    handshake := some { hs with refusing := true } }

/-- The end of a handshake that failed. -/
def refused (token : ℕ → Token) (s : System Token Name) (tok : Token) : System Token Name :=
  { s.endsToken token tok with
    handshake := none
    starting := false }

/-- A pong arrives: `RUNNING` is set. -/
def pong (token : ℕ → Token) (s : System Token Name) (k : ℕ) (tok : Token) : System Token Name :=
  { (s.setConn k ⟨tok, .ponging⟩).endsToken token tok with running := true }

/-- After a pong `STARTING` is reset. -/
def ponged (token : ℕ → Token) (s : System Token Name) (k : ℕ) (tok : Token) : System Token Name :=
  { (s.setConn k ⟨tok, .reading⟩).endsToken token tok with starting := false }

/-- A connection ends: `RUNNING` is reset. -/
def close (token : ℕ → Token) (s : System Token Name) (k : ℕ) (tok : Token) : System Token Name :=
  { (s.setConn k ⟨tok, .closing⟩).endsToken token tok with running := false }

/-- After that `STARTING` is reset, and the next connection gets the receiver. -/
def closed (token : ℕ → Token) (s : System Token Name) (k : ℕ) (tok : Token) : System Token Name :=
  { (s.setConn k ⟨tok, .closed⟩).endsToken token tok with
    reader := none
    starting := false }

/-- What a step leads to; `none` where it cannot be taken. -/
def step [DecidableEq Name] (token : ℕ → Token) (name : ℕ → Name) (s : System Token Name) :
    Label Token → Option (System Token Name)
  | .call t =>
      match s.callers t with
      | none => some { s with callers := Function.update s.callers t (some s.running) }
      | some _ => none
  | .pass t process =>
      match s.callers t with
      | some running => some { s.check running process with
          callers := Function.update s.callers t none }
      | none => none
  | .clear n => if s.launches n = some .clearing then some (s.clear n) else none
  | .create n outcome =>
      if s.launches n = some .creating then
        match outcome with
        | .created =>
            some { s.setLaunch n .storing with
              runtime := s.runtime.createShmem (name n) (token n) true }
        | .unwritten =>
            some { s.setLaunch n .clearFailed with
              runtime := s.runtime.createShmem (name n) (token n) false }
        | .failed => some (s.setLaunch n .failing)
      else none
  | .store n =>
      if s.launches n = some .storing then
        some { s.setLaunch n .spawning with runtime := s.runtime.setRuntimeIpcToken (token n) }
      else none
  | .spawn n outcome =>
      if s.launches n = some .spawning then
        match outcome with
        | .running => some { s.setLaunch n .arming with helpers := s.helpers ++ [n] }
        | .refused => some (s.setLaunch n .clearFailed)
        | .failed => some (s.setLaunch n .failing)
      else none
  | .clearFailed n => if s.launches n = some .clearFailed then some (s.clearFailed n) else none
  | .fail n => if s.launches n = some .failing then some (s.fail n) else none
  | .arm n => if s.launches n = some .arming then some (s.arm n) else none
  | .watch n => (s.watchdogs n).bind (s.watch n)
  | .exit n =>
      if n ∈ s.helpers then some { s.ends n with helpers := s.helpers.filter (· ≠ n) } else none
  | .present candidate =>
      match s.handshake with
      | none => some (s.present candidate)
      | some _ => none
  | .succeed k =>
      match s.handshake, s.conns k with
      | some ⟨tok, _, false⟩, none => some (s.succeed k tok)
      | _, _ => none
  | .refuse writable =>
      match s.handshake with
      | some ⟨tok, shmemName, false⟩ => some (s.refuse ⟨tok, shmemName, false⟩ writable)
      | _ => none
  | .refused =>
      match s.handshake with
      | some ⟨tok, _, true⟩ => some (s.refused token tok)
      | _ => none
  | .take k =>
      match s.conns k, s.reader with
      | some ⟨tok, .waiting⟩, none => some { s.setConn k ⟨tok, .reading⟩ with reader := some k }
      | _, _ => none
  | .pong k =>
      match s.conns k with
      | some ⟨tok, .reading⟩ => some (s.pong token k tok)
      | _ => none
  | .ponged k =>
      match s.conns k with
      | some ⟨tok, .ponging⟩ => some (s.ponged token k tok)
      | _ => none
  | .close k =>
      match s.conns k with
      | some ⟨tok, .reading⟩ => some (s.close token k tok)
      | _ => none
  | .closed k =>
      match s.conns k with
      | some ⟨tok, .closing⟩ => some (s.closed token k tok)
      | _ => none

/-- The steps as a transition system. -/
def Step [DecidableEq Name] (token : ℕ → Token) (name : ℕ → Name) (s : System Token Name)
    (i : Label Token) (s' : System Token Name) : Prop :=
  s.step token name i = some s'

end System

end VynxDesk.Portable
