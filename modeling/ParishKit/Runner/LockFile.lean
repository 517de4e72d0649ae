import Mathlib.Logic.Function.Basic
import ParishKit.Lib.Transition

/-!
# The lock of a cron runner

Any number of runners take one lock path. A runner is a process, known by the
token it writes, and each of its steps is one file-system operation or one look
at the clock. Recovery of a stale lock removes it and continues. A signal that
ends a runner before it holds the lock is a crash; later its handler releases
the lock as the runner itself does.
-/

namespace ParishKit.Runner

open ParishKit.Lib

/-- What a lock file says, as far as it is looked into. -/
structure LockMetadata where
  token : Nat
  startTime : Int
deriving DecidableEq

/-- The file at the lock path: which runner created it and what it reads as.
Until it is written it reads as nothing. -/
structure DiskFile where
  creator : Nat
  metadata : Option LockMetadata
deriving DecidableEq

/-- Where a runner is, with the start time of its own metadata. -/
inductive Stage where
  | idle
  | waiting (startTime : Int)
  | opening (startTime : Int)
  | reading (startTime : Int)
  | judging (startTime : Int) (seen : LockMetadata)
  | confirming (startTime : Int) (seen : LockMetadata)
  | removing (startTime : Int)
  | reopening (startTime : Int)
  | writing (startTime : Int)
  | cleaning
  | holding
  | releasing
  | done
  | crashed
deriving DecidableEq

/-- The lock path, who holds the lock on its recovery file, and the runners. -/
structure LockState where
  now : Int
  file : Option DiskFile
  guard : Option Nat
  stage : Nat → Stage

/-- What comes of writing the metadata; what a failed write leaves may be
complete. -/
inductive WriteOutcome where
  | written
  | failed (flushed : Bool)

inductive LockStep where
  | metadata
  | enterGuard
  | openExclusive
  | raise
  | readMetadata (fails : Bool)
  | judgeStale
  | unlink (fails : Bool)
  | writeMetadata (outcome : WriteOutcome)
  | leaveGuard
  | crash

inductive LockEvent where
  | advance (now : Int)
  | acts (runner : Nat) (step : LockStep)

/-- `is_lock_stale`. -/
def isLockStale (staleAfter : Option Int) (now : Int) (metadata : LockMetadata) :
    Bool :=
  staleAfter.any fun limit => decide (limit < now - metadata.startTime)

namespace LockState

def initial (now : Int) : LockState where
  now := now
  file := none
  guard := none
  stage := fun _ => .idle

/-- What the lock file reads as. -/
def metadata (state : LockState) : Option LockMetadata :=
  state.file.bind (·.metadata)

/-- `read_lock_metadata`, which reads nothing when it fails. -/
def readLockMetadata (state : LockState) (fails : Bool) : Option LockMetadata :=
  if fails then none else state.metadata

def goTo (state : LockState) (runner : Nat) (stage : Stage) : LockState :=
  { state with stage := Function.update state.stage runner stage }

def setFile (state : LockState) (file : Option DiskFile) : LockState :=
  { state with file := file }

def setGuard (state : LockState) (guard : Option Nat) : LockState :=
  { state with guard := guard }

/-- An exclusive open creates the file, or finds one and goes on elsewhere. -/
def openExclusive (state : LockState) (runner : Nat) (startTime : Int)
    (found : Stage) : LockState :=
  match state.file with
  | none =>
      (state.setFile (some ⟨runner, none⟩)).goTo runner (.writing startTime)
  | some _ => state.goTo runner found

/-- The file after a runner has written the one it created, which may have gone. -/
def written (state : LockState) (runner : Nat) (startTime : Int) :
    Option DiskFile :=
  state.file.map fun file =>
    if file.creator = runner then
      { file with metadata := some ⟨runner, startTime⟩ }
    else
      file

/-- One step of a runner, from where it is. -/
def act (staleAfter : Option Int) (state : LockState) (runner : Nat) :
    LockStep → Stage → Option LockState
  | .metadata, .idle => some (state.goTo runner (.waiting state.now))
  | .enterGuard, .waiting startTime =>
      if state.guard.isNone then
        some ((state.setGuard (some runner)).goTo runner (.opening startTime))
      else
        none
  | .openExclusive, .opening startTime =>
      some (state.openExclusive runner startTime (.reading startTime))
  | .readMetadata fails, .reading startTime =>
      match state.readLockMetadata fails with
      | none => some (state.goTo runner .done)
      | some seen => some (state.goTo runner (.judging startTime seen))
  | .judgeStale, .judging startTime seen =>
      if isLockStale staleAfter state.now seen then
        some (state.goTo runner (.confirming startTime seen))
      else
        some (state.goTo runner .done)
  | .readMetadata fails, .confirming startTime seen =>
      if state.readLockMetadata fails = some seen then
        some (state.goTo runner (.removing startTime))
      else
        some (state.goTo runner .done)
  | .unlink fails, .removing startTime =>
      if fails then
        some (state.goTo runner .done)
      else
        some ((state.setFile none).goTo runner (.reopening startTime))
  | .openExclusive, .reopening startTime =>
      some (state.openExclusive runner startTime .done)
  -- The recovery file or the lock path cannot be opened.
  | .raise, .waiting _ | .raise, .opening _ | .raise, .reopening _ =>
      some (state.goTo runner .done)
  | .writeMetadata .written, .writing startTime =>
      some ((state.setFile (state.written runner startTime)).goTo runner .holding)
  | .writeMetadata (.failed flushed), .writing startTime =>
      some ((state.setFile (if flushed then state.written runner startTime
        else state.file)).goTo runner .cleaning)
  | .unlink fails, .cleaning =>
      some ((state.setFile (if fails then state.file else none)).goTo runner .done)
  -- `release`, which a signal begins again.
  | .readMetadata fails, .holding | .readMetadata fails, .releasing =>
      if (state.readLockMetadata fails).map (·.token) = some runner then
        some (state.goTo runner .releasing)
      else
        some (state.goTo runner .done)
  | .unlink fails, .releasing =>
      some ((state.setFile (if fails then state.file else none)).goTo runner .done)
  | .leaveGuard, .holding | .leaveGuard, .done =>
      if state.guard = some runner then some (state.setGuard none) else none
  | .crash, _ =>
      some ((state.setGuard (if state.guard = some runner then none
        else state.guard)).goTo runner .crashed)
  | _, _ => none

end LockState

/-- The system of runners. Its clock only moves on. -/
def applyLock (staleAfter : Option Int) :
    LockEvent → LockState → Option LockState
  | .advance now, state =>
      if state.now ≤ now then some { state with now := now } else none
  | .acts runner step, state =>
      state.act staleAfter runner step (state.stage runner)

end ParishKit.Runner
