import Mathlib.Data.Int.Order.Basic
import Mathlib.Data.Nat.Basic
import Mathlib.Logic.Function.Basic
import CoreUtils.Library.Transition

/-!
# The admin token cache lock

Any number of processes call `runWithAdminAuthTokenLock` on one lock path. Every file-system step
of `tryAcquireLock`, `removeStaleLock` and `releaseLock` is a step of its own, so that the steps of
different processes interleave. A process stands for one call: a crashed or finished one takes no
more steps. Times are integers, in the unit of the one clock that all processes share.

`LockFile.inode`, `LockFile.creator`, `State.nextInode`, `State.issued` and the file a `rm` step
remembers are bookkeeping: no step of a process depends on them.
-/

namespace CoreUtils.Toolkit

/-- What `tryAcquireLock` writes into the lock file. -/
structure AdminAuthTokenLock where
  ownerId : String
  createdAtMs : ℤ
  pid : ℕ
  deriving DecidableEq

/-- The owner id of a process: its pid and a random UUID. -/
def ownerIdOf (pid : ℕ) (uuid : String) : String := toString pid ++ "-" ++ uuid

/-- A file at the lock path. The exclusive create makes it empty, which `readLock` reads as no
lock; the lock is written in a second step. -/
structure LockFile (P : Type) where
  inode : ℕ
  creator : P
  content : Option AdminAuthTokenLock
  mtimeMs : ℤ
  deriving DecidableEq

namespace LockFile

variable {P : Type}

/-- The time the staleness check measures the age of a file from. -/
def lockCreatedAtMs (file : LockFile P) : ℤ :=
  (file.content.map AdminAuthTokenLock.createdAtMs).getD file.mtimeMs

end LockFile

/-- What `stat` reports, with the file it reports on. -/
structure LockFileStats where
  inode : ℕ
  mtimeMs : ℤ
  deriving DecidableEq

/-- What follows a `releaseLock`: the next turn of the waiting loop, or the end of the call. -/
inductive AfterRelease where
  | retry
  | exit
  deriving DecidableEq

/-- Where a process is. -/
inductive Control where
  /-- At the head of the waiting loop, or asleep before it. -/
  | waiting
  /-- `tryAcquireLock` is about to create the lock file. -/
  | opening (lock : AdminAuthTokenLock)
  /-- `tryAcquireLock` is about to write the file it created. -/
  | writing (lock : AdminAuthTokenLock) (inode : ℕ)
  /-- Inside `operation`. -/
  | operating (lock : AdminAuthTokenLock)
  /-- `removeStaleLock` is about to read the lock. -/
  | staleRead
  /-- `removeStaleLock` is about to `stat` the lock file. -/
  | staleStat (lock : Option AdminAuthTokenLock)
  /-- `removeStaleLock` is about to compare the age of the lock with the limit. -/
  | staleCheck (lock : Option AdminAuthTokenLock) (lockFileStats : LockFileStats)
  /-- `removeStaleLock` is about to remove a lock file it could not parse. -/
  | staleRemove (seen : ℕ)
  /-- `releaseLock` is about to read the lock. -/
  | releaseRead (ownerId : String) (after : AfterRelease)
  /-- `releaseLock` is about to remove the lock file it read. -/
  | releaseRemove (seen : ℕ) (after : AfterRelease)
  /-- The call has returned or has thrown. -/
  | done
  /-- The process has crashed. -/
  | crashed
  deriving DecidableEq

/-- The clock, the lock path and all processes. -/
structure State (P : Type) where
  clockMs : ℤ
  lockFile : Option (LockFile P)
  nextInode : ℕ
  issued : List (P × AdminAuthTokenLock)
  control : P → Control

/-- One step of the clock or of one process. -/
inductive Action (P : Type) where
  /-- The clock moves on. -/
  | tick (nowMs : ℤ)
  /-- A waiting process starts `tryAcquireLock`: it makes up its lock. -/
  | begin (p : P) (pid : ℕ) (uuid : String)
  /-- A waiting process runs out of `lockWaitTimeoutMs` and throws. -/
  | timeOut (p : P)
  /-- A process takes its next file-system step, or checks an age. -/
  | advance (p : P)
  /-- The operation of a process returns or throws. -/
  | finish (p : P)
  /-- A process crashes. -/
  | crash (p : P)

namespace State

variable {P : Type}

/-- The file a removing process last looked at. -/
def removing (s : State P) (p : P) : Option ℕ :=
  match s.control p with
  | .staleRemove seen => some seen
  | .releaseRemove seen _ => some seen
  | _ => none

/-- The lock of a process that is inside `operation`. -/
def operating (s : State P) (p : P) : Option AdminAuthTokenLock :=
  match s.control p with
  | .operating lock => some lock
  | _ => none

variable [DecidableEq P]

/-- Send a process somewhere. -/
def goto (s : State P) (p : P) (control : Control) : State P :=
  { s with control := Function.update s.control p control }

/-- The exclusive create: it fails when there is a file at the path. -/
def openExclusive (s : State P) (p : P) (lock : AdminAuthTokenLock) : State P :=
  match s.lockFile with
  | some _ => s.goto p .staleRead
  | none =>
      { s with
        lockFile := some ⟨s.nextInode, p, none, s.clockMs⟩
        nextInode := s.nextInode + 1 }.goto p (.writing lock s.nextInode)

/-- Write the lock into a created file, which may not be at the path any more. -/
def writeLock (s : State P) (lock : AdminAuthTokenLock) (inode : ℕ) : State P :=
  { s with
    lockFile := s.lockFile.map fun file ↦
      if file.inode = inode then { file with content := some lock, mtimeMs := s.clockMs }
      else file }

/-- Remove the file at the path, if there is one. -/
def rm (s : State P) : State P := { s with lockFile := none }

/-- Where `releaseLock` continues. -/
def afterRelease : AfterRelease → Control
  | .retry => .waiting
  | .exit => .done

/-- The age check of `removeStaleLock`. -/
def checkStale (lockStaleAfterMs : ℤ) (s : State P) (p : P) (lock : Option AdminAuthTokenLock)
    (lockFileStats : LockFileStats) : State P :=
  let lockCreatedAtMs := (lock.map AdminAuthTokenLock.createdAtMs).getD lockFileStats.mtimeMs
  if s.clockMs - lockCreatedAtMs < lockStaleAfterMs then s.goto p .waiting
  else
    match lock with
    | none => s.goto p (.staleRemove lockFileStats.inode)
    | some lock => s.goto p (.releaseRead lock.ownerId .retry)

/-- The comparison of `releaseLock`: the lock at the path must have the owner id. -/
def checkOwner (s : State P) (p : P) (ownerId : String) (after : AfterRelease) : State P :=
  match s.lockFile with
  | none => s.goto p (afterRelease after)
  | some currentFile =>
      if currentFile.content.map AdminAuthTokenLock.ownerId = some ownerId then
        s.goto p (.releaseRemove currentFile.inode after)
      else s.goto p (afterRelease after)

/-- The next step of a process. -/
def advance (lockStaleAfterMs : ℤ) (s : State P) (p : P) : Option (State P) :=
  match s.control p with
  | .opening lock => some (s.openExclusive p lock)
  | .writing lock inode => some ((s.writeLock lock inode).goto p (.operating lock))
  | .staleRead => some (s.goto p (.staleStat (s.lockFile.bind LockFile.content)))
  | .staleStat lock =>
      match s.lockFile with
      -- `stat` throws ENOENT, which `removeStaleLock` swallows
      | none => some (s.goto p .waiting)
      | some file => some (s.goto p (.staleCheck lock ⟨file.inode, file.mtimeMs⟩))
  | .staleCheck lock lockFileStats => some (s.checkStale lockStaleAfterMs p lock lockFileStats)
  | .staleRemove _ => some (s.rm.goto p .waiting)
  | .releaseRead ownerId after => some (s.checkOwner p ownerId after)
  | .releaseRemove _ after => some (s.rm.goto p (afterRelease after))
  | .waiting | .operating _ | .done | .crashed => none

/-- One step of the system. Owner ids are unique, and the clock does not go back. -/
def step (lockStaleAfterMs : ℤ) (s : State P) : Action P → Option (State P)
  | .tick nowMs => if s.clockMs ≤ nowMs then some { s with clockMs := nowMs } else none
  | .begin p pid uuid =>
      let lock : AdminAuthTokenLock := ⟨ownerIdOf pid uuid, s.clockMs, pid⟩
      if s.control p = .waiting ∧ ∀ entry ∈ s.issued, entry.2.ownerId ≠ lock.ownerId then
        some ({ s with issued := (p, lock) :: s.issued }.goto p (.opening lock))
      else none
  | .timeOut p => if s.control p = .waiting then some (s.goto p .done) else none
  | .advance p => s.advance lockStaleAfterMs p
  | .finish p =>
      match s.control p with
      | .operating lock => some (s.goto p (.releaseRead lock.ownerId .exit))
      | _ => none
  | .crash p => if s.control p = .done then none else some (s.goto p .crashed)

/-! ## Frames -/

variable {lockStaleAfterMs : ℤ} {s : State P} {p : P}

/-- Moving a process leaves the lock path alone. -/
@[simp]
theorem goto_lockFile {control : Control} : (s.goto p control).lockFile = s.lockFile := rfl

/-- A moved process is where it was sent. -/
@[simp]
theorem goto_control_self {control : Control} : (s.goto p control).control p = control := by
  simp [goto]

/-- The other processes stay where they are. -/
theorem goto_control_of_ne {control : Control} {q : P} (hq : q ≠ p) :
    (s.goto p control).control q = s.control q := by
  simp [goto, hq]

/-- The age check leaves the lock path alone. -/
@[simp]
theorem checkStale_lockFile {lock : Option AdminAuthTokenLock} {lockFileStats : LockFileStats} :
    (s.checkStale lockStaleAfterMs p lock lockFileStats).lockFile = s.lockFile := by
  cases lock with
  | none | some =>
      simp only [checkStale]
      split <;> rfl

/-- The owner comparison leaves the lock path alone. -/
@[simp]
theorem checkOwner_lockFile {ownerId : String} {after : AfterRelease} :
    (s.checkOwner p ownerId after).lockFile = s.lockFile := by
  unfold checkOwner
  cases hpath : s.lockFile with
  | none => exact hpath
  | some currentFile =>
      show (ite _ _ _ : State P).lockFile = _
      split <;> exact hpath

/-! ## Runs -/

/-- No lock file, and every process about to wait for the lock. -/
def initial (clockMs : ℤ) : State P := ⟨clockMs, none, 0, [], fun _ ↦ .waiting⟩

/-- Every process inside `operation` is still within the stale limit of its lock. -/
def Timely (lockStaleAfterMs : ℤ) (s : State P) : Prop :=
  ∀ p, ∀ lock ∈ s.operating p, s.clockMs < lock.createdAtMs + lockStaleAfterMs

/-- When the step removes a file, the file at the path is the one the process last looked at. -/
def Undisturbed (s : State P) (a : Action P) : Prop :=
  match a with
  | .advance p => ∀ seen ∈ s.removing p, ∀ file ∈ s.lockFile, file.inode = seen
  | .tick _ | .begin _ _ _ | .timeOut _ | .finish _ | .crash _ => True

/-- At most one process is inside `operation`. -/
def MutuallyExclusive (s : State P) : Prop :=
  ∀ p q, (s.operating p).isSome → (s.operating q).isSome → p = q

/-- A step that removes the lock file is one of the file's creator, or the file is at least
`lockStaleAfterMs` old. -/
def RemovesOwnOrStale (lockStaleAfterMs : ℤ) (s : State P) (a : Action P) (s' : State P) : Prop :=
  ∀ file, s.lockFile = some file → s'.lockFile = none →
    a = .advance file.creator ∨ file.lockCreatedAtMs + lockStaleAfterMs ≤ s.clockMs

end State

end CoreUtils.Toolkit
