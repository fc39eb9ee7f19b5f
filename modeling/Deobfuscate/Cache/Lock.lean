import Deobfuscate.Cache.Error
import Deobfuscate.FileTree.Action

/-!
# Locks on files

A lock belongs to a file, whatever its name.  Shared locks of one file go
together; an exclusive lock goes with no other lock.

Who finds a lock taken tries again after a delay that doubles up to a limit,
warns after a number of tries and gives up after a while.
-/

namespace Deobfuscate

/-- Whether a lock stands in the way of another one of the same file. -/
def LockMode.conflicts : LockMode → LockMode → Bool
  | .shared, .shared => false
  | _, _ => true

def FileTree.isLockable (tree : FileTree) (file : Nat) (mode : LockMode) :
    Bool :=
  tree.locks.all fun held =>
    held.file != file || !held.mode.conflicts mode

def FileTree.openOrCreate (tree : FileTree) (path : Path) :
    Except Problem (Nat × FileTree) := do
  let location ← tree.locateFile path
  match tree.node? location with
  | some .directory => .error .isADirectory
  | some (.file _ _ identity) => return (identity, tree)
  | none => return (tree.clock, ← tree.writeAt location [] tree.clock)

def FileTree.release (tree : FileTree) (held : HeldLock) : FileTree :=
  { tree with locks := tree.locks.filter fun other => other != held }

def FileTree.lockFile (tree : FileTree) (file : Nat) (mode : LockMode) :
    Option HeldLock × FileTree :=
  if tree.isLockable file mode then
    let held : HeldLock := ⟨file, mode, tree.clock⟩
    (some held, { tree with locks := held :: tree.locks }.tick)
  else (none, tree)

/-- Try to lock the file at a path once.  The file and the directories above it
are made as far as they are missing. -/
def tryLock (path : Path) (mode : LockMode) :
    FileAction CacheError (Option HeldLock) := do
  match path.parent with
  | some parent => FileAction.advance (·.createDirectories parent) .files
  | none => pure ()
  let (file, tree) ← FileAction.read (·.openOrCreate path) .files
  set tree
  modifyGet fun tree => tree.lockFile file mode

/-- Lock the file at a path.  Nothing else changes the tree meanwhile, so a lock
that is taken stays taken until the time to wait is over. -/
def acquireLock (path : Path) (mode : LockMode) :
    FileAction CacheError HeldLock := do
  match ← tryLock path mode with
  | some held => return held
  | none => throw (.lockTimeout path)

/-- Do something while holding a lock. -/
def withLock {ε α : Type} (path : Path) (mode : LockMode)
    (wrap : CacheError → ε) (action : FileAction ε α) : FileAction ε α := do
  let held ← FileAction.mapError wrap (acquireLock path mode)
  FileAction.finallyDo action (·.release held)

/-- How to wait for a lock; times are in milliseconds. -/
structure LockPolicy where
  initialDelay : Nat := 50
  maxDelay : Nat := 1000
  /-- The number of retries after which to warn. -/
  warnAfter : Nat := 5
  /-- How long to wait; without it, for ever. -/
  timeout : Option Nat := none
  deriving DecidableEq, Repr

/-- How waiting went. -/
structure Waited where
  acquired : Bool
  warned : Bool
  deriving DecidableEq, Repr

namespace LockPolicy

def nextDelay (policy : LockPolicy) (delay : Nat) : Nat :=
  if delay < policy.maxDelay then min (2 * delay) policy.maxDelay else delay

/-- Try again and again from a time on, `freeFrom` being the time from which the
lock can be taken. -/
def waitFrom (policy : LockPolicy) (freeFrom : Option Nat) :
    Nat → Nat → Nat → Nat → Bool → Waited
  | 0, _, _, _, warned => ⟨false, warned⟩
  | fuel + 1, time, delay, retries, warned =>
      if freeFrom.any (· ≤ time) then ⟨true, warned⟩
      else if policy.timeout.any (· ≤ time) then ⟨false, warned⟩
      else
        waitFrom policy freeFrom fuel (time + delay) (policy.nextDelay delay)
          (retries + 1) (warned || retries + 1 = policy.warnAfter)

/-- Wait for a lock that can be taken from a given time on, if ever.  No more
tries are needed than there are milliseconds to wait. -/
def wait (policy : LockPolicy) (freeFrom : Option Nat) : Waited :=
  let limit := max (policy.timeout.getD 0) (freeFrom.getD 0)
  policy.waitFrom freeFrom (limit + 2) 0 policy.initialDelay 0 false

end LockPolicy

def lockWarning : String :=
  "still waiting for cache lock; another build may be using the cache"

end Deobfuscate
