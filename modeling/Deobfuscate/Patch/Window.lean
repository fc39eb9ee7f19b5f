import Deobfuscate.Patch.Access
import Deobfuscate.Patch.Hunk

/-!
# Finding the window of a hunk

A hunk applies to a window of lines.  Removed lines must be there; context
lines may differ, at most as many as the fuzz allows, but not all of them.
Among the windows of the least fuzz the one nearest to the expected position
is taken, a later one before an earlier one at the same distance.
-/

namespace Deobfuscate.Patch

/-- How hunks are applied. -/
structure Options where
  /-- The number of context lines that may differ. -/
  maxFuzz : Nat := 0
  /-- The number of leading path components to drop. -/
  strip : Nat := 0
  /-- Report failed targets instead of failing. -/
  allowFailure : Bool := false
  /-- Ignore access modifiers when lines are compared. -/
  canonicalizeAccess : Bool := false
  deriving DecidableEq, Repr

/-- The number of context lines that differ from a window of lines; `none` if a
removed line differs. -/
def mismatches (canonical : Bool) :
    List String → List HunkLine → Option Nat
  | actual :: window, expected :: old => do
      let rest ← mismatches canonical window old
      if sameLine canonical actual expected.text then return rest
      else
        match expected with
        | .context _ => return rest + 1
        | _ => none
  | _, _ => some 0

def windowMatches (canonical : Bool) (window : List String)
    (old : List HunkLine) (fuzz : Nat) : Bool :=
  match mismatches canonical window old with
  | some count => count ≤ fuzz && count < old.length
  | none => false

/-- The distance between two positions. -/
def distance (left right : Int) : Nat :=
  (left - right).natAbs

/-- Whether a position is tried before another one. -/
def triedBefore (expected : Int) (left right : Nat) : Bool :=
  let leftDistance := distance left expected
  let rightDistance := distance right expected
  leftDistance < rightDistance ||
    (leftDistance == rightDistance && right ≤ left)

/-- The positions at which `size` lines fit into `total`, in the order in which
they are tried. -/
def positions (expected : Int) (total size : Nat) : List Nat :=
  if total < size then []
  else (List.range (total - size + 1)).mergeSort (triedBefore expected)

/-- Find the window of the least fuzz, the nearest one first: its position and
the fuzz.  No fuzz above the number of lines can help. -/
def findWindow (options : Options) (lines : List String)
    (old : List HunkLine) (expected : Int) : Option (Nat × Nat) :=
  let candidates := (positions expected lines.length old.length).map
    fun position => (position, (lines.drop position).take old.length)
  (List.range (min options.maxFuzz old.length + 1)).findSome? fun fuzz =>
    (candidates.find? fun candidate =>
      windowMatches options.canonicalizeAccess candidate.2 old fuzz).map
      fun candidate => (candidate.1, fuzz)

end Deobfuscate.Patch
