import Deobfuscate.Text.Search

/-!
# Hunks and patch specifications

A patch specification edits one file.  It is a list of hunks, each of which
replaces a run of lines: context lines stay, removed lines go, added lines
come.  Reversing a specification swaps its two sides.
-/

namespace Deobfuscate.Patch

open Deobfuscate.Text

inductive HunkLine
  | context (text : String)
  | remove (text : String)
  | add (text : String)
  deriving DecidableEq, Repr

namespace HunkLine

def text : HunkLine → String
  | context text => text
  | remove text => text
  | add text => text

def marker : HunkLine → String
  | context _ => " "
  | remove _ => "-"
  | add _ => "+"

/-- Whether a line is expected to be found. -/
def isOld : HunkLine → Bool
  | add _ => false
  | _ => true

def isNew : HunkLine → Bool
  | remove _ => false
  | _ => true

/-- The line as seen from the other side. -/
def reversed : HunkLine → HunkLine
  | context text => context text
  | remove text => add text
  | add text => remove text

@[simp]
theorem reversed_reversed (line : HunkLine) :
    line.reversed.reversed = line := by
  cases line <;> rfl

@[simp]
theorem isOld_reversed (line : HunkLine) :
    line.reversed.isOld = line.isNew := by
  cases line <;> rfl

end HunkLine

/-- A hunk with the positions its header records. -/
structure Hunk where
  /-- The first line on the old side, counted from one; for an empty old side
  the line after which the new lines come. -/
  oldStart : Nat
  oldCount : Nat
  newStart : Nat
  newCount : Nat
  lines : List HunkLine
  /-- The old side ends without a line break. -/
  oldOpenEnded : Bool
  /-- The new side ends without a line break. -/
  newOpenEnded : Bool
  deriving DecidableEq, Repr

namespace Hunk

def oldLines (hunk : Hunk) : List HunkLine :=
  hunk.lines.filter HunkLine.isOld

def newLines (hunk : Hunk) : List HunkLine :=
  hunk.lines.filter HunkLine.isNew

def header (hunk : Hunk) : String :=
  s!"@@ -{hunk.oldStart},{hunk.oldCount} +{hunk.newStart},{hunk.newCount} @@"

def body (hunk : Hunk) : List String :=
  hunk.lines.map fun line => line.marker ++ line.text

def reversed (hunk : Hunk) : Hunk :=
  { oldStart := hunk.newStart
    oldCount := hunk.newCount
    newStart := hunk.oldStart
    newCount := hunk.oldCount
    lines := hunk.lines.map HunkLine.reversed
    oldOpenEnded := hunk.newOpenEnded
    newOpenEnded := hunk.oldOpenEnded }

theorem reversed_reversed (hunk : Hunk) : hunk.reversed.reversed = hunk := by
  cases hunk
  simp [reversed, Function.comp_def]

end Hunk

/-- The path that stands for the missing side of a creation or deletion. -/
def missingPath : String := "/dev/null"

/-- The hunks for one file. -/
structure Spec where
  oldPath : String
  newPath : String
  hunks : List Hunk
  deriving DecidableEq, Repr

/-- Drop every `./` at the start of a path. -/
def dropCurrent : List Char → List Char
  | '.' :: '/' :: rest => dropCurrent rest
  | chars => chars

/-- Drop leading components of a path, but never its last one. -/
def dropComponents : Nat → List Char → List Char
  | 0, chars => chars
  | count + 1, chars =>
      match splitOnce '/' chars with
      | some (_, rest) => dropComponents count rest
      | none => chars

def stripComponents (path : String) (count : Nat) : String :=
  String.ofList (dropComponents count (dropCurrent path.toList))

namespace Spec

/-- Whether a specification makes a new file. -/
def isCreation (spec : Spec) : Bool :=
  spec.oldPath = missingPath

/-- Whether a specification removes a file. -/
def isDeletion (spec : Spec) : Bool :=
  spec.newPath = missingPath

/-- The file a specification edits. -/
def target (spec : Spec) (strip : Nat) : String :=
  stripComponents
    (if spec.isCreation then spec.newPath else spec.oldPath) strip

def reversed (spec : Spec) : Spec :=
  ⟨spec.newPath, spec.oldPath, spec.hunks.map Hunk.reversed⟩

theorem reversed_reversed (spec : Spec) : spec.reversed.reversed = spec := by
  cases spec
  simp [reversed, Function.comp_def, Hunk.reversed_reversed]

end Spec

end Deobfuscate.Patch
