import Deobfuscate.Patch.Hunk
import Deobfuscate.Text.Blank
import Deobfuscate.Text.Decimal
import Deobfuscate.Text.Lines
import Deobfuscate.Text.Quoted

/-!
# Reading unified diffs

A diff is read line by line.  A section starts with the two file headers and
goes on as long as hunks follow; whatever stands between sections is skipped.
A hunk ends when both of its counts are reached.
-/

namespace Deobfuscate.Patch

open Deobfuscate.Text

/-- What is wrong with a line of a diff. -/
inductive DiffFault
  /-- The header of the old file is not followed by that of the new file. -/
  | missingNewHeader
  | malformedHunkHeader (line : String)
  /-- The diff ends inside a hunk. -/
  | unexpectedEnd
  | unexpectedMarker (marker : Char)
  /-- A hunk has more lines on a side than its header says. -/
  | tooLong
  deriving DecidableEq, Repr

def DiffFault.message : DiffFault → String
  | .missingNewHeader => "expected `+++` header after `---`"
  | .malformedHunkHeader line => "malformed hunk header " ++ quote line
  | .unexpectedEnd => "unexpected end of hunk"
  | .unexpectedMarker marker =>
      "unexpected hunk line marker " ++ quoteChar marker
  | .tooLong => "hunk is longer than its header says"

/-- A fault with the name of the diff and the line it was found on. -/
structure DiffError where
  name : String
  line : Nat
  fault : DiffFault
  deriving DecidableEq, Repr

def DiffError.message (error : DiffError) : String :=
  s!"{error.name}:{error.line}: {error.fault.message}"

/-- The path in a file header: what stands before a tab, without the blanks at
its end. -/
def headerPath (raw : List Char) : String :=
  String.ofList (trimEndChars (raw.takeWhile (· != '\t')))

/-- A line range: its start and its count, which is one unless written. -/
def readRange (chars : List Char) : Option (Nat × Nat) :=
  match splitOnce ',' chars with
  | some (start, count) => do
      return (← readBounded wordBound start, ← readBounded wordBound count)
  | none => do
      return (← readBounded wordBound chars, 1)

def readHunkHeader (line : List Char) : Option Hunk := do
  let rest ← stripStart "@@ -".toList line
  let (ranges, _) ← findPiece " @@".toList rest
  let (old, new) ← findPiece " +".toList ranges
  let (oldStart, oldCount) ← readRange old
  let (newStart, newCount) ← readRange new
  return ⟨oldStart, oldCount, newStart, newCount, [], false, false⟩

/-- Where the reader stands between two lines. -/
inductive ReadState
  /-- Outside any section. -/
  | outside
  /-- After the header of the old file. -/
  | afterOldHeader (oldPath : String)
  /-- In a section, where a hunk may start. -/
  | betweenHunks (spec : Spec)
  /-- Inside a hunk, with the lines still missing on both sides. -/
  | inHunk (spec : Spec) (hunk : Hunk) (oldLeft newLeft : Nat)
  /-- After the last line of a hunk. -/
  | afterHunk (spec : Spec) (hunk : Hunk)
  deriving DecidableEq, Repr

/-- Note that the side or sides of the last line end without a line break. -/
def Hunk.markOpenEnded (hunk : Hunk) : Hunk :=
  match hunk.lines.getLast? with
  | some (.remove _) => { hunk with oldOpenEnded := true }
  | some (.add _) => { hunk with newOpenEnded := true }
  | some (.context _) =>
      { hunk with oldOpenEnded := true, newOpenEnded := true }
  | none => hunk

def Spec.addHunk (spec : Spec) (hunk : Hunk) : Spec :=
  { spec with hunks := spec.hunks ++ [hunk] }

def ReadState.ofHunk (spec : Spec) (hunk : Hunk) (oldLeft newLeft : Nat) :
    ReadState :=
  if oldLeft = 0 ∧ newLeft = 0 then .afterHunk spec hunk
  else .inHunk spec hunk oldLeft newLeft

def readOutside (line : List Char) : ReadState :=
  match stripStart "--- ".toList line with
  | some old => .afterOldHeader (headerPath old)
  | none => .outside

def readSection (spec : Spec) (line : List Char) :
    Except DiffFault (ReadState × List Spec) :=
  if startsWith ['@', '@'] line then
    match readHunkHeader line with
    | some hunk => .ok (.ofHunk spec hunk hunk.oldCount hunk.newCount, [])
    | none => .error (.malformedHunkHeader (String.ofList line))
  else .ok (readOutside line, [spec])

def addHunkLine (spec : Spec) (hunk : Hunk) (oldLeft newLeft : Nat)
    (line : HunkLine) : Except DiffFault (ReadState × List Spec) :=
  if (line.isOld && oldLeft == 0) || (line.isNew && newLeft == 0) then
    .error .tooLong
  else
    .ok (.ofHunk spec { hunk with lines := hunk.lines ++ [line] }
      (if line.isOld then oldLeft - 1 else oldLeft)
      (if line.isNew then newLeft - 1 else newLeft), [])

/-- Read a line of a hunk.  An empty line is an empty context line whose blank
was lost. -/
def readHunkLine (spec : Spec) (hunk : Hunk) (oldLeft newLeft : Nat)
    (line : List Char) : Except DiffFault (ReadState × List Spec) :=
  let add := addHunkLine spec hunk oldLeft newLeft
  match line with
  | [] => add (.context "")
  | ' ' :: text => add (.context (String.ofList text))
  | '-' :: text => add (.remove (String.ofList text))
  | '+' :: text => add (.add (String.ofList text))
  | '\\' :: _ => .ok (.inHunk spec hunk.markOpenEnded oldLeft newLeft, [])
  | marker :: _ => .error (.unexpectedMarker marker)

def readDiffLine (state : ReadState) (line : List Char) :
    Except DiffFault (ReadState × List Spec) :=
  match state with
  | .outside => .ok (readOutside line, [])
  | .afterOldHeader oldPath =>
      match stripStart "+++ ".toList line with
      | some new => .ok (.betweenHunks ⟨oldPath, headerPath new, []⟩, [])
      | none => .error .missingNewHeader
  | .betweenHunks spec => readSection spec line
  | .inHunk spec hunk oldLeft newLeft =>
      readHunkLine spec hunk oldLeft newLeft line
  | .afterHunk spec hunk =>
      if startsWith ['\\'] line then
        .ok (.betweenHunks (spec.addHunk hunk.markOpenEnded), [])
      else readSection (spec.addHunk hunk) line

def readEnd : ReadState → Except DiffFault (List Spec)
  | .outside => .ok []
  | .afterOldHeader _ => .error .missingNewHeader
  | .betweenHunks spec => .ok [spec]
  | .inHunk _ _ _ _ => .error .unexpectedEnd
  | .afterHunk spec hunk => .ok [spec.addHunk hunk]

def readDiffLines (state : ReadState) :
    Nat → List (List Char) → Except (Nat × DiffFault) (List Spec)
  | number, [] => (readEnd state).mapError fun fault => (number, fault)
  | number, line :: lines =>
      match readDiffLine state line with
      | .error fault => .error (number, fault)
      | .ok (state, closed) =>
          (readDiffLines state (number + 1) lines).map (closed ++ ·)

/-- The specifications of a diff, which is called `name` in errors. -/
def parse (text name : String) : Except DiffError (List Spec) :=
  (readDiffLines .outside 1 (lineContents text.toList)).mapError
    fun error => ⟨name, error.1, error.2⟩

end Deobfuscate.Patch
