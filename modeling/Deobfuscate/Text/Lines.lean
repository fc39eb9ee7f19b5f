/-!
# Lines and their terminators

A text is a sequence of lines, each closed by a line feed, a carriage return
or both; only the last line may be left open.  `splitLines` keeps the
terminators, `lineContents` forgets them, and `firstTerminator` is the one a
text starts to use.  `scanLines` cuts like `splitLines`, in one pass from the
left.  `plainLines` is the coarser cutting of table files, which only know line
feeds.
-/

namespace Deobfuscate.Text

/-- How a line ends. -/
inductive Terminator
  | lineFeed
  | carriageReturn
  | carriageReturnLineFeed
  | endOfText
  deriving DecidableEq, Repr

def Terminator.chars : Terminator → List Char
  | .lineFeed => ['\n']
  | .carriageReturn => ['\r']
  | .carriageReturnLineFeed => ['\r', '\n']
  | .endOfText => []

structure Line where
  content : List Char
  terminator : Terminator
  deriving DecidableEq, Repr

/-- The characters of a line, its terminator included. -/
def Line.chars (line : Line) : List Char :=
  line.content ++ line.terminator.chars

/-- Put a character in front of the first of some lines. -/
def consLine (char : Char) : List Line → List Line
  | [] => [⟨[char], .endOfText⟩]
  | line :: lines => ⟨char :: line.content, line.terminator⟩ :: lines

def splitLines : List Char → List Line
  | [] => []
  | '\r' :: '\n' :: rest => ⟨[], .carriageReturnLineFeed⟩ :: splitLines rest
  | '\r' :: rest => ⟨[], .carriageReturn⟩ :: splitLines rest
  | '\n' :: rest => ⟨[], .lineFeed⟩ :: splitLines rest
  | char :: rest => consLine char (splitLines rest)

/-- Put lines together again. -/
def joinLines (lines : List Line) : List Char :=
  lines.flatMap Line.chars

theorem joinLines_consLine (char : Char) (lines : List Line) :
    joinLines (consLine char lines) = char :: joinLines lines := by
  cases lines with
  | nil => rfl
  | cons line lines => simp [consLine, joinLines, Line.chars]

/-- Cutting a text into lines loses nothing. -/
theorem joinLines_splitLines (chars : List Char) :
    joinLines (splitLines chars) = chars := by
  fun_induction splitLines chars with
  | case1 => rfl
  | case2 rest ih => simpa [joinLines, Line.chars, Terminator.chars] using ih
  | case3 rest _ ih => simpa [joinLines, Line.chars, Terminator.chars] using ih
  | case4 rest ih => simpa [joinLines, Line.chars, Terminator.chars] using ih
  | case5 char rest _ _ _ ih => rw [joinLines_consLine, ih]

def scanLinesFrom (current : List Char) : List Char → List Line
  | [] => if current.isEmpty then [] else [⟨current.reverse, .endOfText⟩]
  | '\r' :: '\n' :: rest =>
      ⟨current.reverse, .carriageReturnLineFeed⟩ :: scanLinesFrom [] rest
  | '\r' :: rest =>
      ⟨current.reverse, .carriageReturn⟩ :: scanLinesFrom [] rest
  | '\n' :: rest => ⟨current.reverse, .lineFeed⟩ :: scanLinesFrom [] rest
  | char :: rest => scanLinesFrom (char :: current) rest

def scanLines (chars : List Char) : List Line :=
  scanLinesFrom [] chars

def lineContentsFrom (current : List Char) :
    List Char → List (List Char)
  | [] => if current.isEmpty then [] else [current.reverse]
  | '\r' :: '\n' :: rest => current.reverse :: lineContentsFrom [] rest
  | '\r' :: rest => current.reverse :: lineContentsFrom [] rest
  | '\n' :: rest => current.reverse :: lineContentsFrom [] rest
  | char :: rest => lineContentsFrom (char :: current) rest

def lineContents (chars : List Char) : List (List Char) :=
  lineContentsFrom [] chars

/-- The terminator of the first line that has one; a text without any is taken
to use line feeds. -/
def firstTerminator : List Char → Terminator
  | [] => .lineFeed
  | '\r' :: '\n' :: _ => .carriageReturnLineFeed
  | '\r' :: _ => .carriageReturn
  | '\n' :: _ => .lineFeed
  | _ :: rest => firstTerminator rest

/-- Whether the last line of a text is terminated; a text without lines counts
as such. -/
def endsClosed (chars : List Char) : Bool :=
  match chars.getLast? with
  | none => true
  | some last => last = '\n' || last = '\r'

/-- Drop a carriage return at the end of a line. -/
def dropReturn (chars : List Char) : List Char :=
  match chars.reverse with
  | '\r' :: rest => rest.reverse
  | _ => chars

/-- The lines of a text whose lines are closed by line feeds, with or without a
carriage return before them.  A carriage return before the end of the text
stays. -/
def plainLinesFrom (current : List Char) : List Char → List (List Char)
  | [] => if current.isEmpty then [] else [current.reverse]
  | '\n' :: rest => dropReturn current.reverse :: plainLinesFrom [] rest
  | char :: rest => plainLinesFrom (char :: current) rest

/-- The lines of a table file. -/
def plainLines (text : String) : List String :=
  (plainLinesFrom [] text.toList).map String.ofList

end Deobfuscate.Text
