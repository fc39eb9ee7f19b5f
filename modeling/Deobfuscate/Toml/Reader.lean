import Deobfuscate.Text.Search

/-!
# Reading a document character by character

A reader takes characters off the front of a text and counts lines.  Where it
cannot go on, it fails with the line it has come to.
-/

namespace Deobfuscate.Toml

open Deobfuscate.Text

/-- What is left of a text, and the line that starts there. -/
structure Cursor where
  line : Nat := 1
  rest : List Char
  deriving DecidableEq, Repr

/-- Something that reads from a text and may fail on a line. -/
abbrev Reader (α : Type) := StateT Cursor (Except Nat) α

namespace Reader

def fail {α : Type} : Reader α := do
  throw (← get).line

def line : Reader Nat := return (← get).line

/-- The next character, which is not taken. -/
def peek : Reader (Option Char) := return (← get).rest.head?

def next : Reader Char := do
  match ← get with
  | ⟨_, []⟩ => fail
  | ⟨line, char :: rest⟩ =>
      set (Cursor.mk (if char = '\n' then line + 1 else line) rest)
      return char

/-- Take characters of a class, which must not contain line ends. -/
def takeWhile (accepts : Char → Bool) : Reader (List Char) := do
  let cursor ← get
  set { cursor with rest := cursor.rest.dropWhile accepts }
  return cursor.rest.takeWhile accepts

/-- Take a piece without line ends, if it comes next. -/
def accept (piece : List Char) : Reader Bool := do
  let cursor ← get
  match stripStart piece cursor.rest with
  | some rest =>
      set { cursor with rest }
      return true
  | none => return false

/-- Take a piece without line ends. -/
def expect (piece : List Char) : Reader Unit := do
  if !(← accept piece) then fail

/-- Take a line end, if it comes next. -/
def acceptNewline : Reader Bool := do
  if ← accept ['\r', '\n'] then
    modify fun cursor => { cursor with line := cursor.line + 1 }
    return true
  else if (← peek) = some '\n' then
    let _ ← next
    return true
  else return false

/-- Whether a character is a blank within a line. -/
def isBlank (char : Char) : Bool :=
  char == ' ' || char == '\t'

def skipBlanks : Reader Unit := do
  let _ ← takeWhile isBlank

/-- Whether a character may stand in a comment. -/
def isCommentChar (char : Char) : Bool :=
  char == '\t' || (0x20 ≤ char.toNat && char.toNat != 0x7F)

def skipComment : Reader Unit := do
  if ← accept ['#'] then
    let _ ← takeWhile isCommentChar

def lineEnd : Reader Unit := do
  skipBlanks
  skipComment
  if (← peek).isSome && !(← acceptNewline) then fail

def skipLines : Nat → Reader Unit
  | 0 => return ()
  | fuel + 1 => do
      skipBlanks
      skipComment
      if ← acceptNewline then skipLines fuel

/-- Skip blanks, comments and line ends as far as they go. -/
def skipAll : Reader Unit := do
  skipLines ((← get).rest.length + 1)

/-- Skip what may stand between the values of an array.  There a comment needs
the end of its line, and a carriage return is only part of a line end. -/
def skipGaps : Nat → Reader Unit
  | 0 => return ()
  | fuel + 1 => do
      skipBlanks
      let open? ← peek
      skipComment
      if ← acceptNewline then skipGaps fuel
      else if open? = some '#' || open? = some '\r' then fail

def skipGap : Reader Unit := do
  skipGaps ((← get).rest.length + 1)

def blame {α : Type} (line : Nat) (reader : Reader α) : Reader α :=
  fun cursor => (reader cursor).mapError fun _ => line

end Reader

end Deobfuscate.Toml
