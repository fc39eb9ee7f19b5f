import Deobfuscate.Text.Blank

/-!
# Documentation comments

Documentation is wrapped at a width and put between comment markers.  A line
may be broken after a space, a comma or a hyphen; a space at the end of a line
does not count against its width.
-/

namespace Deobfuscate.Source

open Deobfuscate.Text

/-- Whether a line may be broken after a character. -/
def isBreak (char : Char) : Bool :=
  char == ' ' || char == ',' || char == '-'

/-- Cut a text after every character where it may be broken. -/
def chunks : List Char → List (List Char)
  | [] => []
  | char :: rest =>
      if isBreak char then [char] :: chunks rest
      else
        match chunks rest with
        | [] => [[char]]
        | chunk :: more => (char :: chunk) :: more

/-- A finished line, unless it is blank. -/
def finishedLine (line : List Char) : List (List Char) :=
  let trimmed := trimChars line
  if trimmed.isEmpty then [] else [trimmed]

def chunkWidth (chunk : List Char) : Nat :=
  if chunk.getLast? = some ' ' then chunk.length - 1 else chunk.length

/-- Put chunks into lines, the first of which has been started. -/
def fillLines (width : Nat) (line : List Char) :
    List (List Char) → List (List Char)
  | [] => finishedLine line
  | chunk :: rest =>
      if width < line.length + chunkWidth chunk then
        finishedLine line ++ fillLines width chunk rest
      else fillLines width (line ++ chunk) rest

/-- Wrap a text.  A text that fits stays as it is, and so does every text if
the width is zero. -/
def wrap (text : List Char) (width : Nat) : List (List Char) :=
  if width = 0 ∨ text.length ≤ width then [text]
  else fillLines width [] (chunks text)

/-- The width of a documentation line, indentation and markers included. -/
def javadocWidth : Nat := 120

/-- Cut a text at every escaped line break, written as a backslash and an
`n`. -/
def splitEscapedBreaks : List Char → List (List Char)
  | [] => [[]]
  | '\\' :: 'n' :: rest => [] :: splitEscapedBreaks rest
  | char :: rest =>
      match splitEscapedBreaks rest with
      | [] => [[char]]
      | piece :: pieces => (char :: piece) :: pieces

def documentationLines (indent text : List Char) : List (List Char) :=
  let width := javadocWidth - ((String.ofList indent).utf8ByteSize + 3)
  (splitEscapedBreaks text).flatMap fun piece => wrap piece width

def commentLine (indent line : List Char) : List Char :=
  if line.isEmpty then indent ++ " *".toList
  else indent ++ " * ".toList ++ line

/-- The comment for a documentation text.  A method always gets a block;
anything else gets one line if its text needs no more. -/
def javadoc (indent text : List Char) (isMethod : Bool) :
    List (List Char) :=
  let lines := documentationLines indent text
  if 1 < lines.length || isMethod then
    (indent ++ "/**".toList) ::
      (lines.map (commentLine indent) ++ [indent ++ " */".toList])
  else [indent ++ "/** ".toList ++ text ++ " */".toList]

end Deobfuscate.Source
