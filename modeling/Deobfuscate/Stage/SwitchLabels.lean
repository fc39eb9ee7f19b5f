import Deobfuscate.Text.Lines
import Deobfuscate.Text.Search

/-!
# Blank lines around switch labels

Decompiled sources have blank lines around the labels of switches.  A blank
line is dropped if it follows a line with a label or comes before a line that
starts with one; what stands around it is always the line of the text as it
was.
-/

namespace Deobfuscate.SwitchLabels

open Deobfuscate.Text

/-- The words that labels start with. -/
def keywords : List (List Char) :=
  ["case".toList, "default".toList]

/-- Whether characters start with a keyword that is followed by something. -/
def startsLabel (chars : List Char) : Bool :=
  keywords.any fun keyword =>
    match stripStart keyword chars with
    | some rest => !rest.isEmpty
    | none => false

/-- Whether a line has a label somewhere. -/
def hasLabel : List Char → Bool
  | [] => false
  | char :: rest => startsLabel (char :: rest) || hasLabel rest

def isIndent (char : Char) : Bool :=
  char == ' ' || char == '\t'

def isIndentedLabel (chars : List Char) : Bool :=
  let rest := chars.dropWhile isIndent
  rest.length < chars.length && keywords.any (startsWith · rest)

def isBlankLine (line : Line) : Bool :=
  line.content.isEmpty && line.terminator != .endOfText

/-- Whether a line is dropped, given the lines before and after it.  The first
line of a text never is. -/
def isDropped (before : Option Line) (line : Line) (after : Option Line) :
    Bool :=
  match before with
  | none => false
  | some before =>
      isBlankLine line && (hasLabel before.content ||
        after.any fun next => isIndentedLabel next.content)

def keptLines (before : Option Line) : List Line → List Line
  | [] => []
  | line :: rest =>
      if isDropped before line rest.head? then keptLines (some line) rest
      else line :: keptLines (some line) rest

/-- A text without the blank lines around labels, unless there are none. -/
def normalize? (text : String) : Option String :=
  let lines := scanLines text.toList
  let kept := keptLines none lines
  if kept.length < lines.length then
    some (String.ofList (joinLines kept))
  else none

/-- A text without the blank lines around labels. -/
def normalize (text : String) : String :=
  (normalize? text).getD text

end Deobfuscate.SwitchLabels
