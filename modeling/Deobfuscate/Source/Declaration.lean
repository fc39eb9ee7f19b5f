import Deobfuscate.Text.Blank
import Deobfuscate.Text.Search
import Deobfuscate.Text.Word

/-!
# Declaration lines

A member declaration is recognised by the shape of its line: an indentation of
four-space groups or of tabs, words with one space after each, and then the
name.  A method or constructor has a parenthesis after its name, a field an
equals sign or a semicolon.
-/

namespace Deobfuscate.Source

open Deobfuscate.Text

/-- The indentation of a line and the rest: whole groups of four spaces, or
tabs, with neither after them. -/
def splitIndent (line : List Char) : Option (List Char × List Char) :=
  let spaces := line.takeWhile (· == ' ')
  let tabs := line.takeWhile (· == '\t')
  if !spaces.isEmpty then
    if spaces.length % 4 = 0 then some (spaces, line.drop spaces.length)
    else none
  else if !tabs.isEmpty then some (tabs, line.drop tabs.length)
  else none

/-- Characters of the words before a name: types, modifiers and arrays. -/
def isTypeChar (char : Char) : Bool :=
  isWordChar char || char == '$' || char == '.' || char == '[' || char == ']'

/-- Cut off the words that are followed by one space and another word: their
number, the last word, and what follows it.  `word` holds the characters of
the word under way in reverse. -/
def splitWords (count : Nat) (word : List Char) :
    List Char → Nat × List Char × List Char
  | [] => (count, word.reverse, [])
  | char :: rest =>
      if isTypeChar char then splitWords count (char :: word) rest
      else if char = ' ' ∧ word ≠ [] ∧ rest.head?.any isTypeChar then
        splitWords (count + 1) [] rest
      else (count, word.reverse, char :: rest)

/-- A line that may declare something. -/
structure Shape where
  indent : List Char
  /-- The number of words before the name. -/
  words : Nat
  name : List Char
  /-- What follows the name. -/
  rest : List Char
  deriving DecidableEq, Repr

def Shape.ofLine (line : List Char) : Option Shape := do
  let (indent, body) ← splitIndent line
  let (words, name, rest) := splitWords 0 [] body
  return ⟨indent, words, name, rest⟩

/-- Letters of a method or class name. -/
def isMemberChar (char : Char) : Bool :=
  char.isAlphanum || char == '_'

def Shape.isCallable (shape : Shape) : Bool :=
  !shape.name.isEmpty && shape.name.all isMemberChar &&
    shape.rest.head? == some '('

def isFieldName (name : List Char) : Bool :=
  match stripStart "field_".toList name with
  | none => false
  | some rest =>
      let digits := (rest.takeWhile Char.isDigit).length
      match rest.drop digits with
      | '_' :: letters =>
          0 < digits && !letters.isEmpty &&
            letters.all fun char => char.isAlpha || char == '_'
      | _ => false

/-- What a line declares. -/
inductive Declaration
  | method (indent : List Char) (name : String)
  | field (indent : List Char) (name : String)
  | constructor
  | nothing
  deriving DecidableEq, Repr

/-- The method a line declares; a name with a capital is that of a class. -/
def methodOfLine (line : List Char) : Option (List Char × String) := do
  let shape ← Shape.ofLine line
  if 0 < shape.words && shape.isCallable &&
      !(shape.name.head?.any Char.isUpper) then
    return (shape.indent, String.ofList shape.name)
  else none

def fieldOfLine (line : List Char) : Option (List Char × String) := do
  let shape ← Shape.ofLine line
  let after := (shape.rest.dropWhile (· == ' ')).head?
  if 0 < shape.words && isFieldName shape.name &&
      (after == some '=' || after == some ';') then
    return (shape.indent, String.ofList shape.name)
  else none

def isConstructorLine (line : List Char) : Bool :=
  (Shape.ofLine line).any Shape.isCallable

def parameterType (parameter : List Char) : Option (List Char) :=
  (splitLast ' ' (trimChars parameter)).map fun parts => trimChars parts.1

def constructorSignature (line : List Char) : Option String := do
  let (head, rest) ← splitOnce '(' line
  let (parameters, _) ← splitOnce ')' rest
  let head := trimChars head
  let name :=
    match splitLast ' ' head with
    | some (_, name) => name
    | none => head
  let types ←
    if (trimChars parameters).isEmpty then some []
    else (splitOn ',' parameters).mapM parameterType
  return String.ofList name ++ ":" ++
    ",".intercalate (types.map String.ofList)

end Deobfuscate.Source
