import Deobfuscate.Dict
import Deobfuscate.Shell.Script

/-!
# The text of a script while it is read

Characters are taken off the front and line ends counted.  Texts that stand in
the script are waited for until the end of the line.
-/

namespace Deobfuscate.Shell

/-- A text in the script that begins on the next line. -/
structure Document where
  number : Nat
  delimiter : String
  isPlain : Bool
  /-- Whether tabs at the start of its lines do not count. -/
  dropsTabs : Bool
  deriving DecidableEq, Repr

/-- What is left of a script. -/
structure Source where
  rest : List Char
  line : Nat := 1
  /-- Whether it is a text in the script and not the script itself. -/
  inDocument : Bool := false
  /-- The texts that are waited for, in order. -/
  waiting : List Document := []
  /-- The texts that have been read. -/
  documents : List (Nat × Word) := []
  /-- The number of the next text. -/
  nextDocument : Nat := 0
  /-- Texts that take the place of words that start commands. -/
  aliases : Dict String := .empty

/-- A fault and the line on which it was found. -/
structure ScriptError where
  fault : ScriptFault
  line : Nat
  deriving DecidableEq, Repr

abbrev Reader (α : Type) := StateT Source (Except ScriptError) α

def fault {α : Type} (fault : ScriptFault) : Reader α := do
  throw ⟨fault, (← get).line⟩

def upcoming : Reader (List Char) :=
  return (← get).rest

/-- Leave out characters. -/
def skip (count : Nat) : Reader Unit :=
  modify fun source =>
    { source with
      rest := source.rest.drop count
      line := source.line + (source.rest.take count).count '\n' }

/-- Leave out a character; a line end does not count. -/
def skipUncounted : Reader Unit :=
  modify fun source => { source with rest := source.rest.drop 1 }

/-- Leave out the line ends that a backslash takes back. -/
def skipJoins : Nat → List Char → List Char × Nat
  | 0, chars => (chars, 0)
  | fuel + 1, '\\' :: '\n' :: rest =>
      let (rest, lines) := skipJoins fuel rest
      (rest, lines + 1)
  | _, chars => (chars, 0)

/-- The next character, with joined lines left out before it. -/
def peek : Reader (Option Char) := do
  let source ← get
  let (rest, lines) := skipJoins source.rest.length source.rest
  set { source with rest, line := source.line + lines }
  return rest.head?

/-- Take the next character, with joined lines left out before it. -/
def next : Reader (Option Char) := do
  let char ← peek
  if char.isSome then skip 1
  return char

/-- Take characters as long as they have a property. -/
def takeWhileNext (test : Char → Bool) : Nat → Reader (List Char)
  | 0 => return []
  | fuel + 1 => do
      match ← peek with
      | some char =>
          if test char then
            skip 1
            return char :: (← takeWhileNext test fuel)
          else return []
      | none => return []

def consPlain (char : Char) : Word → Word
  | .plain text :: rest => .plain (String.singleton char ++ text) :: rest
  | word => .plain (String.singleton char) :: word

def consQuoted (char : Char) : Word → Word
  | .quoted text :: rest => .quoted (String.singleton char ++ text) :: rest
  | word => .quoted (String.singleton char) :: word

/-- The text of a word that has neither quotes nor anything to replace. -/
def bareText? : Word → Option String
  | [] => some ""
  | .plain text :: rest => (bareText? rest).map (text ++ ·)
  | _ :: _ => none

def unquotedText : Word → String × Bool
  | [] => ("", false)
  | piece :: rest =>
      let (text, isQuoted) := unquotedText rest
      match piece with
      | .plain start => (start ++ text, isQuoted)
      | .quoted start => (start ++ text, true)
      | .parameter name _ _ => ("$" ++ name ++ text, isQuoted)
      | .arithmetic _ _ | .output _ _ => (text, isQuoted)

/-- Split a plain text at the first equals sign if a name stands before it. -/
def assignment? : Word → Option (String × Word)
  | .plain text :: rest =>
      let name := text.toList.takeWhile (· != '=')
      match text.toList.drop name.length with
      | '=' :: value =>
          if isName (String.ofList name) then
            some (String.ofList name,
              if value.isEmpty then rest
              else .plain (String.ofList value) :: rest)
          else none
      | _ => none
  | _ => none

inductive Token
  | endOfFile
  | newline
  | operator (symbol : String)
  /-- The start of a redirection of a descriptor. -/
  | redirect (descriptor : Nat) (operator : String)
  | word (word : Word)
  /-- A word with a meaning of its own, where it has that meaning. -/
  | keyword (text : String)

def Token.shown : Token → String
  | .endOfFile => "end of file"
  | .newline => "newline"
  | .operator symbol => "\"" ++ symbol ++ "\""
  | .redirect _ _ => "redirection"
  | .word _ => "word"
  | .keyword text => "\"" ++ text ++ "\""

/-- The words with a meaning of their own. -/
def keywords : List String :=
  ["!", "case", "do", "done", "elif", "else", "esac", "fi", "for", "if", "in",
    "then", "until", "while", "\x7b", "\x7d"]

def Token.isKeyword (text : String) : Token → Bool
  | .keyword other => other == text
  | _ => false

def Token.isOperator (symbol : String) : Token → Bool
  | .operator other => other == symbol
  | _ => false

def Token.endsList : Token → Bool
  | .endOfFile => true
  | .operator symbol => [")", ";;", "`"].contains symbol
  | .keyword text =>
      ["do", "done", "elif", "else", "esac", "fi", "then", "\x7d"].contains text
  | _ => false

/-- A token that stands where it should not. -/
def unexpectedToken {α : Type} (token : Token) (expected : Option Token) :
    Reader α :=
  fault (.unexpected token.shown (expected.map Token.shown))

end Deobfuscate.Shell
