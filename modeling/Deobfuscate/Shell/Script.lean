/-!
# Scripts

The command language in which small tools are written.  A script is a text of
bytes; here each byte is a character below 256, so that a text has as many
characters as it has bytes.
-/

namespace Deobfuscate.Shell

mutual

/-- A part of a word. -/
inductive Piece
  /-- Characters that stand for themselves or for a pattern. -/
  | plain (text : String)
  /-- Characters that stand for themselves even if there are none of them. -/
  | quoted (text : String)
  /-- The value of a parameter; in quotes it is not split. -/
  | parameter (name : String) (use : ParameterUse) (inQuotes : Bool)
  /-- The value of an expression. -/
  | arithmetic (expression : List Piece) (inQuotes : Bool)
  /-- What a command writes. -/
  | output (command : Command) (inQuotes : Bool)

/-- What is made of the value of a parameter.  With `orEmpty` an empty value
counts as none. -/
inductive ParameterUse
  | value
  | length
  /-- Another value if there is none. -/
  | fallback (orEmpty : Bool) (word : List Piece)
  /-- Another value if there is none, which is kept. -/
  | assign (orEmpty : Bool) (word : List Piece)
  /-- An error if there is no value. -/
  | require (orEmpty : Bool) (word : List Piece)
  /-- Another value if there is one. -/
  | replace (orEmpty : Bool) (word : List Piece)
  /-- The value without its start or end as far as it fits a pattern. -/
  | trim (atEnd longest : Bool) (pattern : List Piece)
  /-- Something that has no meaning. -/
  | meaningless (word : List Piece)

/-- What a redirection does to a descriptor. -/
inductive RedirectKind
  /-- Read from a file. -/
  | input (path : List Piece)
  /-- Write to a file, which is emptied first unless that is forbidden. -/
  | write (path : List Piece) (always : Bool)
  /-- Write at the end of a file. -/
  | append (path : List Piece)
  /-- Read and write a file. -/
  | update (path : List Piece)
  /-- Do as another descriptor, or as none. -/
  | copy (source : List Piece)
  /-- Read a text that stands in the script. -/
  | document (number : Nat)

/-- A redirection of a descriptor. -/
inductive Redirect
  | mk (descriptor : Nat) (kind : RedirectKind)

/-- A command.  The line is the one on which it starts. -/
inductive Command
  | nothing
  | simple (line : Nat) (assignments : List (String × List Piece))
      (words : List (List Piece)) (redirects : List Redirect)
  /-- The output of each is the input of the next. -/
  | pipeline (commands : List Command)
  | redirected (line : Nat) (body : Command) (redirects : List Redirect)
  /-- A command in a process of its own. -/
  | subshell (line : Nat) (body : Command) (redirects : List Redirect)
  /-- A command that nobody waits for. -/
  | background (body : Command)
  | sequence (left right : Command)
  /-- The second only if the first goes well. -/
  | both (left right : Command)
  /-- The second only if the first does not go well. -/
  | either (left right : Command)
  | negated (body : Command)
  | branch (test yes no : Command)
  /-- Again and again while the test goes well, or until it does. -/
  | loop (untilTest : Bool) (test body : Command)
  /-- Once for each field of some words. -/
  | each (line : Nat) (variableName : String) (words : List (List Piece))
      (body : Command)
  /-- The first case with a pattern that fits. -/
  | choose (line : Nat) (subject : List Piece)
      (cases : List (List (List Piece) × Command))
  | define (line : Nat) (name : String) (body : Command)

end

instance : Inhabited Command := ⟨.nothing⟩

/-- A word before anything in it is replaced. -/
abbrev Word := List Piece

def startsName (char : Char) : Bool :=
  char.isAlpha || char == '_'

/-- Whether a character may stand in the name of a variable. -/
def continuesName (char : Char) : Bool :=
  char.isAlphanum || char == '_'

def isName (text : String) : Bool :=
  match text.toList with
  | [] => false
  | first :: rest => startsName first && rest.all continuesName

/-- Whether a character is a parameter by itself. -/
def isSpecial (char : Char) : Bool :=
  char.isDigit || ['?', '$', '#', '@', '*', '!', '-'].contains char

/-- Why a text is not a script. -/
inductive ScriptFault
  | unterminatedQuote
  | missingBrace
  | missingParentheses
  | openBackquote
  | badLoopVariable
  | badFunctionName
  /-- Something stands where something else is expected. -/
  | unexpected (symbol : String) (expected : Option String)
  deriving DecidableEq, Repr

/-- The wording of what is wrong with a text. -/
def ScriptFault.message : ScriptFault → String
  | .unterminatedQuote => "Syntax error: Unterminated quoted string"
  | .missingBrace => "Syntax error: Missing '\x7d'"
  | .missingParentheses => "Syntax error: Missing '))'"
  | .openBackquote => "Syntax error: EOF in backquote substitution"
  | .badLoopVariable => "Syntax error: Bad for loop variable"
  | .badFunctionName => "Syntax error: Bad function name"
  | .unexpected symbol none => s!"Syntax error: {symbol} unexpected"
  | .unexpected symbol (some expected) =>
      s!"Syntax error: {symbol} unexpected (expecting {expected})"

end Deobfuscate.Shell
