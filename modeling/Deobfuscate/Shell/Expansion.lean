import Deobfuscate.Shell.Arithmetic
import Deobfuscate.Shell.Field
import Deobfuscate.Shell.FileName

/-!
# Expanding words

Parameters, expressions and commands in a word are replaced by what they stand
for.  In a list of arguments the result is cut into fields, and fields that are
patterns are replaced by the names of files.
-/

namespace Deobfuscate.Shell

/-- The values of a parameter; only the parameters that stand for all others
have several of them. -/
inductive ParameterValue
  | none
  | one (text : String)
  | all (texts : List String)

/-- The letters of the options in the order in which they are shown. -/
def optionLetters : List Char :=
  ['u', 'b', 'a', 'C', 'E', 'V', 'v', 'x', 's', 'n', 'm', 'i', 'I', 'f', 'e']

def parameterValue (name : String) : ShellAction ParameterValue := do
  let session ← get
  match name with
  | "@" | "*" => return .all session.parameters
  | "#" => return .one (toString session.parameters.length)
  | "?" => return .one (toString session.status)
  | "$" => return .one (toString session.id)
  | "-" =>
      return .one (String.ofList
        (optionLetters.filter session.options.contains))
  | "!" =>
      match session.lastBackground with
      | some id => return .one (toString id)
      | Option.none => return .none
  | _ =>
      match name.toNat? with
      | some 0 => return .one session.name
      | some index =>
          match session.parameters[index - 1]? with
          | some text => return .one text
          | Option.none => return .none
      | Option.none =>
          match ← ShellAction.value? name with
          | some text => return .one text
          | Option.none => return .none

def separators : ShellAction (List Char) := do
  match ← ShellAction.value? "IFS" with
  | some text => return text.toList
  | none => return blankSeparators

/-- What stands between values that are joined. -/
def joint : ShellAction String := do
  match ← ShellAction.value? "IFS" with
  | some text => return String.ofList (text.toList.take 1)
  | none => return " "

/-- Where a word stands. -/
structure Setting where
  manyFields : Bool
  /-- Whether plain characters can separate fields. -/
  plainSplits : Bool := false

def valueCells (setting : Setting) (name : String) (inQuotes : Bool) :
    ParameterValue → ShellAction (List Cell)
  | .none => return []
  | .one text => return glyphsOf inQuotes (!inQuotes) text
  | .all texts => do
      if setting.manyFields && (name == "@" || !inQuotes) then
        let field (text : String) : List Cell :=
          (if inQuotes then [.mark] else []) ++
            glyphsOf inQuotes (!inQuotes) text
        return [Cell.cut].intercalate (texts.map field)
      else
        return glyphsOf inQuotes (!inQuotes) ((← joint).intercalate texts)

def valueText? : ParameterValue → ShellAction (Option String)
  | .none => return Option.none
  | .one text => return some text
  | .all texts => return some ((← joint).intercalate texts)

/-- Complain about a parameter without a value if that is asked for. -/
def checkValue (name : String) : ParameterValue → ShellAction Unit
  | .none => do
      if ← ShellAction.hasOption 'u' then
        ShellAction.fail s!"{name}: parameter not set"
  | _ => return ()

def hasValue (orEmpty : Bool) : ParameterValue → Bool
  | .none => false
  | .one text => !(orEmpty && text == "")
  | .all texts => !texts.isEmpty && !(orEmpty && texts.all (· == ""))

/-- The home directory of a user; nobody's name stands for oneself. -/
def home? (user : String) : ShellAction (Option String) := do
  if user == "" then ShellAction.value? "HOME"
  else return if user == "root" then some "/root" else none

/-- Replace a tilde at the start of a plain text.  It ends at a slash, at the
end of the word, or in values also at a colon. -/
def expandTilde (inValue isLast : Bool) (text : String) :
    ShellAction (List Cell × String) := do
  match text.toList with
  | '~' :: rest =>
      let user := rest.takeWhile fun char =>
        char != '/' && !(inValue && char == ':')
      let after := rest.drop user.length
      if after.isEmpty && !isLast then return ([], text)
      match ← home? (String.ofList user) with
      | some path => return (glyphsOf true false path, String.ofList after)
      | none => return ([], text)
  | _ => return ([], text)

def expandInnerTildes (isLast : Bool) :
    Nat → List Char → ShellAction (List Cell)
  | 0, chars => return glyphsOf false false (String.ofList chars)
  | fuel + 1, chars => do
      let before := chars.takeWhile (· != ':')
      let plain := glyphsOf false false (String.ofList before)
      match chars.drop before.length with
      | [] => return plain
      | colon :: after =>
          let (cells, rest) ←
            expandTilde true isLast (String.ofList after)
          return plain ++ [.glyph { char := colon }] ++ cells ++
            (← expandInnerTildes isLast fuel rest.toList)

def expandStart (inValue isLast : Bool) (text : String) :
    ShellAction (List Cell) := do
  let (cells, rest) ← expandTilde inValue isLast text
  if inValue then
    return cells ++ (← expandInnerTildes isLast rest.length rest.toList)
  else return cells ++ glyphsOf false false rest

variable (output : Command → ShellAction String)

mutual

def expandPieces : Nat → Setting → List Piece → ShellAction (List Cell)
  | 0, _, _ => return []
  | _, _, [] => return []
  | fuel + 1, setting, piece :: rest => do
      let cells ← expandPiece fuel setting piece
      return cells ++ (← expandPieces fuel setting rest)

def expandPiece : Nat → Setting → Piece → ShellAction (List Cell)
  | 0, _, _ => return []
  | fuel + 1, setting, piece => do
      match piece with
      | .plain text => return glyphsOf false setting.plainSplits text
      | .quoted text =>
          return if text == "" then [.mark] else glyphsOf true false text
      | .arithmetic expression inQuotes =>
          let cells ← expandPieces fuel { manyFields := false } expression
          return glyphsOf inQuotes (!inQuotes) (← calculate (cellText cells))
      | .output command inQuotes =>
          return glyphsOf inQuotes (!inQuotes) (← output command)
      | .parameter name use inQuotes =>
          expandParameter fuel setting name inQuotes use

def expandParameter : Nat → Setting → String → Bool → ParameterUse →
    ShellAction (List Cell)
  | 0, _, _, _, _ => return []
  | fuel + 1, setting, name, inQuotes, use => do
      let value ← parameterValue name
      let itself := valueCells setting name inQuotes value
      let inner : Setting := { setting with plainSplits := !inQuotes }
      match use with
      | .value =>
          checkValue name value
          itself
      | .length =>
          checkValue name value
          let size := ((← valueText? value).getD "").length
          return glyphsOf inQuotes (!inQuotes) (toString size)
      | .fallback orEmpty word =>
          if hasValue orEmpty value then itself
          else expandPieces fuel inner word
      | .replace orEmpty word =>
          if hasValue orEmpty value then expandPieces fuel inner word
          else return []
      | .assign orEmpty word =>
          if hasValue orEmpty value then itself
          else
            let cells ← expandPieces fuel { manyFields := false } word
            if !isName name then ShellAction.fail s!"{name}: bad variable name"
            ShellAction.setVariable name (cellText cells)
            return glyphsOf inQuotes (!inQuotes) (cellText cells)
      | .require orEmpty word =>
          if hasValue orEmpty value then itself
          else
            let cells ← expandPieces fuel { manyFields := false } word
            let reason :=
              if !word.isEmpty then cellText cells
              else if orEmpty then "parameter not set or null"
              else "parameter not set"
            ShellAction.fail s!"{name}: {reason}"
      | .trim atEnd longest pattern =>
          checkValue name value
          let cells ← expandPieces fuel { manyFields := false } pattern
          let parts := patternOf (cellGlyphs cells)
          let trim (text : String) : String :=
            String.ofList (trimmed atEnd longest parts text.toList)
          match value with
          | .none => return []
          | .one text => return glyphsOf inQuotes (!inQuotes) (trim text)
          | .all texts =>
              valueCells setting name inQuotes (.all (texts.map trim))
      | .meaningless _ => ShellAction.fail "Bad substitution"

end

/-- The cells of a word; a tilde at its start is a home directory. -/
def expandWord (fuel : Nat) (setting : Setting) (inValue : Bool) :
    Word → ShellAction (List Cell)
  | .plain text :: rest => do
      let cells ← expandStart inValue rest.isEmpty text
      return cells ++ (← expandPieces output fuel setting rest)
  | word => expandPieces output fuel setting word

def expandText (fuel : Nat) (word : Word) : ShellAction String := do
  return cellText (← expandWord output fuel { manyFields := false } false word)

def expandValue (fuel : Nat) (word : Word) : ShellAction String := do
  return cellText (← expandWord output fuel { manyFields := false } true word)

def expandPattern (fuel : Nat) (word : Word) :
    ShellAction (List PatternPart) := do
  let cells ← expandWord output fuel { manyFields := false } false word
  return patternOf (cellGlyphs cells)

def expandFields (fuel : Nat) (word : Word) : ShellAction (List String) := do
  let cells ← expandWord output fuel { manyFields := true } false word
  let fields := fieldsOf (← separators) cells
  if ← ShellAction.hasOption 'f' then return fields.map glyphText
  let tree ← ShellAction.lift Process.tree
  let directory ←
    ShellAction.lift (Process.own ProcessState.directory ⟨"/"⟩)
  return fields.flatMap (fileNames tree directory)

end Deobfuscate.Shell
