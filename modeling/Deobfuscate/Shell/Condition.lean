import Deobfuscate.Shell.Host

/-!
# Conditions

What `test` says about files, texts and numbers.
-/

namespace Deobfuscate.Shell

/-- The place of an operator in a condition. -/
inductive Operator
  | unary (letter : Char)
  | binary (sign : String)
  | not
  | and
  | or
  | openParenthesis
  | closeParenthesis
  deriving DecidableEq, Repr

def unaryLetters : List Char :=
  "rwxefdcbpugkstznhOGLS".toList

def binarySigns : List String :=
  ["=", "!=", "<", ">", "-eq", "-ne", "-ge", "-gt", "-le", "-lt", "-nt", "-ot",
    "-ef"]

def operator? (text : String) : Option Operator :=
  match text with
  | "!" => some .not
  | "-a" => some .and
  | "-o" => some .or
  | "(" => some .openParenthesis
  | ")" => some .closeParenthesis
  | _ =>
      if binarySigns.contains text then some (.binary text)
      else
        match text.toList with
        | ['-', letter] =>
            if unaryLetters.contains letter then some (.unary letter) else none
        | _ => none

def isBinary (text : String) : Bool :=
  binarySigns.contains text

/-- The operator with which arguments start.  One with an operand is none if its
operand is missing or belongs to another operator. -/
def leading? : List String → Option Operator
  | [] => none
  | text :: rest =>
      match operator? text, rest with
      | some (.unary _), [] | some .openParenthesis, [] => none
      | some (.unary letter), second :: _ :: _ =>
          if isBinary second then none else some (.unary letter)
      | found, _ => found

def operandNumber (text : String) : ShellAction Int := do
  match integer? false text with
  | some value => return value
  | none => ShellAction.fail s!"Illegal number: {text}"

def fileHas (letter : Char) : FileKind → Bool
  | .directory => ['e', 'd', 'r', 'w', 'x', 's', 'O', 'G'].contains letter
  | .file size _ _ =>
      ['e', 'f', 'r', 'w', 'O', 'G'].contains letter ||
        (letter == 's' && size != 0)
  | .program => ['e', 'f', 'r', 'w', 'x', 's', 'O', 'G'].contains letter
  | .device => ['e', 'c', 'r', 'w', 'O', 'G'].contains letter

def holdsUnary (letter : Char) (operand : String) : ShellAction Bool := do
  match letter with
  | 'z' => return operand == ""
  | 'n' => return operand != ""
  | 't' =>
      let _ ← operandNumber operand
      return false
  | letter =>
      let kind ← ShellAction.lift (fileKind? operand)
      return kind.any (fileHas letter)

/-- When a file was last written. -/
def modified? : FileKind → Option Nat
  | .file _ modified _ => some modified
  | _ => none

/-- Whether a file is newer than another one, which need not exist. -/
def isNewer (left right : Option FileKind) : Bool :=
  match left, right with
  | some _, none => true
  | some left, some right =>
      match modified? left, modified? right with
      | some left, some right => right < left
      | _, _ => false
  | none, _ => false

def holdsBinary (sign left right : String) : ShellAction Bool := do
  let numbers (compare : Int → Int → Bool) : ShellAction Bool := do
    let left ← operandNumber left
    let right ← operandNumber right
    return compare left right
  let files (compare : Option FileKind → Option FileKind → Bool) :
      ShellAction Bool := do
    let left ← ShellAction.lift (fileKind? left)
    let right ← ShellAction.lift (fileKind? right)
    return compare left right
  match sign with
  | "=" => return left == right
  | "!=" => return left != right
  | "<" => return left < right
  | ">" => return right < left
  | "-eq" => numbers (· == ·)
  | "-ne" => numbers (· != ·)
  | "-ge" => numbers (fun left right => right ≤ left)
  | "-gt" => numbers (fun left right => right < left)
  | "-le" => numbers (· ≤ ·)
  | "-lt" => numbers (· < ·)
  | "-nt" => files isNewer
  | "-ot" => files fun left right => isNewer right left
  | _ => files fun left right => left.isSome && left == right

/-- Complain about a condition. -/
def badCondition {α : Type} (text problem : String) : ShellAction α :=
  ShellAction.fail (if text == "" then problem else s!"{text}: {problem}")

/-- A condition is read from the front.  Its result comes with the arguments
from its last one on. -/
abbrev Verdict := Bool × List String

mutual

def primary : Nat → Option Operator → List String → ShellAction Verdict
  | 0, _, arguments => return (false, arguments)
  | fuel + 1, leading, arguments => do
      match leading, arguments with
      | _, [] => return (false, [])
      | some .openParenthesis, _ :: rest =>
          let inner := leading? rest
          if inner == some .closeParenthesis then return (false, rest)
          let (result, rest) ← disjunct fuel inner rest
          if leading? rest.tail != some .closeParenthesis then
            badCondition "" "closing paren expected"
          return (result, rest.tail)
      | some (.unary letter), text :: rest =>
          match rest with
          | [] => badCondition text "argument expected"
          | operand :: _ => return (← holdsUnary letter operand, rest)
      | _, text :: rest =>
          match leading? rest, rest with
          | some (.binary sign), _ :: second =>
              match second with
              | [] => badCondition sign "argument expected"
              | right :: _ => return (← holdsBinary sign text right, second)
          | _, _ => return (text != "", text :: rest)

def negation : Nat → Option Operator → List String → ShellAction Verdict
  | 0, _, arguments => return (false, arguments)
  | fuel + 1, leading, arguments => do
      if leading != some .not then primary fuel leading arguments
      else
        let rest := arguments.tail
        let (result, rest) ←
          if rest.isEmpty then negation fuel none []
          else negation fuel (leading? rest) rest
        return (!result, if rest.isEmpty then arguments else rest)

def conjunct : Nat → Option Operator → List String → ShellAction Verdict
  | 0, _, arguments => return (false, arguments)
  | fuel + 1, leading, arguments => do
      let (result, rest) ← negation fuel leading arguments
      if leading? rest.tail != some .and then return (result, rest)
      let after := rest.tail.tail
      let (others, rest) ← conjunct fuel (leading? after) after
      return (result && others, rest)

def disjunct : Nat → Option Operator → List String → ShellAction Verdict
  | 0, _, arguments => return (false, arguments)
  | fuel + 1, leading, arguments => do
      let (result, rest) ← conjunct fuel leading arguments
      if leading? rest.tail != some .or then return (result, rest)
      let after := rest.tail.tail
      let (others, rest) ← disjunct fuel (leading? after) after
      return (result || others, rest)

end

/-- Whether a condition holds.  With three or four arguments it is decided by
their places what they are. -/
def holds : Nat → List String → ShellAction Bool
  | 0, _ | _, [] => return false
  | fuel + 1, arguments => do
      let whole (leading : Option Operator) (arguments : List String) :
          ShellAction Bool := do
        let size := 8 * arguments.length + 8
        let (result, rest) ← disjunct size leading arguments
        match rest with
        | last :: _ :: _ => badCondition last "unexpected operator"
        | _ => return result
      let inner := (arguments.drop 1).dropLast
      let enclosed := arguments.head? == some "(" &&
        arguments.getLast? == some ")"
      match arguments with
      | [_, sign, _] =>
          if isBinary sign then whole none arguments
          else if enclosed then whole (leading? inner) inner
          else if arguments.head? == some "!" then
            return !(← holds fuel arguments.tail)
          else whole (leading? arguments) arguments
      | [first, _, _, _] =>
          if enclosed then whole (leading? inner) inner
          else if first == "!" then return !(← holds fuel arguments.tail)
          else whole (leading? arguments) arguments
      | _ => whole (leading? arguments) arguments

def conditionStatus (arguments : List String) : ShellAction Nat := do
  return if ← holds 4 arguments then 0 else 1

end Deobfuscate.Shell
