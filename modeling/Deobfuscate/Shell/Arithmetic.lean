import Deobfuscate.Shell.Integer
import Deobfuscate.Shell.Session

/-!
# Arithmetic

Expressions of numbers and variables, with the usual operators.  What does not
matter for the result is read but has no effect.
-/

namespace Deobfuscate.Shell

inductive Symbol
  | number (value : Int64)
  | name (text : String)
  | sign (text : String)
  /-- A character that has no place in expressions. -/
  | stray
  deriving DecidableEq

/-- The signs, a longer one before its beginnings. -/
def signs : List String :=
  ["<<=", ">>=", "<=", ">=", "==", "!=", "&&", "||", "<<", ">>", "*=", "/=",
    "%=", "+=", "-=", "&=", "|=", "^=", "=", "<", ">", "!", "&", "|", "*", "/",
    "%", "+", "-", "~", "^", "?", ":", "(", ")"]

/-- The symbols of an expression.  Every step takes at least one character. -/
def readSymbols : Nat → List Char → List Symbol
  | 0, _ | _, [] => []
  | fuel + 1, char :: rest =>
      if char == ' ' || char == '\t' || char == '\n' then readSymbols fuel rest
      else if char.isDigit then
        let reading := readByStart false (char :: rest)
        .number (Int64.ofInt reading.value) :: readSymbols fuel reading.rest
      else if startsName char then
        .name (String.ofList ((char :: rest).takeWhile continuesName)) ::
          readSymbols fuel ((char :: rest).dropWhile continuesName)
      else
        match signs.find? fun sign => sign.toList.isPrefixOf (char :: rest) with
        | some sign =>
            .sign sign :: readSymbols fuel ((char :: rest).drop sign.length)
        | none => [.stray]

/-- The signs with two operands and how tight they bind; a smaller number binds
tighter. -/
def rank? : String → Option Nat
  | "*" | "/" | "%" => some 0
  | "+" | "-" => some 1
  | "<<" | ">>" => some 2
  | "<" | "<=" | ">" | ">=" => some 3
  | "==" | "!=" => some 4
  | "&" => some 5
  | "^" => some 6
  | "|" => some 7
  | _ => none

/-- The sign that an assigning sign applies. -/
def assigned? : String → Option String
  | "=" => some ""
  | "*=" => some "*"
  | "/=" => some "/"
  | "%=" => some "%"
  | "+=" => some "+"
  | "-=" => some "-"
  | "<<=" => some "<<"
  | ">>=" => some ">>"
  | "&=" => some "&"
  | "^=" => some "^"
  | "|=" => some "|"
  | _ => none

/-- One for true and zero for false. -/
def truth (condition : Bool) : Int64 :=
  if condition then 1 else 0

/-- Apply a sign with two operands; there is no quotient by zero. -/
def applySign? (sign : String) (left right : Int64) : Option Int64 :=
  match sign with
  | "*" => some (left * right)
  | "/" => if right == 0 then none else some (left / right)
  | "%" => if right == 0 then none else some (left % right)
  | "+" => some (left + right)
  | "-" => some (left - right)
  | "<<" => some (left <<< right)
  | ">>" => some (left >>> right)
  | "<" => some (truth (left < right))
  | "<=" => some (truth (left ≤ right))
  | ">" => some (truth (right < left))
  | ">=" => some (truth (right ≤ left))
  | "==" => some (truth (left == right))
  | "!=" => some (truth (left != right))
  | "&" => some (left &&& right)
  | "^" => some (left ^^^ right)
  | "|" => some (left ||| right)
  | _ => some right

/-- An expression while it is evaluated: its text and the symbols that are
left. -/
abbrev Calculation (α : Type) :=
  ReaderT String (StateT (List Symbol) ShellAction) α

/-- Stop because of an error in the expression. -/
def wrong {α : Type} (problem : String) : Calculation α := fun text _ =>
  ShellAction.fail s!"arithmetic expression: {problem}: \"{text}\""

def peekSymbol : Calculation (Option Symbol) :=
  return (← get).head?

def takeSymbol : Calculation (Option Symbol) :=
  modifyGet fun symbols => (symbols.head?, symbols.tail)

def variableNumber (name : String) : Calculation Int64 := fun _ symbols => do
  let text := (← ShellAction.value? name).getD ""
  match integer? true text with
  | some value => return (Int64.ofInt value, symbols)
  | none => ShellAction.fail s!"Illegal number: {text}"

def applySign (sign : String) (left right : Int64) : Calculation Int64 := do
  match applySign? sign left right with
  | some value => return value
  | none => wrong "division by zero"

def peekRank : Calculation (Option (String × Nat)) := do
  match ← peekSymbol with
  | some (.sign sign) => return (rank? sign).map fun rank => (sign, rank)
  | _ => return none

mutual

def operand : Nat → Bool → Calculation Int64
  | 0, _ => wrong "expecting primary"
  | fuel + 1, matters => do
      match ← takeSymbol with
      | some (.number value) => return value
      | some (.name name) =>
          if matters then variableNumber name else return 0
      | some (.sign "(") =>
          let value ← assignment fuel matters
          if (← takeSymbol) != some (.sign ")") then wrong "expecting ')'"
          return value
      | some (.sign "+") => operand fuel matters
      | some (.sign "-") => return -(← operand fuel matters)
      | some (.sign "!") => return truth ((← operand fuel matters) == 0)
      | some (.sign "~") => return ~~~(← operand fuel matters)
      | _ => wrong "expecting primary"

/-- Go on with signs that bind tighter than a rank. -/
def operands : Nat → Bool → Nat → Int64 → Calculation Int64
  | 0, _, _, left => return left
  | fuel + 1, matters, limit, left => do
      match ← peekRank with
      | none => return left
      | some (sign, rank) =>
          if limit ≤ rank then return left
          let _ ← takeSymbol
          let right ← operand fuel matters
          let right ← operands fuel matters rank right
          let value ←
            if matters then applySign sign left right else pure right
          operands fuel matters limit value

/-- Expressions of which all have to be true. -/
def conjunction : Nat → Bool → Calculation Int64
  | 0, _ => wrong "expecting primary"
  | fuel + 1, matters => do
      let first ← operand fuel matters
      let left ← operands fuel matters 8 first
      if (← peekSymbol) != some (.sign "&&") then return left
      let _ ← takeSymbol
      let right ← conjunction fuel (matters && left != 0)
      return truth (left != 0 && right != 0)

/-- Expressions of which one has to be true. -/
def disjunction : Nat → Bool → Calculation Int64
  | 0, _ => wrong "expecting primary"
  | fuel + 1, matters => do
      let left ← conjunction fuel matters
      if (← peekSymbol) != some (.sign "||") then return left
      let _ ← takeSymbol
      let right ← disjunction fuel (matters && left == 0)
      return truth (left != 0 || right != 0)

/-- One of two expressions, chosen by a condition. -/
def choice : Nat → Bool → Calculation Int64
  | 0, _ => wrong "expecting primary"
  | fuel + 1, matters => do
      let condition ← disjunction fuel matters
      if (← peekSymbol) != some (.sign "?") then return condition
      let _ ← takeSymbol
      let yes ← assignment fuel (matters && condition != 0)
      if (← takeSymbol) != some (.sign ":") then wrong "expecting ':'"
      let no ← choice fuel (matters && condition == 0)
      return if condition != 0 then yes else no

/-- An expression, whose value a variable may get. -/
def assignment : Nat → Bool → Calculation Int64
  | 0, _ => wrong "expecting primary"
  | fuel + 1, matters => do
      match ← get with
      | .name name :: .sign sign :: rest =>
          match assigned? sign with
          | none => choice fuel matters
          | some applied =>
              set rest
              let value ← assignment fuel matters
              if !matters then return value
              let value ←
                if applied == "" then pure value
                else do applySign applied (← variableNumber name) value
              fun _ symbols => do
                ShellAction.setVariable name (toString value.toInt)
                return (value, symbols)
      | _ => choice fuel matters

end

/-- The value of an expression. -/
def calculate (text : String) : ShellAction String := do
  let symbols := readSymbols text.length text.toList
  let whole : Calculation Int64 := do
    let value ← assignment (8 * symbols.length + 8) true
    if (← peekSymbol).isSome then wrong "expecting EOF"
    return value
  let (value, _) ← (whole.run text).run symbols
  return toString value.toInt

end Deobfuscate.Shell
