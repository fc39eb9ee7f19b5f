import Deobfuscate.Text.Alphanumeric
import Deobfuscate.Text.Blank
import Deobfuscate.Text.Bytes
import Deobfuscate.Text.Search
import Deobfuscate.Text.Word

/-!
# Patterns for the values of fields

The value of a field may be a regular expression, which has to be one that a
finite automaton can carry out: there is no look-around, no reference back, and
no word boundary among code points.  Bounded repetitions and classes named in
braces would need a closing brace, which ends the field, so that they are
unknown here.
-/

namespace Deobfuscate.Settings.FieldPattern

open Deobfuscate.Text

/-- What is left of a pattern, and how it is to be read. -/
structure State where
  rest : List Char
  /-- Characters stand for code points, otherwise for bytes. -/
  unicode : Bool := true
  /-- Blanks and comments do not count. -/
  spaced : Bool := false
  /-- The names of the groups so far. -/
  names : List String := []
  deriving DecidableEq, Repr

abbrev Reader (α : Type) := StateT State Option α

/-- The pattern is not well-formed. -/
def fail {α : Type} : Reader α :=
  fun _ => none

/-- Go on only if a condition holds. -/
def require (condition : Bool) : Reader Unit :=
  if condition then pure () else fail

def dropSpaces (inComment : Bool) : List Char → List Char
  | [] => []
  | char :: rest =>
      if inComment then dropSpaces (char != '\n') rest
      else if isBlank char then dropSpaces false rest
      else if char = '#' then dropSpaces true rest
      else char :: rest

/-- What is left, without what does not count. -/
def State.visible (state : State) : List Char :=
  if state.spaced then dropSpaces false state.rest else state.rest

def skipSpaces : Reader Unit :=
  modify fun state => { state with rest := state.visible }

/-- Drop characters. -/
def skip (count : Nat) : Reader Unit :=
  modify fun state => { state with rest := state.rest.drop count }

def next : Reader Char := do
  match (← get).rest with
  | [] => fail
  | char :: rest =>
      modify fun state => { state with rest }
      return char

/-- Take a piece, if it comes next. -/
def accept (piece : String) : Reader Bool := do
  match stripStart piece.toList (← get).rest with
  | none => return false
  | some rest =>
      modify fun state => { state with rest }
      return true

/-- What a character or an escape stands for. -/
inductive Primitive
  | literal (code : Nat)
  /-- A class of characters. -/
  | set
  /-- A condition on a place. -/
  | assertion
  deriving DecidableEq, Repr

/-- The number that digits write, a given number of them. -/
def readHex : Nat → Nat → Reader Nat
  | 0, value => return value
  | count + 1, value => do
      let digit ← next
      skipSpaces
      match hexDigit? digit with
      | some digit => readHex count (value * 16 + digit)
      | none => fail

/-- A character given by its number. -/
def readCode (digits : Nat) : Reader Primitive := do
  skipSpaces
  let code ← readHex digits 0
  require code.isValidChar
  require ((← get).unicode || digits != 2 || code < 128)
  return .literal code

/-- Whether a letter names a general category. -/
def isCategory (char : Char) : Bool :=
  "clmnpszCLMNPSZ".toList.contains char

/-- A class given by a letter. -/
def readCategory : Reader Primitive := do
  skipSpaces
  require (isCategory (← next) && (← get).unicode)
  skipSpaces
  return .set

def controlCode? : Char → Option Nat
  | 'a' => some 7
  | 't' => some 9
  | 'n' => some 10
  | 'v' => some 11
  | 'f' => some 12
  | 'r' => some 13
  | _ => none

/-- Whether a backslash lets a character stand for itself. -/
def isEscapable (char : Char) : Bool :=
  char.toNat < 128 && !char.isAlphanum && char != '<' && char != '>'

/-- An escape, from behind the backslash on. -/
def readEscape : Reader Primitive := do
  let char ← next
  match char with
  | 'x' => readCode 2
  | 'u' => readCode 4
  | 'U' => readCode 8
  | 'p' | 'P' => readCategory
  | 'd' | 's' | 'w' => return .set
  | 'D' | 'S' | 'W' =>
      require (← get).unicode
      return .set
  | 'A' | 'z' => return .assertion
  | 'b' | 'B' | '<' | '>' =>
      require !(← get).unicode
      return .assertion
  | _ =>
      match controlCode? char with
      | some code => return .literal code
      | none =>
          require (isEscapable char)
          return .literal char.toNat

def namedClasses : List String :=
  ["alnum", "alpha", "ascii", "blank", "cntrl", "digit", "graph", "lower",
    "print", "punct", "space", "upper", "word", "xdigit"]

/-- A class between colons at the start of a text: whether it is turned round,
and what follows. -/
def namedClass? (chars : List Char) : Option (Bool × List Char) := do
  let rest ← stripStart "[:".toList chars
  let (negated, rest) :=
    match rest with
    | '^' :: rest => (true, rest)
    | rest => (false, rest)
  let (name, after) ← splitOnce ':' rest
  match after with
  | ']' :: after =>
      if namedClasses.contains (String.ofList name) then some (negated, after)
      else none
  | _ => none

/-- One end of a range in a class. -/
def readClassItem : Reader Primitive := do
  let char ← next
  if char = '\\' then readEscape else return .literal char.toNat

def readRange : Reader Unit := do
  let first ← readClassItem
  skipSpaces
  let state ← get
  let isRange :=
    match state.rest with
    | '-' :: after =>
        let following := { state with rest := after }.visible.head?
        following != some ']' && following != some '-'
    | _ => false
  if isRange then
    skip 1
    skipSpaces
    match first, ← readClassItem with
    | .literal low, .literal high =>
        require (low ≤ high && (state.unicode || high < 128))
    | _, _ => fail
  else
    match first with
    | .literal code => require (state.unicode || code < 128)
    | .set => return ()
    | .assertion => fail

def skipDashes : Nat → Bool → Reader Bool
  | 0, seen => return seen
  | fuel + 1, seen => do
      if ← accept "-" then
        skipSpaces
        skipDashes fuel true
      else return seen

mutual

/-- A class from its bracket on: how deep classes are nested in it. -/
def readClass : Nat → Reader Nat
  | 0 => fail
  | fuel + 1 => do
      skip 1
      skipSpaces
      let negated ← accept "^"
      skipSpaces
      require (!negated || (← get).unicode)
      let dashes ← skipDashes (← get).rest.length false
      if !dashes && (← accept "]") then skipSpaces
      readClassItems fuel 0

def readClassItems : Nat → Nat → Reader Nat
  | 0, _ => fail
  | fuel + 1, depth => do
      skipSpaces
      let state ← get
      match state.rest, namedClass? state.rest with
      | _, some (negated, rest) =>
          require (!negated || state.unicode)
          set { state with rest }
          readClassItems fuel depth
      | '[' :: _, none =>
          let inner ← readClass fuel
          readClassItems fuel (max depth inner)
      | ']' :: _, none =>
          skip 1
          return depth + 1
      | '&' :: '&' :: _, none | '-' :: '-' :: _, none
      | '~' :: '~' :: _, none =>
          skip 2
          readClassItems fuel depth
      | _, none =>
          readRange
          readClassItems fuel depth

end

/-! ## Groups -/

/-- Whether a character may stand in the name of a group. -/
def isNameChar (first : Bool) (char : Char) : Bool :=
  if first then
    char == '_' || (isAlphanumeric char && isWordChar char && !isDecimal char)
  else ['_', '.', '[', ']'].contains char || isAlphanumeric char

/-- The name of a group up to its angle bracket; no name may occur twice. -/
def readName : Reader Unit := do
  let state ← get
  match splitOnce '>' state.rest with
  | some (first :: more, rest) =>
      let name := String.ofList (first :: more)
      require (isNameChar true first && more.all (isNameChar false) &&
        !state.names.contains name)
      set { state with rest, names := name :: state.names }
  | _ => fail

def State.apply (state : State) (on : Bool) : Char → Option State
  | 'u' => some { state with unicode := on }
  | 'x' => some { state with spaced := on }
  | 'i' | 'm' | 's' | 'U' | 'R' => some state
  | _ => none

/-- Flags with a dash before those that are taken back; none may occur
twice. -/
def readFlags : State → List Char → Option State
  | state, seen =>
      let (_, result) := seen.foldl (fun (on, state) flag =>
        if flag = '-' then (false, state)
        else (on, state.bind (·.apply on flag))) (true, some state)
      if seen.eraseDups.length = seen.length && seen.getLast? != some '-' then
        result
      else none

/-- How a group begins. -/
inductive Opening
  | body
  /-- Flags for the rest of the group around it. -/
  | flags
  deriving DecidableEq, Repr

/-- The beginning of a group from behind its parenthesis on. -/
def readOpening : Reader Opening := do
  skipSpaces
  if (← accept "?=") || (← accept "?!") || (← accept "?<=") ||
      (← accept "?<!") then fail
  else if (← accept "?P<") || (← accept "?<") then
    readName
    return .body
  else if ← accept "?" then
    let state ← get
    let isFlag (char : Char) := char != ':' && char != ')'
    let flags := state.rest.takeWhile isFlag
    match readFlags state flags, state.rest.drop flags.length with
    | some state, ':' :: rest =>
        set { state with rest }
        return .body
    | some state, ')' :: rest =>
        require !flags.isEmpty
        set { state with rest }
        return .flags
    | _, _ => fail
  else return .body

/-- The depth of the whole of some parts, of which a single one is the whole
itself. -/
def depthOf (parts : List Nat) : Nat :=
  match parts with
  | [] => 0
  | [part] => part
  | parts => parts.foldl max 0 + 1

/-- Read a sequence of alternatives up to a closing parenthesis or the end, and
give its depth.  `branches` are the depths of the alternatives so far, and
`items` those of the items of the current one, the latest first; flags are
items that cannot be repeated. -/
def readSequence : Nat → List Nat → List (Option Nat) → Reader Nat
  | 0, _, _ => fail
  | fuel + 1, branches, items => do
      skipSpaces
      let branch := depthOf (items.map (·.getD 0))
      match (← get).rest with
      | [] | ')' :: _ => return depthOf (branch :: branches)
      | '|' :: _ =>
          skip 1
          readSequence fuel (branch :: branches) []
      | '[' :: _ =>
          let depth ← readClass fuel
          readSequence fuel branches (some depth :: items)
      | '(' :: _ =>
          skip 1
          let before ← get
          match ← readOpening with
          | .flags => readSequence fuel branches (none :: items)
          | .body =>
              let depth ← readSequence fuel [] []
              require (← accept ")")
              modify fun state =>
                { state with unicode := before.unicode, spaced := before.spaced }
              readSequence fuel branches (some (depth + 1) :: items)
      | char :: _ =>
          skip 1
          if ['?', '*', '+'].contains char then
            match items with
            | some depth :: items =>
                let _ ← accept "?"
                readSequence fuel branches (some (depth + 1) :: items)
            | _ => fail
          else
            require (char != '{' && (char != '.' || (← get).unicode))
            if char = '\\' then
              let _ ← readEscape
            readSequence fuel branches (some 0 :: items)

/-- How deep a pattern may be nested. -/
def depthLimit : Nat := 250

def isValid (text : String) : Bool :=
  match readSequence (2 * text.length + 2) [] [] { rest := text.toList } with
  | some (depth, state) => state.rest.isEmpty && depth ≤ depthLimit
  | none => false

end Deobfuscate.Settings.FieldPattern
