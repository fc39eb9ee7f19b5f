import Deobfuscate.Shell.Integer
import Deobfuscate.Text.Decimal
import Deobfuscate.Text.Double

/-!
# Escapes and formats

What `echo` and `printf` make of their arguments.
-/

namespace Deobfuscate.Shell

def isOctal (char : Char) : Bool :=
  '0' ≤ char && char ≤ '7'

def octalByte (chars : List Char) : Char × List Char :=
  let digits := (chars.take 3).takeWhile isOctal
  let value := digits.foldl (fun value digit => 8 * value + digitValue digit) 0
  (Char.ofNat (value % 256), chars.drop digits.length)

def letterByte? : Char → Option Char
  | 'a' => some '\x07'
  | 'b' => some '\x08'
  | 'e' => some '\x1b'
  | 'f' => some '\x0c'
  | 'n' => some '\n'
  | 'r' => some '\x0d'
  | 't' => some '\t'
  | 'v' => some '\x0b'
  | '\\' => some '\\'
  | _ => none

/-- The escape after a backslash, and what follows it. -/
def readEscape? : List Char → Option (Char × List Char)
  | [] => none
  | char :: rest =>
      if isOctal char then some (octalByte (char :: rest))
      else (letterByte? char).map fun byte => (byte, rest)

/-- A text with its escapes replaced, and whether an escape stopped the output.
An octal escape may start with an additional zero.  Every step takes at least
one character. -/
def unescape : Nat → List Char → List Char × Bool
  | 0, _ | _, [] => ([], false)
  | fuel + 1, '\\' :: rest =>
      let escape :=
        match rest with
        | '0' :: rest => some (octalByte rest)
        | rest => readEscape? rest
      match rest, escape with
      | 'c' :: _, _ => ([], true)
      | _, some (byte, rest) =>
          let (bytes, stopped) := unescape fuel rest
          (byte :: bytes, stopped)
      | rest, none =>
          let (bytes, stopped) := unescape fuel rest
          ('\\' :: bytes, stopped)
  | fuel + 1, char :: rest =>
      let (bytes, stopped) := unescape fuel rest
      (char :: bytes, stopped)

def echoText (escapes : Bool) (arguments : List String) : String :=
  let (endless, words) :=
    match arguments with
    | "-n" :: words => (true, words)
    | words => (false, words)
  let text := " ".intercalate words
  let (chars, stopped) :=
    if escapes then unescape text.length text.toList else (text.toList, false)
  String.ofList chars ++ if endless || stopped then "" else "\n"

/-- A place of a format that an argument goes to. -/
structure Conversion where
  /-- Fill up on the right. -/
  leftward : Bool := false
  /-- Fill up numbers with zeros. -/
  zeros : Bool := false
  /-- Write a plus before numbers. -/
  plus : Bool := false
  /-- Leave room for a sign before numbers. -/
  space : Bool := false
  /-- Write numbers so that their base can be seen. -/
  marked : Bool := false
  width : Nat := 0
  precision : Option Nat := none
  kind : Char := 's'
  deriving DecidableEq, Repr

def repeated (count : Nat) (char : Char) : String :=
  String.ofList (List.replicate count char)

namespace Conversion

def fill (conversion : Conversion) (text : String) : String :=
  let missing := conversion.width - text.length
  if conversion.leftward then text ++ repeated missing ' '
  else repeated missing ' ' ++ text

def fillNumber (conversion : Conversion) (zeros : Bool) (sign body : String) :
    String :=
  let missing := conversion.width - (sign.length + body.length)
  if zeros && !conversion.leftward then sign ++ repeated missing '0' ++ body
  else conversion.fill (sign ++ body)

def sign (conversion : Conversion) (negative : Bool) : String :=
  if negative then "-"
  else if conversion.plus then "+"
  else if conversion.space then " "
  else ""

/-- A text, cut off after as many characters as the precision says. -/
def text (conversion : Conversion) (argument : String) : String :=
  conversion.fill
    (match conversion.precision with
    | some limit => String.ofList (argument.toList.take limit)
    | none => argument)

/-- The digits of an integer, of which there are at least as many as the
precision says. -/
def digits (conversion : Conversion) (base value : Nat) : String :=
  let shown := String.ofList (Nat.toDigits base value)
  match conversion.precision with
  | some 0 => if value = 0 then "" else shown
  | some least => repeated (least - shown.length) '0' ++ shown
  | none => shown

def signed (conversion : Conversion) (value : Int) : String :=
  conversion.fillNumber (conversion.zeros && conversion.precision.isNone)
    (conversion.sign (value < 0)) (conversion.digits 10 value.natAbs)

/-- An integer without a sign. -/
def unsigned (conversion : Conversion) (value : Nat) : String :=
  let zeros := conversion.zeros && conversion.precision.isNone
  match conversion.kind with
  | 'o' =>
      let shown := conversion.digits 8 value
      let mark := conversion.marked && !shown.startsWith "0"
      conversion.fillNumber zeros "" (if mark then "0" ++ shown else shown)
  | 'x' | 'X' =>
      let shown := conversion.digits 16 value
      let mark := if conversion.marked && value != 0 then "0x" else ""
      let whole := conversion.fillNumber zeros mark shown
      if conversion.kind == 'X' then whole.toUpper else whole
  | _ => conversion.fillNumber zeros "" (conversion.digits 10 value)

/-- A value with so many digits after the point. -/
def fixed (marked : Bool) (places : Nat) (value : Rat) : String :=
  let scaled := Text.roundEven (value * Text.powerOf 10 places)
  let shown := toString scaled
  let shown := repeated (places + 1 - shown.length) '0' ++ shown
  let whole := String.ofList (shown.toList.take (shown.length - places))
  let fraction := String.ofList (shown.toList.drop (shown.length - places))
  if places = 0 && !marked then whole else whole ++ "." ++ fraction

/-- The digits of a value in one place before the point and so many after it,
with the power of ten that belongs to them. -/
def scientificParts (places : Nat) (value : Rat) : Nat × Int :=
  if value ≤ 0 then (0, 0)
  else
    let lead := Text.leadingPower value 700 330
    let scaled (lead : Int) := Text.roundEven
      (value * Text.powerOf 10 (places - lead))
    if Nat.pow 10 (places + 1) ≤ scaled lead then (scaled (lead + 1), lead + 1)
    else (scaled lead, lead)

def exponentText (power : Int) : String :=
  let shown := toString power.natAbs
  "e" ++ (if power < 0 then "-" else "+") ++
    repeated (2 - shown.length) '0' ++ shown

def scientific (marked : Bool) (places : Nat) (value : Rat) : String :=
  let (digits, power) := scientificParts places value
  fixed marked places (digits / Text.powerOf 10 places) ++ exponentText power

/-- Drop the zeros at the end of a fraction, and a point without one. -/
def dropFraction (text : String) : String :=
  if text.toList.contains '.' then
    let kept := text.toList.reverse.dropWhile (· == '0')
    String.ofList (kept.dropWhile (· == '.')).reverse
  else text

/-- A value in the shorter of both ways. -/
def general (marked : Bool) (precision : Nat) (value : Rat) : String :=
  let precision := max precision 1
  let (digits, power) := scientificParts (precision - 1) value
  let drop (text : String) := if marked then text else dropFraction text
  if -4 ≤ power && power < precision then
    drop (fixed marked ((precision - 1 - power).toNat) value)
  else
    drop (fixed marked (precision - 1)
        (digits / Text.powerOf 10 (precision - 1))) ++ exponentText power

/-- A real number.  One without a value is infinite or no number. -/
def real (conversion : Conversion) (negative : Bool)
    (value : Except String Rat) : String :=
  let sign := conversion.sign negative
  let precision := conversion.precision.getD 6
  let marked := conversion.marked
  let shown :=
    match value with
    | .error name => conversion.fillNumber false sign name
    | .ok value =>
        conversion.fillNumber conversion.zeros sign
          (match conversion.kind.toLower with
          | 'f' => fixed marked precision value
          | 'e' => scientific marked precision value
          | _ => general marked precision value)
  if conversion.kind.isUpper then shown.toUpper else shown

end Conversion

/-- What was read of a text as a real number. -/
structure RealReading where
  negative : Bool := false
  value : Except String Rat
  rest : List Char

/-- Read the exponent of a number. -/
def readPower (chars : List Char) : Int × List Char :=
  match chars with
  | mark :: rest =>
      let reading := readInteger false rest
      if mark.toLower == 'e' && reading.found &&
          !rest.head?.any isSpacing then
        (max (-5000) (min 5000 reading.exact), reading.rest)
      else (0, chars)
  | [] => (0, [])

def readUnsignedReal? (chars : List Char) :
    Option (Except String Rat × List Char) :=
  let starts (name : String) :=
    name.toList == (chars.take name.length).map Char.toLower
  let whole := chars.takeWhile Char.isDigit
  let rest := chars.dropWhile Char.isDigit
  let (fraction, rest) :=
    match rest with
    | '.' :: after =>
        (after.takeWhile Char.isDigit, after.dropWhile Char.isDigit)
    | rest => ([], rest)
  if starts "infinity" then some (.error "inf", chars.drop 8)
  else if starts "inf" then some (.error "inf", chars.drop 3)
  else if starts "nan" then some (.error "nan", chars.drop 3)
  else if whole.isEmpty && fraction.isEmpty then none
  else
    let (power, rest) := readPower rest
    let digits := (readDigits 10 false (whole ++ fraction)).magnitude
    match Text.roundDecimal digits (power - fraction.length) with
    | some number => some (.ok number.value, rest)
    | none => some (.error "inf", rest)

def readReal (chars : List Char) : RealReading :=
  let read (negative : Bool) (digits : List Char) : RealReading :=
    match readUnsignedReal? digits with
    | some (value, rest) => { negative, value, rest }
    | none => { value := .ok 0, rest := chars }
  match chars.dropWhile isSpacing with
  | '-' :: digits => read true digits
  | '+' :: digits => read false digits
  | digits => read false digits

/-! ## Formats -/

structure Formatted where
  /-- The arguments that are left. -/
  arguments : List String
  /-- What is written, the latest first. -/
  output : List String := []
  /-- What was wrong with arguments, the latest first. -/
  warnings : List String := []

inductive FormatEnd
  /-- An escape says so. -/
  | stopped
  | wrong (problem : String)
  deriving DecidableEq

/-- A step through a format. -/
abbrev Formatting (α : Type) := ExceptT FormatEnd (StateM Formatted) α

namespace Formatting

def put (text : String) : Formatting Unit :=
  modify fun state => { state with output := text :: state.output }

def take? : Formatting (Option String) :=
  modifyGet fun state =>
    (state.arguments.head?, { state with arguments := state.arguments.tail })

/-- Complain about an argument that is not completely a number. -/
def check (argument : String) (rest : List Char) (overflows : Bool) :
    Formatting Unit := do
  let problem :=
    if !rest.isEmpty then
      if rest.length == argument.length then "expected numeric value"
      else "not completely converted"
    else if overflows then "Numerical result out of range"
    else ""
  if problem != "" then
    modify fun state =>
      { state with warnings := s!"{argument}: {problem}" :: state.warnings }

def quotedCode? (argument : String) : Option Nat :=
  match argument.toList with
  | quote :: rest =>
      if quote == '\'' || quote == '"' then
        some ((rest.head?.map Char.toNat).getD 0)
      else none
  | [] => none

def takeSigned : Formatting Int := do
  match ← take? with
  | none => return 0
  | some argument =>
      match quotedCode? argument with
      | some code => return code
      | none =>
          let reading := readInteger true argument.toList
          check argument reading.rest reading.overflows
          return reading.value

/-- Take an integer without a sign; a negative one counts from the end. -/
def takeUnsigned : Formatting Nat := do
  match ← take? with
  | none => return 0
  | some argument =>
      match quotedCode? argument with
      | some code => return code
      | none =>
          let bound := Text.wordBound
          let reading := readInteger true argument.toList
          let overflows := bound ≤ reading.magnitude
          check argument reading.rest overflows
          if overflows then return bound - 1
          if reading.negative then
            return (bound - reading.magnitude) % bound
          else return reading.magnitude

def takeReal : Formatting RealReading := do
  match ← take? with
  | none => return { value := .ok 0, rest := [] }
  | some argument =>
      match quotedCode? argument with
      | some code => return { value := .ok code, rest := [] }
      | none =>
          let reading := readReal argument.toList
          check argument reading.rest false
          return reading

def withFlags (flags : List Char) : Conversion where
  leftward := flags.contains '-'
  zeros := flags.contains '0'
  plus := flags.contains '+'
  space := flags.contains ' '
  marked := flags.contains '#'

def readWidth (conversion : Conversion) :
    List Char → Formatting (Conversion × List Char)
  | '*' :: rest => do
      let width ← takeSigned
      return ({ conversion with
        width := width.natAbs
        leftward := conversion.leftward || width < 0 }, rest)
  | chars =>
      let reading := readDigits 10 false chars
      return ({ conversion with width := reading.magnitude }, reading.rest)

def readPrecision (conversion : Conversion) :
    List Char → Formatting (Conversion × List Char)
  | '.' :: '*' :: rest => do
      let precision ← takeSigned
      return ({ conversion with
        precision := if precision < 0 then none else some precision.toNat },
        rest)
  | '.' :: chars =>
      let reading := readDigits 10 false chars
      return ({ conversion with precision := some reading.magnitude },
        reading.rest)
  | chars => return (conversion, chars)

def convert (conversion : Conversion) (shown : String) : Formatting Unit := do
  match conversion.kind with
  | 's' => put (conversion.text ((← take?).getD ""))
  | 'c' =>
      let argument := ((← take?).getD "").toList
      put (conversion.fill (String.singleton (argument.head?.getD '\x00')))
  | 'b' =>
      let argument := ((← take?).getD "")
      let (chars, stopped) := unescape argument.length argument.toList
      put (conversion.text (String.ofList chars))
      if stopped then throw .stopped
  | 'd' | 'i' => put (conversion.signed (← takeSigned))
  | 'o' | 'u' | 'x' | 'X' => put (conversion.unsigned (← takeUnsigned))
  | 'e' | 'E' | 'f' | 'F' | 'g' | 'G' =>
      let reading ← takeReal
      put (conversion.real reading.negative reading.value)
  | _ => throw (.wrong s!"{shown}: invalid directive")

/-- Go through a format once.  Every step takes at least one character. -/
def once : Nat → List Char → Formatting Unit
  | 0, _ | _, [] => return ()
  | fuel + 1, '\\' :: rest => do
      let (byte, rest) := (readEscape? rest).getD ('\\', rest)
      put (String.singleton byte)
      once fuel rest
  | fuel + 1, '%' :: '%' :: rest => do
      put "%"
      once fuel rest
  | fuel + 1, '%' :: chars => do
      let flags := chars.takeWhile ['#', '-', '+', ' ', '0'].contains
      let rest := chars.drop flags.length
      let (conversion, rest) ← readWidth (withFlags flags) rest
      let (conversion, rest) ← readPrecision conversion rest
      match rest with
      | [] => throw (.wrong "missing format character")
      | kind :: rest =>
          let shown := '%' :: chars.take (chars.length - rest.length)
          convert { conversion with kind } (String.ofList shown)
          once fuel rest
  | fuel + 1, char :: rest => do
      put (String.singleton char)
      once fuel rest

/-- Go through a format as long as it uses up arguments. -/
def all (format : String) : Nat → Formatting Unit
  | 0 => return ()
  | fuel + 1 => do
      let before := (← get).arguments.length
      once format.length format.toList
      let left := (← get).arguments.length
      if left != 0 && left != before then all format fuel

end Formatting

/-- What `printf` makes of a format and arguments: what it writes, what it
complains about, and what stops it. -/
def formatted (format : String) (arguments : List String) :
    String × List String × Option String :=
  let (ended, state) :=
    (Formatting.all format (arguments.length + 1)).run { arguments }
  let problem :=
    match ended with
    | .error (.wrong problem) => some problem
    | _ => none
  (String.join state.output.reverse, state.warnings.reverse, problem)

end Deobfuscate.Shell
