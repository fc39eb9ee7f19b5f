import Deobfuscate.Text.Bytes
import Deobfuscate.Text.Double
import Deobfuscate.Text.Search
import Deobfuscate.Toml.Item

/-!
# Numbers and dates of a document

Each function reads from the front of characters on one line and gives the rest;
`none` stands for a fault.
-/

namespace Deobfuscate.Toml

open Deobfuscate.Text

def isDigitOf (base : Nat) (char : Char) : Bool :=
  match hexDigit? char with
  | some value => value < base
  | none => false

/-- Further digits; an underscore may stand between two of them. -/
def moreDigits (base : Nat) : List Char → Option (List Char × List Char)
  | '_' :: char :: rest =>
      if isDigitOf base char then
        (moreDigits base rest).map fun result => (char :: result.1, result.2)
      else none
  | '_' :: [] => none
  | char :: rest =>
      if isDigitOf base char then
        (moreDigits base rest).map fun result => (char :: result.1, result.2)
      else some ([], char :: rest)
  | [] => some ([], [])

def someDigits (base : Nat) : List Char → Option (List Char × List Char)
  | [] => none
  | char :: rest =>
      if isDigitOf base char then
        (moreDigits base rest).map fun result => (char :: result.1, result.2)
      else none

def numberOf (base : Nat) (digits : List Char) : Nat :=
  digits.foldl (fun total char => total * base + (hexDigit? char).getD 0) 0

def boundedNumber (count low high : Nat) (chars : List Char) :
    Option (Nat × List Char) :=
  let digits := chars.take count
  if digits.length = count ∧ digits.all Char.isDigit then
    let number := numberOf 10 digits
    if low ≤ number ∧ number ≤ high then some (number, chars.drop count)
    else none
  else none

/-- Take a character of a set. -/
def oneOf (accepted : List Char) : List Char → Option (List Char)
  | char :: rest => if char ∈ accepted then some rest else none
  | [] => none

def daysIn (year month : Nat) : Nat :=
  if month = 2 then
    if year % 4 = 0 ∧ (year % 100 ≠ 0 ∨ year % 400 = 0) then 29 else 28
  else if month ∈ [4, 6, 9, 11] then 30 else 31

def padded (width number : Nat) : String :=
  String.ofList (List.leftpad width '0' (Nat.toDigits 10 number))

def readDate (year : Nat) (chars : List Char) :
    Option (String × List Char) := do
  let chars ← oneOf ['-'] chars
  let (month, chars) ← boundedNumber 2 1 12 chars
  let chars ← oneOf ['-'] chars
  let (day, chars) ← boundedNumber 2 1 (daysIn year month) chars
  return (s!"{padded 4 year}-{padded 2 month}-{padded 2 day}", chars)

/-- The places of a second that count. -/
def fractionPlaces : Nat := 9

/-- The plain form of the fraction of a second: without places beyond those that
count and without zeros at its end. -/
def fractionText (digits : List Char) : String :=
  let kept :=
    ((digits.take fractionPlaces).reverse.dropWhile (· == '0')).reverse
  if kept.isEmpty then "" else "." ++ String.ofList kept

def readFraction : List Char → Option (String × List Char)
  | '.' :: rest =>
      let digits := rest.takeWhile Char.isDigit
      if digits.isEmpty then none
      else some (fractionText digits, rest.drop digits.length)
  | chars => some ("", chars)

def readTime (chars : List Char) : Option (String × List Char) := do
  let (hour, chars) ← boundedNumber 2 0 23 chars
  let chars ← oneOf [':'] chars
  let (minute, chars) ← boundedNumber 2 0 59 chars
  let chars ← oneOf [':'] chars
  let (second, chars) ← boundedNumber 2 0 60 chars
  let (fraction, chars) ← readFraction chars
  return (s!"{padded 2 hour}:{padded 2 minute}:{padded 2 second}" ++ fraction,
    chars)

/-- The distance from universal time, if there is one.  No distance is written
with a plus sign. -/
def readOffset : List Char → Option (String × List Char)
  | 'Z' :: rest | 'z' :: rest => some ("Z", rest)
  | chars =>
      match oneOf ['+', '-'] chars with
      | none => some ("", chars)
      | some rest => do
          let (hours, rest) ← boundedNumber 2 0 23 rest
          let rest ← oneOf [':'] rest
          let (minutes, rest) ← boundedNumber 2 0 59 rest
          let back := chars.head? = some '-' ∧ (hours, minutes) ≠ (0, 0)
          let sign := if back then "-" else "+"
          return (sign ++ s!"{padded 2 hours}:{padded 2 minutes}", rest)

/-- Whether a time of day starts here, after which it must go on. -/
def startsTime (chars : List Char) : Bool :=
  match boundedNumber 2 0 23 chars with
  | some (_, ':' :: _) => true
  | _ => false

def readDateTime (year : Nat) (chars : List Char) :
    Option (String × List Char) := do
  let (date, chars) ← readDate year chars
  match oneOf ['T', 't', ' '] chars with
  | some rest =>
      if startsTime rest then
        let (time, rest) ← readTime rest
        let (offset, rest) ← readOffset rest
        return (date ++ "T" ++ time ++ offset, rest)
      else return (date, chars)
  | none => return (date, chars)

/-- The greatest integer and the distance of the least one from zero. -/
def integerBound : Nat := 0x8000000000000000

def signedInteger (negative : Bool) (number : Nat) : Option Item :=
  if negative then
    if number ≤ integerBound then some (.integer (-number)) else none
  else if number < integerBound then some (.integer number) else none

/-- An integer of another base, from behind its mark on. -/
def readBased (base : Nat) (chars : List Char) :
    Option (Item × List Char) := do
  let (digits, rest) ← someDigits base chars
  let item ← signedInteger false (numberOf base digits)
  return (item, rest)

/-- A floating-point number; only the greatest negative numbers may be infinite. -/
def floatItem (negative : Bool) (digits : Nat) (power : Int) :
    Option Item :=
  match roundDecimal digits power with
  | some number =>
      let shown := withPoint number.text
      some (.float (if negative then "-" ++ shown else shown))
  | none => if negative then some (.float "-inf") else none

/-- The exponent of a floating-point number, from behind its mark on. -/
def readExponent (chars : List Char) : Option (Int × List Char) := do
  let (negative, chars) :=
    match chars with
    | '-' :: rest => (true, rest)
    | '+' :: rest => (false, rest)
    | chars => (false, chars)
  let (digits, rest) ← someDigits 10 chars
  let number := numberOf 10 digits
  return (if negative then -number else number, rest)

/-- The integer part of a decimal number; a zero stands alone. -/
def readWhole : List Char → Option (List Char × List Char)
  | '0' :: rest => some (['0'], rest)
  | chars => someDigits 10 chars

def readDecimal (negative : Bool) (whole : List Char) :
    List Char → Option (Item × List Char)
  | '.' :: rest => do
      let (places, rest) ← someDigits 10 rest
      let digits := numberOf 10 (whole ++ places)
      match rest with
      | 'e' :: after | 'E' :: after => do
          let (power, rest) ← readExponent after
          return (← floatItem negative digits (power - places.length), rest)
      | rest => return (← floatItem negative digits (-places.length), rest)
  | 'e' :: after | 'E' :: after => do
      let (power, rest) ← readExponent after
      return (← floatItem negative (numberOf 10 whole) power, rest)
  | rest => do
      return (← signedInteger negative (numberOf 10 whole), rest)

/-- A number that is not decimal digits. -/
def readSpecial (sign : String) (chars : List Char) :
    Option (Item × List Char) :=
  match stripStart "inf".toList chars with
  | some rest => some (.float (sign ++ "inf"), rest)
  | none =>
      (stripStart "nan".toList chars).map fun rest => (.float "NaN", rest)

def readSigned (negative : Bool) (chars : List Char) :
    Option (Item × List Char) :=
  match readSpecial (if negative then "-" else "") chars with
  | some result => some result
  | none => do
      let (whole, rest) ← readWhole chars
      readDecimal negative whole rest

/-- A number, a date or a time. -/
def readNumber (chars : List Char) : Option (Item × List Char) :=
  match chars with
  | '+' :: rest => readSigned false rest
  | '-' :: rest => readSigned true rest
  | '0' :: 'x' :: rest => readBased 16 rest
  | '0' :: 'o' :: rest => readBased 8 rest
  | '0' :: 'b' :: rest => readBased 2 rest
  | chars =>
      match boundedNumber 4 0 9999 chars with
      | some (year, '-' :: rest) =>
          (readDateTime year ('-' :: rest)).map fun (shown, rest) =>
            (.datetime shown, rest)
      | _ =>
          if startsTime chars then
            (readTime chars).map fun (shown, rest) => (.datetime shown, rest)
          else readSigned false chars

end Deobfuscate.Toml
