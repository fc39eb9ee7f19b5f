import Deobfuscate.Text.Decimal
import Deobfuscate.Text.Double

/-!
# Real numbers as they are written

A number has a sign and is written in digits, with a point and an exponent, or
it is infinite, or it is not a number at all.  Numbers are of double precision.
-/

namespace Deobfuscate.Text

/-- A number of double precision. -/
inductive Real
  | finite (negative : Bool) (number : Double)
  | infinite (negative : Bool)
  | notANumber
  deriving DecidableEq, Repr

namespace Real

/-- An ASCII letter in lower case, any other character as it is. -/
def lowerChar (char : Char) : Char :=
  if 'A' ≤ char && char ≤ 'Z' then Char.ofNat (char.toNat + 32) else char

def readExponent? : List Char → Option Int
  | [] => some 0
  | 'e' :: '-' :: digits =>
      if digits.isEmpty || !digits.all Char.isDigit then none
      else some (-(digitsValue digits : Int))
  | 'e' :: rest =>
      let digits :=
        match rest with
        | '+' :: digits => digits
        | digits => digits
      if digits.isEmpty || !digits.all Char.isDigit then none
      else some (digitsValue digits)
  | _ => none

def readDigits? (negative : Bool) (chars : List Char) : Option Real := do
  let whole := chars.takeWhile Char.isDigit
  let rest := chars.drop whole.length
  let (places, rest) :=
    match rest with
    | '.' :: rest => (rest.takeWhile Char.isDigit, rest.dropWhile Char.isDigit)
    | rest => ([], rest)
  if whole.isEmpty && places.isEmpty then none
  let exponent ← readExponent? rest
  let power := exponent - places.length
  match roundDecimal (digitsValue (whole ++ places)) power with
  | some number => return finite negative number
  | none => return infinite negative

/-- The number that a text writes. -/
def parse? (text : String) : Option Real :=
  let (negative, chars) :=
    match text.toList.map lowerChar with
    | '-' :: rest => (true, rest)
    | '+' :: rest => (false, rest)
    | chars => (false, chars)
  match String.ofList chars with
  | "inf" | "infinity" => some (infinite negative)
  | "nan" => some notANumber
  | _ => readDigits? negative chars

def text : Real → String
  | finite negative number => (if negative then "-" else "") ++ number.text
  | infinite negative => if negative then "-inf" else "inf"
  | notANumber => "NaN"

/-- Where a number stands among all numbers: below all others, above them, or at
its value. -/
def place : Real → Int × Rat
  | finite negative number =>
      (0, if negative then -number.value else number.value)
  | infinite negative => (if negative then -1 else 1, 0)
  | notANumber => (2, 0)

/-- Compare two numbers; the two zeros are equal. -/
def order (left right : Real) : Ordering :=
  (compare left.place.1 right.place.1).then
    (if left.place.2 < right.place.2 then .lt
      else if right.place.2 < left.place.2 then .gt
      else .eq)

end Real

end Deobfuscate.Text
