import Deobfuscate.Settings.FieldPattern
import Deobfuscate.Text.Decimal
import Deobfuscate.Text.Real

/-!
# Values of fields in log filters

A field of a span can be compared with a truth value, a number or a pattern.
Texts that are none of the former are patterns.
-/

namespace Deobfuscate.Settings

open Deobfuscate.Text

/-- What a field is compared with. -/
inductive FieldValue
  | truth (value : Bool)
  | real (value : Text.Real)
  /-- Anything that is not a number. -/
  | notANumber
  | natural (value : Nat)
  | negative (value : Nat)
  | pattern (text : String)
  deriving DecidableEq, Repr

namespace FieldValue

/-- The distance of the least integer from zero. -/
def integerBound : Nat := 0x8000000000000000

/-- An integer below zero; a zero may have the sign too. -/
def readNegative? : List Char → Option FieldValue
  | '-' :: digits =>
      if digits.isEmpty || !digits.all Char.isDigit then none
      else if digitsValue digits ≤ integerBound then
        some (negative (digitsValue digits))
      else none
  | _ => none

/-- Read a value; `none` if it is a pattern that is not well-formed. -/
def parse? (text : String) : Option FieldValue :=
  if text = "true" then some (truth true)
  else if text = "false" then some (truth false)
  else
    match readBounded wordBound text.toList, readNegative? text.toList,
        Real.parse? text with
    | some value, _, _ => some (natural value)
    | none, some value, _ => some value
    | none, none, some .notANumber => some notANumber
    | none, none, some value => some (real value)
    | none, none, none =>
        if FieldPattern.isValid text then some (pattern text) else none

def shown : FieldValue → String
  | truth value => if value then "true" else "false"
  | real value => value.text
  | notANumber => "NaN"
  | natural value => Nat.repr value
  | negative value =>
      if value = 0 then "0" else "-" ++ Nat.repr value
  | pattern text => text

/-- The order of the kinds of values. -/
def rank : FieldValue → Nat
  | truth _ => 0
  | real _ => 1
  | notANumber => 2
  | natural _ => 3
  | negative _ => 4
  | pattern _ => 5

def orderTexts (left right : String) : Ordering :=
  if left = right then .eq else if left < right then .lt else .gt

def order : FieldValue → FieldValue → Ordering
  | truth left, truth right => compare left.toNat right.toNat
  | real left, real right => left.order right
  | natural left, natural right => compare left right
  | negative left, negative right => compare right left
  | pattern left, pattern right => orderTexts left right
  | left, right => compare left.rank right.rank

end FieldValue

end Deobfuscate.Settings
