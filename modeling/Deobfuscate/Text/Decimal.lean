/-!
# Bounded decimal numbers

Positions, counts and ranks are written with ASCII digits, with an optional
plus sign, and must stay below a bound fixed by the width of a machine word.
-/

namespace Deobfuscate.Text

/-- The value of a run of ASCII digits, most significant first. -/
def digitsValue (digits : List Char) : Nat :=
  digits.foldl (fun value digit => value * 10 + (digit.toNat - '0'.toNat)) 0

def readBounded (bound : Nat) (chars : List Char) : Option Nat :=
  let digits :=
    match chars with
    | '+' :: rest => rest
    | _ => chars
  if digits.isEmpty || !digits.all Char.isDigit then none
  else
    let value := digitsValue digits
    if value < bound then some value else none

/-- The number of values of a machine word of 64 bits. -/
def wordBound : Nat := 0x10000000000000000

/-- The number of values of a machine word of 32 bits. -/
def halfWordBound : Nat := 0x100000000

end Deobfuscate.Text
