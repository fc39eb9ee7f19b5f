/-!
# Decimal texts of binary floating-point numbers

A positive number of double precision is a mantissa of at most 53 bits times a
power of two.  A decimal stands for the nearest such number, a tie going to the
even mantissa, and a number is written with the fewest digits that read back.
-/

namespace Deobfuscate.Text

/-- The number `mantissa * 2 ^ exponent`. -/
structure Double where
  mantissa : Nat
  exponent : Int
  deriving DecidableEq, Repr

/-- An integer power of a positive number. -/
def powerOf (base : Nat) (exponent : Int) : Rat :=
  if 0 ≤ exponent then ((base.pow exponent.toNat : Nat) : Rat)
  else 1 / ((base.pow (-exponent).toNat : Nat) : Rat)

def Double.value (number : Double) : Rat :=
  (number.mantissa : Rat) * powerOf 2 number.exponent

/-- The first mantissa of more than 53 bits. -/
def mantissaBound : Nat := 0x20000000000000

/-- The exponent of the smallest numbers. -/
def leastExponent : Int := -1074

def greatestExponent : Int := 971

/-- Round to the nearest integer, a tie going to the even one. -/
def roundEven (value : Rat) : Nat :=
  let below := value.floor.toNat
  let part := value - (below : Rat)
  if part < 1 / 2 then below
  else if 1 / 2 < part then below + 1
  else if below % 2 = 0 then below else below + 1

def normalExponent (value : Rat) : Int :=
  let estimate : Int :=
    (Nat.log2 value.num.natAbs : Int) - (Nat.log2 value.den : Int) - 53
  if value < (mantissaBound : Rat) * powerOf 2 estimate then estimate
  else estimate + 1

/-- The number nearest to a positive value; `none` if that is too great. -/
def nearestDouble (value : Rat) : Option Double :=
  let exponent := max (normalExponent value) leastExponent
  let mantissa := roundEven (value / powerOf 2 exponent)
  let number : Double :=
    if mantissa = mantissaBound then ⟨mantissaBound / 2, exponent + 1⟩
    else ⟨mantissa, exponent⟩
  if greatestExponent < number.exponent then none else some number

def Double.covers (number : Double) (value : Rat) : Bool :=
  nearestDouble value == some number

/-- The position of the first digit of a positive value: the greatest power of
ten that is not above it, searched downwards. -/
def leadingPower (value : Rat) : Nat → Int → Int
  | 0, power => power
  | steps + 1, power =>
      if powerOf 10 power ≤ value then power
      else leadingPower value steps (power - 1)

def decimalOf? (number : Double) (lead : Int) (count : Nat) :
    Option (Nat × Int) :=
  let unit := lead - count + 1
  let scaled := number.value / powerOf 10 unit
  let below := scaled.floor.toNat
  let fits (digits : Nat) : Bool :=
    number.covers ((digits : Rat) * powerOf 10 unit)
  let nearer := if scaled - (below : Rat) ≤ 1 / 2
    then [below, below + 1] else [below + 1, below]
  (nearer.find? fits).map fun digits => (digits, unit)

/-- The decimal with the fewest digits that reads back as a positive number. -/
def shortestDecimal (number : Double) : Nat × Int :=
  let lead := leadingPower number.value 700 330
  (((List.range 17).map (· + 1)).findSome? (decimalOf? number lead)).getD
    (0, 0)

def dropZeros : Nat → Nat → Nat × Nat
  | 0, digits => (digits, 0)
  | steps + 1, digits =>
      if digits ≠ 0 ∧ digits % 10 = 0 then
        let (rest, count) := dropZeros steps (digits / 10)
        (rest, count + 1)
      else (digits, 0)

/-- A decimal without an exponent. -/
def positional (digits : Nat) (power : Int) : String :=
  let (digits, zeros) := dropZeros 400 digits
  let power := power + zeros
  let shown := (Nat.repr digits).toList
  if 0 ≤ power then
    String.ofList (shown ++ List.replicate power.toNat '0')
  else
    let places := (-power).toNat
    let padded := List.replicate (places + 1 - shown.length) '0' ++ shown
    String.ofList (padded.take (padded.length - places) ++
      '.' :: padded.drop (padded.length - places))

def Double.text (number : Double) : String :=
  if number.mantissa = 0 then "0"
  else
    let (digits, power) := shortestDecimal number
    positional digits power

/-- The number that the decimal `digits * 10 ^ power` stands for; `none` if it
is too great. -/
def roundDecimal (digits : Nat) (power : Int) : Option Double :=
  let size : Int := (Nat.repr digits).length
  if digits = 0 ∨ power + size < -400 then some ⟨0, leastExponent⟩
  else if 400 < power + size then none
  else nearestDouble ((digits : Rat) * powerOf 10 power)

/-- A decimal text with a point: an integer gets a final `.0`. -/
def withPoint (text : String) : String :=
  if text.toList.contains '.' then text else text ++ ".0"

end Deobfuscate.Text
