/-!
# Integers in texts

Numbers have 64 bits.  A text may start with blanks and a sign; a base can be
given by how the digits start.
-/

namespace Deobfuscate.Shell

def greatestInteger : Int := 9223372036854775807

def leastInteger : Int := -9223372036854775808

def isSpacing (char : Char) : Bool :=
  char == ' ' || ('\t' ≤ char && char ≤ '\x0d')

def digitValue (char : Char) : Nat :=
  if char.isDigit then char.toNat - '0'.toNat
  else if char.isLower then char.toNat - 'a'.toNat + 10
  else if char.isUpper then char.toNat - 'A'.toNat + 10
  else 36

/-- What was read of a text as a number. -/
structure IntegerReading where
  negative : Bool
  magnitude : Nat
  /-- Whether there was at least one digit. -/
  found : Bool
  /-- What follows the number. -/
  rest : List Char
  deriving DecidableEq, Repr

namespace IntegerReading

/-- The number that the digits are. -/
def exact (reading : IntegerReading) : Int :=
  if reading.negative then -reading.magnitude else reading.magnitude

/-- Whether there is no such number. -/
def overflows (reading : IntegerReading) : Bool :=
  reading.exact < leastInteger || greatestInteger < reading.exact

/-- The number, or the nearest one that there is. -/
def value (reading : IntegerReading) : Int :=
  max leastInteger (min greatestInteger reading.exact)

end IntegerReading

def readDigits (base : Nat) (negative : Bool) (chars : List Char) :
    IntegerReading :=
  let isDigit (char : Char) : Bool := digitValue char < base
  let digits := chars.takeWhile isDigit
  { negative
    magnitude :=
      digits.foldl (fun value digit => value * base + digitValue digit) 0
    found := !digits.isEmpty
    rest := chars.dropWhile isDigit }

def readByStart (negative : Bool) : List Char → IntegerReading
  | '0' :: mark :: digit :: rest =>
      if (mark == 'x' || mark == 'X') && digitValue digit < 16 then
        readDigits 16 negative (digit :: rest)
      else readDigits 8 negative ('0' :: mark :: digit :: rest)
  | '0' :: rest => readDigits 8 negative ('0' :: rest)
  | chars => readDigits 10 negative chars

/-- Read the number at the start of a text, in base ten unless the base is
given by the digits. -/
def readInteger (anyBase : Bool) (chars : List Char) : IntegerReading :=
  let read (negative : Bool) (digits : List Char) :=
    if anyBase then readByStart negative digits
    else readDigits 10 negative digits
  let reading :=
    match chars.dropWhile isSpacing with
    | '-' :: digits => read true digits
    | '+' :: digits => read false digits
    | digits => read false digits
  if reading.found then reading else { reading with rest := chars }

/-- The number that a text is; blanks may follow it.  If the base is given by
the digits, blanks alone are zero. -/
def integer? (anyBase : Bool) (text : String) : Option Int :=
  let reading := readInteger anyBase text.toList
  if reading.overflows || !(reading.found || anyBase) ||
      !reading.rest.all isSpacing then none
  else some reading.value

end Deobfuscate.Shell
