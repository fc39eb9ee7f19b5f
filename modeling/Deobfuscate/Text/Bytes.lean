/-!
# Bytes and texts

Files and streams hold bytes.  A text is stored in UTF-8; bytes that are not
UTF-8 have no text, but can be shown with every ill-formed part replaced by
the replacement character.
-/

namespace Deobfuscate

abbrev Bytes := List UInt8

namespace Text

def encode (text : String) : Bytes :=
  text.toUTF8.data.toList

def decode (bytes : Bytes) : Option String :=
  String.fromUTF8? ⟨bytes.toArray⟩

/-- For the first byte of a character of several bytes: the number of bytes
that follow it and the range of the first of them. -/
def leadByte (byte : UInt8) : Option (Nat × UInt8 × UInt8) :=
  if 0xC2 ≤ byte && byte ≤ 0xDF then some (1, 0x80, 0xBF)
  else if byte = 0xE0 then some (2, 0xA0, 0xBF)
  else if byte = 0xED then some (2, 0x80, 0x9F)
  else if 0xE1 ≤ byte && byte ≤ 0xEF then some (2, 0x80, 0xBF)
  else if byte = 0xF0 then some (3, 0x90, 0xBF)
  else if 0xF1 ≤ byte && byte ≤ 0xF3 then some (3, 0x80, 0xBF)
  else if byte = 0xF4 then some (3, 0x80, 0x8F)
  else none

def leadBits (following : Nat) (byte : UInt8) : Nat :=
  byte.toNat % Nat.pow 2 (6 - following)

def takeContinuations :
    Nat → Nat → UInt8 → UInt8 → Bytes → Option Nat × Nat
  | 0, value, _, _, _ => (some value, 0)
  | _ + 1, _, _, _, [] => (none, 0)
  | missing + 1, value, low, high, byte :: rest =>
      if low ≤ byte && byte ≤ high then
        let (result, taken) :=
          takeContinuations missing (value * 64 + byte.toNat % 64)
            0x80 0xBF rest
        (result, taken + 1)
      else (none, 0)

/-- The character at the start of some bytes and the number of bytes it takes;
the longest ill-formed start counts as one replacement character. -/
def decodeChar (byte : UInt8) (rest : Bytes) : Char × Nat :=
  if byte < 0x80 then (Char.ofNat byte.toNat, 0)
  else
    match leadByte byte with
    | none => (Char.ofNat 0xFFFD, 0)
    | some (following, low, high) =>
        match takeContinuations following (leadBits following byte)
            low high rest with
        | (some value, taken) => (Char.ofNat value, taken)
        | (none, taken) => (Char.ofNat 0xFFFD, taken)

/-- Decode bytes, skipping those that belong to a character already read. -/
def decodeLossyFrom : Nat → Bytes → List Char
  | _, [] => []
  | pending + 1, _ :: rest => decodeLossyFrom pending rest
  | 0, byte :: rest =>
      let (char, taken) := decodeChar byte rest
      char :: decodeLossyFrom taken rest

/-- The text of bytes, ill-formed parts replaced. -/
def decodeLossy (bytes : Bytes) : String :=
  String.ofList (decodeLossyFrom 0 bytes)

/-- A byte as two lower-case hexadecimal digits. -/
def hexOfByte (byte : UInt8) : List Char :=
  [Nat.digitChar (byte.toNat / 16), Nat.digitChar (byte.toNat % 16)]

/-- Bytes as lower-case hexadecimal digits. -/
def hexOf (bytes : Bytes) : String :=
  String.ofList (bytes.flatMap hexOfByte)

/-- The value of a hexadecimal digit of either case. -/
def hexDigit? (char : Char) : Option Nat :=
  if '0' ≤ char && char ≤ '9' then some (char.toNat - '0'.toNat)
  else if 'a' ≤ char && char ≤ 'f' then some (char.toNat - 'a'.toNat + 10)
  else if 'A' ≤ char && char ≤ 'F' then some (char.toNat - 'A'.toNat + 10)
  else none

/-- The bytes written by pairs of hexadecimal digits. -/
def bytesOfHex? : List Char → Option Bytes
  | [] => some []
  | high :: low :: rest => do
      let upper ← hexDigit? high
      let lower ← hexDigit? low
      let bytes ← bytesOfHex? rest
      return UInt8.ofNat (upper * 16 + lower) :: bytes
  | [_] => none

end Text

end Deobfuscate
