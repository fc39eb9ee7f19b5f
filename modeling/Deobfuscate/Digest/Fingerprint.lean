import Deobfuscate.Digest.Sha256
import Deobfuscate.Text.Blank

/-!
# Fingerprints

A fingerprint is a hash written with lower-case hexadecimal digits.
-/

namespace Deobfuscate

/-- The text of a hash. -/
structure Fingerprint where
  text : String
  deriving DecidableEq, Repr

namespace Fingerprint

def ofBytes (bytes : Bytes) : Fingerprint :=
  ⟨Text.hexOf (Sha256.hash bytes)⟩

/-- A hexadecimal digit with its letters in lower case. -/
def lowerHexDigit (char : Char) : Char :=
  if 'A' ≤ char && char ≤ 'F' then Char.ofNat (char.toNat + 32) else char

/-- Read a fingerprint.  Blanks around it and the case of its letters do not
matter; anything but sixty-four digits is refused. -/
def parse (text : String) : Option Fingerprint :=
  let chars := Text.trimChars text.toList
  if chars.length = 64 && chars.all fun char => (Text.hexDigit? char).isSome
  then some ⟨String.ofList (chars.map lowerHexDigit)⟩
  else none

end Fingerprint

end Deobfuscate
