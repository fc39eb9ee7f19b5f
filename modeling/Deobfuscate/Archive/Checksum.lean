import Deobfuscate.Text.Bytes

/-!
# The checksum of archive entries

The cyclic redundancy check of 32 bits with the reflected polynomial.
-/

namespace Deobfuscate.Archive

def checksumBit (sum : UInt32) : UInt32 :=
  if sum &&& 1 = 1 then (sum >>> 1) ^^^ 0xEDB88320 else sum >>> 1

def checksumBits : Nat → UInt32 → UInt32
  | 0, sum => sum
  | count + 1, sum => checksumBits count (checksumBit sum)

def checksumByte (sum : UInt32) (byte : UInt8) : UInt32 :=
  checksumBits 8 (sum ^^^ byte.toUInt32)

def checksum (bytes : Bytes) : UInt32 :=
  (bytes.foldl checksumByte 0xFFFFFFFF) ^^^ 0xFFFFFFFF

end Deobfuscate.Archive
