import Deobfuscate.LittleEndian

/-!
# Compressed data

Data is compressed in blocks: stored bytes, or symbols of a code that is fixed
or described at the start of the block.  A symbol is a byte, the end of the
block, or the length of a piece that is repeated from earlier output.

Output goes through a window that starts out with zeros, so that a piece may be
repeated from before the first byte.  Reading gives the bytes up to the first
fault together with the fault, because what was handed on before it may already
be in use.
-/

namespace Deobfuscate.Archive

/-- A fault in compressed data. -/
inductive InflateFault
  | truncated
  | badBlock
  | badCode
  | badSymbol
  deriving DecidableEq, Repr

def bitsOfByte (byte : UInt8) : List Bool :=
  (List.range 8).map fun index => byte.toNat.testBit index

def bitsOf (bytes : Bytes) : List Bool :=
  bytes.flatMap bitsOfByte

/-- Take a number of a given width off the front of bits; its least significant
bit comes first. -/
def takeNumber : Nat → List Bool → Except InflateFault (Nat × List Bool)
  | 0, bits => .ok (0, bits)
  | _ + 1, [] => .error .truncated
  | width + 1, bit :: bits => do
      let (number, bits) ← takeNumber width bits
      return (bit.toNat + 2 * number, bits)

/-- A canonical code: for each length from one on the number of its codes, and
the symbols in the order of their codes. -/
structure Code where
  counts : List Nat
  symbols : Array Nat
  deriving Repr

def maxCodeLength : Nat := 15

/-- The code in which each symbol has a code of the given length; symbols of
length zero have none. -/
def Code.ofLengths (lengths : List Nat) : Code :=
  let symbolsOf (length : Nat) : List Nat :=
    (lengths.zipIdx.filter fun entry => entry.1 == length).map Prod.snd
  let sizes := (List.range maxCodeLength).map (· + 1)
  { counts := sizes.map fun length => lengths.count length
    symbols := (sizes.flatMap symbolsOf).toArray }

/-- The share of all bit sequences of the greatest length that start with a
code. -/
def coverage : Nat → List Nat → Nat
  | _, [] => 0
  | weight, count :: rest => count * weight + coverage (weight / 2) rest

/-- Whether each sequence of bits starts with exactly one code. -/
def Code.isComplete (code : Code) : Bool :=
  coverage (Nat.pow 2 (maxCodeLength - 1)) code.counts =
    Nat.pow 2 maxCodeLength

/-- Whether a code of bytes or distances can be used.  One that has no symbols,
or a single one with a code of one bit, need not be complete. -/
def Code.isUsable (code : Code) : Bool :=
  code.isComplete || code.symbols.isEmpty ||
    (code.symbols.size = 1 && code.counts.head? = some 1)

/-- Decode a symbol.  `first` is the first code of the current length, `index`
the position of its symbol, and `value` the bits read so far. -/
def decodeFrom (symbols : Array Nat) :
    List Nat → Nat → Nat → Nat → List Bool →
      Except InflateFault (Nat × List Bool)
  | [], _, _, _, _ => .error .badCode
  | _ :: _, _, _, _, [] => .error .truncated
  | count :: counts, value, first, index, bit :: bits =>
      let value := value + bit.toNat
      if value < first + count then
        match symbols[index + (value - first)]? with
        | some symbol => .ok (symbol, bits)
        | none => .error .badCode
      else if counts.all (· == 0) then .error .badCode
      else
        decodeFrom symbols counts (2 * value) (2 * (first + count))
          (index + count) bits

/-- Take a symbol off the front of bits. -/
def Code.decode (code : Code) (bits : List Bool) :
    Except InflateFault (Nat × List Bool) :=
  decodeFrom code.symbols code.counts 0 0 0 bits

def fixedLiterals : Code :=
  .ofLengths (List.replicate 144 8 ++ List.replicate 112 9 ++
    List.replicate 24 7 ++ List.replicate 8 8)

def fixedDistances : Code :=
  .ofLengths (List.replicate 32 5)

/-- The order in which the lengths of the code of lengths are written. -/
def lengthOrder : List Nat :=
  [16, 17, 18, 0, 8, 7, 9, 6, 10, 5, 11, 4, 12, 3, 13, 2, 14, 1, 15]

def takeSmallNumbers : Nat → List Bool →
    Except InflateFault (List Nat × List Bool)
  | 0, bits => .ok ([], bits)
  | count + 1, bits => do
      let (number, bits) ← takeNumber 3 bits
      let (numbers, bits) ← takeSmallNumbers count bits
      return (number :: numbers, bits)

/-- Take code lengths off the front of bits, until there are `total`.  The
lengths so far are given in reverse. -/
def takeLengths (code : Code) (total : Nat) : Nat → List Nat → List Bool →
    Except InflateFault (List Nat × List Bool)
  | 0, _, _ => .error .badCode
  | fuel + 1, lengths, bits =>
      if lengths.length = total then .ok (lengths.reverse, bits)
      else if total < lengths.length then .error .badCode
      else do
        let (symbol, bits) ← code.decode bits
        let again (length least width : Nat) := do
          let (extra, bits) ← takeNumber width bits
          takeLengths code total fuel
            (List.replicate (least + extra) length ++ lengths) bits
        match symbol with
        | 16 =>
            match lengths with
            | [] => .error .badCode
            | length :: _ => again length 3 2
        | 17 => again 0 3 3
        | 18 => again 0 11 7
        | length => takeLengths code total fuel (length :: lengths) bits

/-- The greatest number of bytes and lengths that a block may describe. -/
def maxLiterals : Nat := 286

/-- The greatest number of distances that a block may describe. -/
def maxDistances : Nat := 30

/-- The two codes that a block describes at its start. -/
def takeCodes (bits : List Bool) :
    Except InflateFault (Code × Code × List Bool) := do
  let (literals, bits) ← takeNumber 5 bits
  let (distances, bits) ← takeNumber 5 bits
  let (count, bits) ← takeNumber 4 bits
  if maxLiterals < literals + 257 || maxDistances < distances + 1 then
    .error .badCode
  let (written, bits) ← takeSmallNumbers (count + 4) bits
  let given := lengthOrder.zip written
  let lengthCode := Code.ofLengths
    ((List.range 19).map fun symbol => (given.lookup symbol).getD 0)
  if !lengthCode.isComplete then .error .badCode
  else
    let total := literals + 257 + (distances + 1)
    let (lengths, bits) ← takeLengths lengthCode total (total + 1) [] bits
    let literalCode := Code.ofLengths (lengths.take (literals + 257))
    let distanceCode := Code.ofLengths (lengths.drop (literals + 257))
    if literalCode.isUsable && distanceCode.isUsable
    then return (literalCode, distanceCode, bits)
    else .error .badCode

/-- The least length and the extra bits of each length symbol from 257 on. -/
def lengthRanges : Array (Nat × Nat) :=
  #[(3, 0), (4, 0), (5, 0), (6, 0), (7, 0), (8, 0), (9, 0), (10, 0), (11, 1),
    (13, 1), (15, 1), (17, 1), (19, 2), (23, 2), (27, 2), (31, 2), (35, 3),
    (43, 3), (51, 3), (59, 3), (67, 4), (83, 4), (99, 4), (115, 4), (131, 5),
    (163, 5), (195, 5), (227, 5), (258, 0)]

/-- The least distance and the extra bits of each distance symbol. -/
def distanceRanges : Array (Nat × Nat) :=
  #[(1, 0), (2, 0), (3, 0), (4, 0), (5, 1), (7, 1), (9, 2), (13, 2), (17, 3),
    (25, 3), (33, 4), (49, 4), (65, 5), (97, 5), (129, 6), (193, 6), (257, 7),
    (385, 7), (513, 8), (769, 8), (1025, 9), (1537, 9), (2049, 10),
    (3073, 10), (4097, 11), (6145, 11), (8193, 12), (12289, 12), (16385, 13),
    (24577, 13)]

def takeRanged (ranges : Array (Nat × Nat)) (symbol : Nat)
    (bits : List Bool) : Except InflateFault (Nat × List Bool) :=
  match ranges[symbol]? with
  | none => .error .badSymbol
  | some (least, width) => do
      let (extra, bits) ← takeNumber width bits
      return (least + extra, bits)

/-- The byte that stands a distance before the end of the output; before the
first byte there are zeros. -/
def earlierByte (output : Array UInt8) (distance : Nat) : UInt8 :=
  if output.size < distance then 0
  else output[output.size - distance]?.getD 0

def repeatOutput (distance : Nat) : Nat → Array UInt8 → Array UInt8
  | 0, output => output
  | count + 1, output =>
      repeatOutput distance count (output.push (earlierByte output distance))

/-- What reading gives: the output so far and either a fault or the bits that
are left. -/
abbrev Inflated := Array UInt8 × Except InflateFault (List Bool)

def takePiece (distanceCode : Code) (symbol : Nat) (bits : List Bool) :
    Except InflateFault (Nat × Nat × List Bool) := do
  let (length, bits) ← takeRanged lengthRanges (symbol - 257) bits
  let (code, bits) ← distanceCode.decode bits
  let (distance, bits) ← takeRanged distanceRanges code bits
  return (length, distance, bits)

def readSymbols (literalCode distanceCode : Code) :
    Nat → Array UInt8 → List Bool → Inflated
  | 0, output, _ => (output, .error .truncated)
  | fuel + 1, output, bits =>
      match literalCode.decode bits with
      | .error fault => (output, .error fault)
      | .ok (symbol, bits) =>
          if symbol < 256 then
            readSymbols literalCode distanceCode fuel
              (output.push (UInt8.ofNat symbol)) bits
          else if symbol = 256 then (output, .ok bits)
          else
            match takePiece distanceCode symbol bits with
            | .error fault => (output, .error fault)
            | .ok (length, distance, bits) =>
                readSymbols literalCode distanceCode fuel
                  (repeatOutput distance length output) bits

def readStored : Nat → Array UInt8 → List Bool → Inflated
  | 0, output, bits => (output, .ok bits)
  | count + 1, output, bits =>
      match takeNumber 8 bits with
      | .error fault => (output, .error fault)
      | .ok (byte, bits) => readStored count (output.push (UInt8.ofNat byte)) bits

/-- Read the length of a stored block, which starts at a whole byte. -/
def takeStoredLength (bits : List Bool) :
    Except InflateFault (Nat × List Bool) := do
  let (length, bits) ← takeNumber 16 (bits.drop (bits.length % 8))
  let (check, bits) ← takeNumber 16 bits
  if length + check = 0xFFFF then return (length, bits)
  else .error .badBlock

def readBlock (kind : Nat) (output : Array UInt8) (bits : List Bool) :
    Inflated :=
  match kind with
  | 0 =>
      match takeStoredLength bits with
      | .error fault => (output, .error fault)
      | .ok (length, bits) => readStored length output bits
  | 1 => readSymbols fixedLiterals fixedDistances bits.length output bits
  | 2 =>
      match takeCodes bits with
      | .error fault => (output, .error fault)
      | .ok (literalCode, distanceCode, bits) =>
          readSymbols literalCode distanceCode bits.length output bits
  | _ => (output, .error .badBlock)

def readBlocks : Nat → Array UInt8 → List Bool → Inflated
  | 0, output, _ => (output, .error .truncated)
  | fuel + 1, output, bits =>
      match takeNumber 3 bits with
      | .error fault => (output, .error fault)
      | .ok (header, bits) =>
          match readBlock (header / 2) output bits with
          | (output, .error fault) => (output, .error fault)
          | (output, .ok bits) =>
              if header % 2 = 1 then (output, .ok bits)
              else readBlocks fuel output bits

/-- Expand compressed data: its bytes as far as they can be read, and the fault
that ends them if there is one.  What follows the last block does not count. -/
def inflate (bytes : Bytes) : Bytes × Option InflateFault :=
  let bits := bitsOf bytes
  match readBlocks (bits.length + 1) #[] bits with
  | (output, .ok _) => (output.toList, none)
  | (output, .error fault) => (output.toList, some fault)

def windowSize : Nat := 0x8000

/-- What of expanded data is handed on, and whether it ends without a fault.
Data that merely ends too early is handed on in full and counts as ended.  Any
other fault takes with it what is in the window when it is found, and a full
window is only emptied when another byte follows. -/
def handedOn : Bytes × Option InflateFault → Bytes × Bool
  | (bytes, none) => (bytes, true)
  | (bytes, some .truncated) => (bytes, true)
  | (bytes, some _) =>
      (bytes.take ((bytes.length - 1) / windowSize * windowSize), false)

/-! ## Writing -/

/-- The greatest length of a stored block. -/
def maxStored : Nat := 0xFFFF

def storedBlock (isLast : Bool) (bytes : Bytes) : Bytes :=
  UInt8.ofNat isLast.toNat :: LittleEndian.bytes 2 bytes.length ++
    LittleEndian.bytes 2 (0xFFFF - bytes.length) ++ bytes

def deflateStored (bytes : Bytes) : Bytes :=
  if bytes.length ≤ maxStored then storedBlock true bytes
  else
    storedBlock false (bytes.take maxStored) ++
      deflateStored (bytes.drop maxStored)
termination_by bytes.length
decreasing_by simp [maxStored] at *; omega

end Deobfuscate.Archive
