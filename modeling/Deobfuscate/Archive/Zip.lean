import Deobfuscate.Archive.ExtraField
import Deobfuscate.Text.CodePage

/-!
# Zip files

A zip file holds its entries one after another, each behind a header of its
own; a directory at the end lists them, and an end record says where the
directory starts.  The directory counts: an entry is what it says it is.

Bytes may stand before the first entry and behind the end record.  All places
are then shifted by as much as the directory is.  Where numbers do not fit into
the end record, a wide end record before it has them, and a locator between the
two says where that is.
-/

namespace Deobfuscate.Archive

open Deobfuscate.Text

def numberAt (record : Bytes) (offset width : Nat) : Nat :=
  LittleEndian.value ((record.drop offset).take width)

/-- The mark of an entry's own header. -/
def localMark : Bytes := [0x50, 0x4B, 0x03, 0x04]

def directoryMark : Bytes := [0x50, 0x4B, 0x01, 0x02]

def endMark : Bytes := [0x50, 0x4B, 0x05, 0x06]

def wideEndMark : Bytes := [0x50, 0x4B, 0x06, 0x06]

def locatorMark : Bytes := [0x50, 0x4B, 0x06, 0x07]

def recordOf (mark : Bytes) (size : Nat) (bytes : Bytes) : Option Bytes :=
  let record := bytes.take size
  if record.length = size ∧ record.take 4 = mark then some record else none

/-- The places at which a mark stands, in increasing order; the first of the
given bytes stands at `place`. -/
def placesOf (mark : Bytes) : Nat → Bytes → List Nat
  | _, [] => []
  | place, byte :: rest =>
      if mark.isPrefixOf (byte :: rest) then
        place :: placesOf mark (place + 1) rest
      else placesOf mark (place + 1) rest

/-- The data of the entry with its own header at a place, as far as the file
has it. -/
def packedData (bytes : Bytes) (start size : Nat) : Option Bytes := do
  let header ← recordOf localMark 30 (bytes.drop start)
  let first := start + 30 + numberAt header 26 2 + numberAt header 28 2
  return (bytes.drop first).take size

/-- The entry that a record of the directory describes, with its extra fields
left out. -/
def entryOf (header name comment : Bytes) : ZipEntry :=
  let flags := numberAt header 8 2
  let text (bytes : Bytes) :=
    if flags.testBit 11 then decodeLossy bytes else decodeCodePage bytes
  { name := text name
    nameBytes := name
    comment := text comment
    method := .ofCode (numberAt header 10 2)
    encrypted := flags.testBit 0
    time := numberAt header 12 2
    date := numberAt header 14 2
    checksum := numberAt header 16 4
    packedSize := numberAt header 20 4
    size := numberAt header 24 4
    start := numberAt header 42 4 }

/-- The number of places that a file can have. -/
def placeLimit : Nat := 0x10000000000000000

def readEntry (bytes : Bytes) (shift place : Nat) :
    Option (ZipEntry × Nat) := do
  let header ← recordOf directoryMark 46 (bytes.drop place)
  let nameLength := numberAt header 28 2
  let extraLength := numberAt header 30 2
  let more := nameLength + extraLength + numberAt header 32 2
  let tail := (bytes.drop (place + 46)).take more
  if tail.length < more then none
  else
    let described := entryOf header (tail.take nameLength)
      (tail.drop (nameLength + extraLength))
    let entry ←
      readFields described ((tail.drop nameLength).take extraLength)
    let start := entry.start + shift
    if (entry.method == .sealed && !entry.keyed) || placeLimit ≤ start then none
    else
      let data := packedData bytes start entry.packedSize
      return ({ entry with start, data }, place + 46 + more)

def readEntries (bytes : Bytes) (shift : Nat) :
    Nat → Nat → Option (List ZipEntry)
  | 0, _ => some []
  | count + 1, place => do
      let (entry, next) ← readEntry bytes shift place
      return entry :: (← readEntries bytes shift count next)

/-- Add an entry.  An entry of the same name is replaced where it stands. -/
def addEntry (entries : List ZipEntry) (entry : ZipEntry) : List ZipEntry :=
  if entries.any fun other => other.name == entry.name then
    entries.map fun other => if other.name == entry.name then entry else other
  else entries ++ [entry]

def placesBetween (mark bytes : Bytes) (start finish : Nat) : List Nat :=
  placesOf mark start ((bytes.drop start).take (finish - start))

/-- Where a directory starts, how many entries it has, and by how much places
are shifted. -/
structure Directory where
  place : Nat
  count : Nat
  shift : Nat
  deriving DecidableEq, Repr

def Directory.read (bytes : Bytes) (directory : Directory) :
    Option (List ZipEntry) :=
  readEntries bytes directory.shift directory.count directory.place

/-- The directory that the end record at a place leads to by itself.  It starts
where the record says, or at the first mark of a directory entry behind
that. -/
def narrowDirectory (bytes record : Bytes) (place : Nat) : Option Directory :=
  let claimed := numberAt record 16 4
  let count := numberAt record 8 2
  if numberAt record 4 2 ≠ numberAt record 6 2 then none
  else if numberAt record 10 2 = 0 then
    let shift := place - claimed
    some { place := claimed + shift, count, shift }
  else
    (placesBetween directoryMark bytes claimed place).head?.map fun start =>
      { place := start, count, shift := start - claimed }

def wideRecord (bytes locator : Bytes) (finish place : Nat) : Option Bytes := do
  let record ← recordOf wideEndMark 56 (bytes.drop place)
  let size := numberAt record 4 8
  if size < 44 || size + 12 ≠ finish - place then none
  else if numberAt record 20 4 ≠ numberAt locator 4 4 then none
  else if place < numberAt record 32 8 * 46 + numberAt record 48 8 then none
  else return record

def wideDirectory (bytes locator : Bytes) (place : Nat) : Option Directory := do
  let claimed := numberAt locator 8 8
  if place ≤ claimed || 1 < numberAt locator 16 4 then none
  else
    let (start, record) ←
      (placesBetween wideEndMark bytes claimed place).findSome? fun start =>
        (wideRecord bytes locator place start).map (start, ·)
    let count := numberAt record 32 8
    let shift := start - claimed
    if numberAt record 16 4 ≠ numberAt record 20 4 then none
    else if count < numberAt record 24 8 then none
    else return { place := numberAt record 48 8 + shift, count, shift }

def locatorSize : Nat := 20

def locatorOf (bytes record : Bytes) (place : Nat) : Option Bytes :=
  let isWide := numberAt record 10 2 = 0xFFFF || numberAt record 16 4 = wideMark
  if isWide && locatorSize ≤ place then
    recordOf locatorMark locatorSize (bytes.drop (place - locatorSize))
  else none

def readFromEnd (bytes : Bytes) (place : Nat) : Option (List ZipEntry) := do
  let record ← recordOf endMark 22 (bytes.drop place)
  if bytes.length < place + 22 + numberAt record 20 2 then none
  else
    let directory ←
      match locatorOf bytes record place with
      | none => narrowDirectory bytes record place
      | some locator => wideDirectory bytes locator (place - locatorSize)
    directory.read bytes

/-- Read a zip file: the entries of the last end record that fits. -/
def readZip (bytes : Bytes) : Option (List ZipEntry) := do
  let places := (placesOf endMark 0 bytes).reverse
  let entries ← places.findSome? (readFromEnd bytes)
  return entries.foldl addEntry []

/-! ## Writing -/

def firstDate : Nat := 0x21

def sharedHeader (name : Bytes) (content packed : Bytes) : Bytes :=
  let flags := if name.all (· < 128) then 0 else 0x800
  LittleEndian.bytes 2 20 ++ LittleEndian.bytes 2 flags ++
    LittleEndian.bytes 2 8 ++ LittleEndian.bytes 2 0 ++
    LittleEndian.bytes 2 firstDate ++
    LittleEndian.bytes 4 (checksum content).toNat ++
    LittleEndian.bytes 4 packed.length ++
    LittleEndian.bytes 4 content.length ++
    LittleEndian.bytes 2 name.length ++ LittleEndian.bytes 2 0

def localRecord (entry : String × Bytes) : Bytes :=
  let name := encode entry.1
  let packed := deflateStored entry.2
  localMark ++ sharedHeader name entry.2 packed ++ name ++ packed

def directoryRecord (entry : String × Bytes) (place : Nat) : Bytes :=
  let name := encode entry.1
  directoryMark ++ LittleEndian.bytes 2 20 ++
    sharedHeader name entry.2 (deflateStored entry.2) ++
    LittleEndian.bytes 2 0 ++ LittleEndian.bytes 2 0 ++
    LittleEndian.bytes 2 0 ++ LittleEndian.bytes 4 0 ++
    LittleEndian.bytes 4 place ++ name

/-- The directory for entries of which the first starts at a place. -/
def directoryRecords : Nat → List (String × Bytes) → Bytes
  | _, [] => []
  | place, entry :: rest =>
      directoryRecord entry place ++
        directoryRecords (place + (localRecord entry).length) rest

def endRecord (count size place : Nat) : Bytes :=
  endMark ++ LittleEndian.bytes 2 0 ++ LittleEndian.bytes 2 0 ++
    LittleEndian.bytes 2 count ++ LittleEndian.bytes 2 count ++
    LittleEndian.bytes 4 size ++ LittleEndian.bytes 4 place ++
    LittleEndian.bytes 2 0

/-- Write entries in order as a zip file. -/
def writeZip (entries : List (String × Bytes)) : Bytes :=
  let files := entries.flatMap localRecord
  let directory := directoryRecords 0 entries
  files ++ directory ++
    endRecord entries.length directory.length files.length

end Deobfuscate.Archive
