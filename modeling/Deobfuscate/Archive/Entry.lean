import Deobfuscate.Archive.Checksum
import Deobfuscate.Archive.Inflate

/-!
# Entries of zip files

An entry is what the directory of a zip file says about it, together with the
data that its place leads to.
-/

namespace Deobfuscate.Archive

/-- How the data of an entry is kept. -/
inductive Method
  | stored
  | deflated
  | unknown (code : Nat)
  deriving DecidableEq, Repr

def Method.ofCode : Nat → Method
  | 0 => .stored
  | 8 => .deflated
  | code => .unknown code

/-- The method that only says that the data is encrypted; the real one stands
in an extra field. -/
def Method.sealed : Method := .unknown 99

/-- An entry of a zip file. -/
structure ZipEntry where
  name : String
  /-- The name as it is written. -/
  nameBytes : Bytes
  comment : String
  method : Method
  encrypted : Bool
  /-- Whether an extra field says how the data is encrypted. -/
  keyed : Bool := false
  /-- The date and the time of the last change. -/
  date : Nat
  time : Nat
  checksum : Nat
  /-- The size of the expanded data according to the directory. -/
  size : Nat
  /-- The size of the data as it is kept. -/
  packedSize : Nat
  /-- The place of the entry's own header. -/
  start : Nat
  /-- The data as it is kept, if the entry has a header of its own. -/
  data : Option Bytes := none
  deriving DecidableEq, Repr

namespace ZipEntry

def isDirectory (entry : ZipEntry) : Bool :=
  match entry.name.toList.getLast? with
  | some last => last == '/' || last == '\\'
  | none => false

def isReadable (entry : ZipEntry) : Bool :=
  !entry.encrypted && !entry.keyed && entry.data.isSome &&
    (entry.method == .stored || entry.method == .deflated)

/-- The data of an entry as far as it is handed on, and whether it ends without
a fault and has the checksum of the entry. -/
def content (entry : ZipEntry) : Bytes × Bool :=
  let packed := entry.data.getD []
  let (bytes, sound) :=
    match entry.method with
    | .deflated => handedOn (inflate packed)
    | _ => (packed, true)
  (bytes, sound && (Archive.checksum bytes).toNat == entry.checksum)

def twoDigits (number : Nat) : String :=
  String.ofList
    [Nat.digitChar (number / 10 % 10), Nat.digitChar (number % 10)]

/-- The day of the last change. -/
def dateText (entry : ZipEntry) : String :=
  s!"{1980 + entry.date / 512}-{twoDigits (entry.date / 32 % 16)}-" ++
    twoDigits (entry.date % 32)

/-- The time of day of the last change; seconds are even. -/
def timeText (entry : ZipEntry) : String :=
  s!"{twoDigits (entry.time / 2048)}:{twoDigits (entry.time / 32 % 64)}:" ++
    twoDigits (entry.time % 32 * 2)

end ZipEntry

end Deobfuscate.Archive
