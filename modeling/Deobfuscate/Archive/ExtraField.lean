import Deobfuscate.Archive.Entry

/-!
# Extra fields

Behind the name of an entry the directory can have extra fields, each with a
kind and a length.  Some of them change what is said about the entry: its
sizes and its place when they do not fit into four bytes, its name and its
comment as UTF-8, and the way in which its data is encrypted.  Time stamps
change nothing but must have their form.  Fields of another kind are skipped.

A field that breaks a rule makes the whole zip file unreadable.  Fields that
end too early do not: what was said up to there counts.
-/

namespace Deobfuscate.Archive

open Deobfuscate.Text

inductive FieldResult
  /-- The field was read; the other bytes follow it. -/
  | next (entry : ZipEntry) (rest : Bytes)
  /-- The bytes end inside the field. -/
  | short (entry : ZipEntry)
  /-- The field breaks a rule. -/
  | refused

def takeBytes? (count : Nat) (bytes : Bytes) : Option (Bytes × Bytes) :=
  if bytes.length < count then none
  else some (bytes.take count, bytes.drop count)

def takeValue? (width : Nat) (bytes : Bytes) : Option (Nat × Bytes) :=
  (takeBytes? width bytes).map fun taken =>
    (LittleEndian.value taken.1, taken.2)

def skipBytes (count : Nat) (entry : ZipEntry) (bytes : Bytes) : FieldResult :=
  match takeBytes? count bytes with
  | none => .short entry
  | some (_, rest) => .next entry rest

/-- A number of an entry that may not fit into four bytes. -/
structure WideNumber where
  get : ZipEntry → Nat
  set : ZipEntry → Nat → ZipEntry

/-- The numbers that may not fit, in the order of the field. -/
def wideNumbers : List WideNumber :=
  [⟨ZipEntry.size, fun entry size => { entry with size }⟩,
    ⟨ZipEntry.packedSize, fun entry packedSize => { entry with packedSize }⟩,
    ⟨ZipEntry.start, fun entry start => { entry with start }⟩]

/-- What stands in four bytes for a number that does not fit. -/
def wideMark : Nat := 0xFFFFFFFF

def allWide : Nat := 24

/-- Read wide numbers.  A field has those that do not fit, or all of them if it
is long enough. -/
def readWide (length : Nat) :
    List WideNumber → Nat → ZipEntry → Bytes → FieldResult
  | [], used, entry, bytes =>
      if length < used then .refused
      else skipBytes (length - used) entry bytes
  | number :: more, used, entry, bytes =>
      if allWide ≤ length || number.get entry = wideMark then
        match takeValue? 8 bytes with
        | none => .short entry
        | some (value, rest) =>
            readWide length more (used + 8) (number.set entry value) rest
      else readWide length more used entry bytes

def readText (length : Nat) (replaced : Bytes)
    (change : String → Bytes → ZipEntry) (entry : ZipEntry) (bytes : Bytes) :
    FieldResult :=
  match takeValue? 1 bytes with
  | none => .short entry
  | some (_, bytes) =>
      match takeValue? 4 bytes with
      | none => .short entry
      | some (sum, bytes) =>
          if length < 5 then .refused
          else
            match takeBytes? (length - 5) bytes with
            | none => .short entry
            | some (content, rest) =>
                if sum ≠ (checksum replaced).toNat then .refused
                else
                  match decode content with
                  | none => .refused
                  | some text => .next (change text content) rest

/-- Read the time stamps of one file system: a single attribute with three
numbers. -/
def readFileTimes (length : Nat) (entry : ZipEntry) (bytes : Bytes) :
    FieldResult :=
  if length ≠ 32 then .refused
  else
    match takeValue? 4 bytes with
    | none => .short entry
    | some (_, bytes) =>
        match takeValue? 2 bytes with
        | none => .short entry
        | some (tag, bytes) =>
            if tag ≠ 1 then .refused
            else
              match takeValue? 2 bytes with
              | none => .short entry
              | some (size, bytes) =>
                  if size ≠ 24 then .refused else skipBytes 24 entry bytes

def setBits (number : Nat) : Nat :=
  ((List.range 8).filter fun index => number.testBit index).length

/-- Read time stamps with flags that say which are there.  A field that is long
enough for one has just that one, whatever its flags say. -/
def readTimes (length : Nat) (entry : ZipEntry) (bytes : Bytes) :
    FieldResult :=
  match takeValue? 1 bytes with
  | none => .short entry
  | some (flags, bytes) =>
      if length ≠ 5 ∧ length ≠ 1 + 4 * setBits flags then .refused
      else if 8 ≤ flags then .refused
      else skipBytes (length - 1) entry bytes

/-- The mark of the only known maker of encrypted entries. -/
def sealMark : Nat := 0x4541

/-- Read how an entry is encrypted: the version, the maker, the strength and the
real method. -/
def readSeal (length : Nat) (entry : ZipEntry) (bytes : Bytes) : FieldResult :=
  if length ≠ 7 then .refused
  else
    match takeBytes? 7 bytes with
    | none => .short entry
    | some (field, rest) =>
        let part (offset width : Nat) :=
          LittleEndian.value ((field.drop offset).take width)
        if part 2 2 ≠ sealMark then .refused
        else if part 0 2 ≠ 1 ∧ part 0 2 ≠ 2 then .refused
        else if part 4 1 = 0 ∨ 3 < part 4 1 then .refused
        else
          .next { entry with keyed := true, method := .ofCode (part 5 2) } rest

def readField (kind length : Nat) (entry : ZipEntry) (bytes : Bytes) :
    FieldResult :=
  match kind with
  | 0x0001 => readWide length wideNumbers 0 entry bytes
  | 0x000A => readFileTimes length entry bytes
  | 0x9901 => readSeal length entry bytes
  | 0x5455 => readTimes length entry bytes
  | 0x6375 =>
      readText length (encode entry.comment)
        (fun comment _ => { entry with comment }) entry bytes
  | 0x7075 =>
      readText length entry.nameBytes
        (fun name nameBytes => { entry with name, nameBytes }) entry bytes
  | _ => skipBytes length entry bytes

/-- Read extra fields, at most as many as the fuel says: the entry as they
change it, or nothing if one of them breaks a rule. -/
def readFieldsWith : Nat → ZipEntry → Bytes → Option ZipEntry
  | 0, entry, _ => some entry
  | fuel + 1, entry, bytes =>
      match takeValue? 2 bytes with
      | none => some entry
      | some (kind, bytes) =>
          match takeValue? 2 bytes with
          | none => some entry
          | some (length, bytes) =>
              match readField kind length entry bytes with
              | .next entry rest => readFieldsWith fuel entry rest
              | .short entry => some entry
              | .refused => none

def readFields (entry : ZipEntry) (bytes : Bytes) : Option ZipEntry :=
  readFieldsWith bytes.length entry bytes

end Deobfuscate.Archive
