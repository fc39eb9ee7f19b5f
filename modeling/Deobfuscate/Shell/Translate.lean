import Deobfuscate.Shell.Pattern
import Deobfuscate.Shell.Program

/-!
# Translating bytes

Bytes of the input are replaced, removed, or written only once when they follow
each other.
-/

namespace Deobfuscate.Shell

inductive SetPart
  | bytes (bytes : Bytes)
  /-- The bytes of a class. -/
  | named (name : String)
  /-- A byte so many times, or as often as is needed. -/
  | again (byte : UInt8) (count : Nat)

/-- All bytes in order. -/
def allBytes : Bytes :=
  (List.range 256).map UInt8.ofNat

def classBytes (name : String) : Bytes :=
  allBytes.filter fun byte => inClass name (Char.ofNat byte.toNat)

def takeByte : List Char → Option (Char × Bool × List Char)
  | [] => none
  | ['\\'] => some ('\\', false, [])
  | '\\' :: rest =>
      match readEscape? rest with
      | some (char, rest) => some (char, true, rest)
      | none => some (rest.headD '\\', true, rest.tail)
  | char :: rest => some (char, false, rest)

/-- Read a class or a repetition after an opening bracket. -/
def readBracket? (chars : List Char) : Option (SetPart × List Char) :=
  match chars with
  | ':' :: rest =>
      let name := rest.takeWhile (· != ':')
      match rest.drop name.length with
      | ':' :: ']' :: rest => some (.named (String.ofList name), rest)
      | _ => none
  | chars =>
      match takeByte chars with
      | some (char, _, '*' :: rest) =>
          let reading := readByStart false rest
          match reading.rest with
          | ']' :: rest =>
              some (.again (UInt8.ofNat char.toNat) reading.magnitude, rest)
          | _ => none
      | _ => none

/-- Read a set of bytes.  Every step takes at least one character. -/
def readSet : Nat → List Char → Except String (List SetPart)
  | 0, _ | _, [] => .ok []
  | fuel + 1, chars => do
      let bracket? :=
        match chars with
        | '[' :: rest => readBracket? rest
        | _ => none
      match bracket? with
      | some (part, rest) => return part :: (← readSet fuel rest)
      | none =>
          match takeByte chars with
          | none => return []
          | some (first, _, rest) =>
              let single := [UInt8.ofNat first.toNat]
              match rest with
              | '-' :: after =>
                  match takeByte after with
                  | none => return .bytes single :: (← readSet fuel rest)
                  | some (last, _, rest) =>
                      if last < first then
                        .error (s!"range-endpoints of '{first}-{last}' are in "
                          ++ "reverse collating sequence order")
                      else
                        let count := last.toNat + 1 - first.toNat
                        let range := (List.range count).map fun offset =>
                          UInt8.ofNat (first.toNat + offset)
                        return .bytes range :: (← readSet fuel rest)
              | rest => return .bytes single :: (← readSet fuel rest)

/-- The bytes of a part of a set; one that is repeated as needed takes the place
of so many. -/
def SetPart.expand (needed : Nat) : SetPart → Bytes
  | .bytes held => held
  | .named name => classBytes name
  | .again byte 0 => List.replicate needed byte
  | .again byte count => List.replicate count byte

def setBytes (parts : List SetPart) (length : Nat) : Bytes :=
  let others := (parts.flatMap (SetPart.expand 0)).length
  parts.flatMap (SetPart.expand (length - others))

def badClass? (parts : List SetPart) : Option String :=
  parts.findSome? fun
    | .named name => if classNames.contains name then none else some name
    | _ => none

/-- The byte that takes the place of another one.  A second set that is too
short goes on with its last byte. -/
def translateByte (source target : Bytes) (byte : UInt8) : UInt8 :=
  match (source.reverse.idxOf? byte).map (source.length - 1 - ·) with
  | none => byte
  | some index => (target[index]? <|> target.getLast?).getD byte

/-- Leave out repetitions of some bytes.  The state is the last byte. -/
def squeeze (repeats : Bytes) :
    Option UInt8 → Bytes → Bytes × Option UInt8
  | last, [] => ([], last)
  | last, byte :: rest =>
      let (changed, state) := squeeze repeats (some byte) rest
      if last == some byte && repeats.contains byte then (changed, state)
      else (byte :: changed, state)

def byteTable (change : UInt8 → UInt8) : Array UInt8 :=
  (allBytes.map change).toArray

def filterInput (change : Option UInt8 → Bytes → Bytes × Option UInt8) :
    Process Nat := do
  match (← Process.descriptors).lookup 0 with
  | none => complain "tr: read error: Bad file descriptor"
  | some source =>
      match ← copyBlocks change source blockLimit none with
      | .ok _ => return 0
      | .error problem => complain s!"tr: read error: {systemText problem}"

def translateWith (line : CommandLine) (first second : List SetPart) :
    Process Nat := do
  let deletes := line.has 'd'
  let squeezes := line.has 's'
  let named := setBytes first 0
  let source :=
    if line.has 'c' || line.has 'C' then
      allBytes.filter fun byte => !named.contains byte
    else named
  let target := setBytes second source.length
  let source :=
    if line.has 't' then source.take target.length else source
  let isSource := byteTable fun byte => if source.contains byte then 1 else 0
  let inSource (byte : UInt8) : Bool := (isSource[byte.toNat]?).getD 0 == 1
  let squeezed (repeats : Bytes) (last : Option UInt8) (block : Bytes) :=
    if squeezes then squeeze repeats last block else (block, last)
  if deletes then
    filterInput fun last block =>
      squeezed target last (block.filter fun byte => !inSource byte)
  else if line.operands.length == 1 then filterInput (squeezed source)
  else if target.isEmpty && !line.has 't' then
    complain "tr: when not truncating set1, string2 must be non-empty"
  else
    let table := byteTable (translateByte source target)
    filterInput fun last block =>
      squeezed target last
        (block.map fun byte => (table[byte.toNat]?).getD byte)

def hasForeignClass (parts : List SetPart) : Bool :=
  parts.any fun
    | .named name => name != "upper" && name != "lower"
    | _ => false

/-- Replace or remove bytes of the input. -/
def translate : Program :=
  withOptions "tr" "cCdst" "" fun line => do
    let deletes := line.has 'd'
    let squeezes := line.has 's'
    let least := if deletes == squeezes then 2 else 1
    let most := if deletes && !squeezes then 1 else 2
    match line.operands with
    | [] => misuse "tr" "missing operand"
    | operands =>
        if operands.length < least then
          let reason :=
            if squeezes then
              "Two strings must be given when both deleting and squeezing " ++
                "repeats."
            else "Two strings must be given when translating."
          let last := operands.headD ""
          misuse "tr" s!"missing operand after {quotedText last}\n{reason}"
        else if most < operands.length then
          let extra := (operands.drop most).headD ""
          let reason :=
            if most == 1 then "\nOnly one string may be given when deleting " ++
              "without squeezing repeats."
            else ""
          misuse "tr" s!"extra operand {quotedText extra}{reason}"
        else
          let read (text : String) := readSet (text.length + 1) text.toList
          match read (operands.headD ""), read (operands.tail.headD "") with
          | .error problem, _ | _, .error problem =>
              complain s!"tr: {problem}"
          | .ok first, .ok second =>
              match badClass? first <|> badClass? second with
              | some name =>
                  complain s!"tr: invalid character class {quotedText name}"
              | none =>
                  if !deletes && hasForeignClass second then
                    complain ("tr: when translating, the only character " ++
                      "classes that may appear in\nstring2 are 'upper' " ++
                      "and 'lower'")
                  else translateWith line first second

end Deobfuscate.Shell
