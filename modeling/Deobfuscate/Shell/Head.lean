import Deobfuscate.Shell.Program

/-!
# Writing the start of files
-/

namespace Deobfuscate.Shell

/-- How much to take of the start of a file. -/
structure Portion where
  /-- Whether bytes are counted and not lines. -/
  inBytes : Bool := false
  /-- Whether so much is left out at the end. -/
  fromEnd : Bool := false
  count : Nat := 10
  deriving DecidableEq, Repr

def takeLines : Nat → Bytes → Bytes × Nat
  | 0, _ => ([], 0)
  | count, [] => ([], count)
  | count + 1, byte :: rest =>
      let (taken, missing) :=
        takeLines (if byte = 0x0A then count else count + 1) rest
      (byte :: taken, missing)

/-- The number that a multiplier stands for. -/
def multiplier? : String → Option Nat
  | "" => some 1
  | "b" => some 512
  | "k" | "K" | "KiB" => some 1024
  | "kB" | "KB" => some 1000
  | "M" | "MiB" => some (1024 * 1024)
  | "MB" => some (1000 * 1000)
  | _ => none

/-- Read how much to take. -/
def portion? (inBytes : Bool) (text : String) : Option Portion := do
  let (fromEnd, digits) :=
    match text.toList with
    | '-' :: digits => (true, digits)
    | '+' :: digits => (false, digits)
    | digits => (false, digits)
  let reading := readDigits 10 false digits
  if !reading.found then none
  let factor ← multiplier? (String.ofList reading.rest)
  return { inBytes, fromEnd, count := reading.magnitude * factor }

def headBytes (source : Endpoint) :
    Nat → Nat → Process (Except Problem Unit)
  | 0, _ | _, 0 => return .ok ()
  | fuel + 1, count => do
      match ← Process.readEndpoint (min count Process.blockSize) source with
      | .error problem => return .error problem
      | .ok [] => return .ok ()
      | .ok block =>
          let _ ← Process.write 1 block
          headBytes source fuel (count - block.length)

/-- Give bytes that were read from a file too early back to it. -/
def giveBack (source : Endpoint) (count : Nat) : Process Unit :=
  match source with
  | .file number =>
      Process.change fun _ world =>
        match world.files.lookup number with
        | some file =>
            world.setFile number { file with offset := file.offset - count }
        | none => world
  | _ => return ()

/-- Write the first lines of something. -/
def headLines (source : Endpoint) :
    Nat → Nat → Process (Except Problem Unit)
  | 0, _ | _, 0 => return .ok ()
  | fuel + 1, count => do
      match ← Process.readEndpoint 8192 source with
      | .error problem => return .error problem
      | .ok [] => return .ok ()
      | .ok block =>
          let (taken, missing) := takeLines count block
          let _ ← Process.write 1 taken
          giveBack source (block.length - taken.length)
          headLines source fuel missing

/-- Write all but the end of something. -/
def headUpTo (source : Endpoint) (portion : Portion) :
    Process (Except Problem Unit) := do
  match ← Process.readAll source blockLimit [] with
  | .error problem => return .error problem
  | .ok content =>
      let kept :=
        if portion.inBytes then content.length - portion.count
        else
          let lines := content.count 0x0A +
            if content.getLast?.any (· != 0x0A) then 1 else 0
          (takeLines (lines - portion.count) content).1.length
      let _ ← Process.write 1 (content.take kept)
      return .ok ()

/-- Write a portion of something. -/
def headOf (portion : Portion) (source : Endpoint) :
    Process (Except Problem Unit) :=
  if portion.fromEnd then headUpTo source portion
  else if portion.inBytes then headBytes source blockLimit portion.count
  else headLines source blockLimit portion.count

def headOperands (portion : Portion) (named : Bool) :
    Bool → Nat → List String → Process Nat
  | _, status, [] => return status
  | isFirst, status, operand :: rest => do
      let name := if operand == "-" then "standard input" else operand
      match ← openOperand operand with
      | .error problem =>
          let _ ← complain
            (s!"head: cannot open {quotedName operand} for reading: " ++
              systemText problem)
          headOperands portion named isFirst 1 rest
      | .ok source =>
          if named then
            Process.print 1
              ((if isFirst then "" else "\n") ++ s!"==> {name} <==\n")
          match ← headOf portion source with
          | .ok _ => headOperands portion named false status rest
          | .error problem =>
              let _ ← complain
                s!"head: error reading {quotedName name}: {systemText problem}"
              headOperands portion named false 1 rest

/-- Write the start of a file.  A number alone counts lines. -/
def head : Program := fun arguments =>
  let arguments :=
    match arguments with
    | first :: rest =>
        match first.toList with
        | '-' :: digit :: digits =>
            if digit.isDigit then
              "-n" :: String.ofList (digit :: digits) :: rest
            else arguments
        | _ => arguments
    | [] => []
  let run (line : CommandLine) : Process Nat := do
    let counts := line.options.filter fun option =>
      option.1 == 'c' || option.1 == 'n'
    let bad? := counts.find? fun option =>
      (portion? (option.1 == 'c') option.2).isNone
    match bad? with
    | some (letter, value) =>
        let unit := if letter == 'c' then "bytes" else "lines"
        complain s!"head: invalid number of {unit}: {quotedText value}"
    | none =>
        let portion := (counts.getLast?.bind fun option =>
          portion? (option.1 == 'c') option.2).getD {}
        let named := line.has 'v' ||
          (1 < line.operands.length && !line.has 'q')
        headOperands portion named true 0 (operandsOrInput line.operands)
  withOptions "head" "qv" "cn" run arguments

end Deobfuscate.Shell
