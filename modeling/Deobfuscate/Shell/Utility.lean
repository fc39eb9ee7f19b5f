import Deobfuscate.Shell.Concatenate
import Deobfuscate.Shell.Copy
import Deobfuscate.Shell.Head
import Deobfuscate.Shell.Translate

/-!
# Small programs

The programs that every host has: they copy, cut and change bytes, wait, or
just give a status.
-/

namespace Deobfuscate.Shell

def unitSeconds? : List Char → Option Nat
  | [] | ['s'] => some 1
  | ['m'] => some 60
  | ['h'] => some 3600
  | ['d'] => some 86400
  | _ => none

/-- An interval in microseconds, rounded down. -/
def interval? (text : String) : Option Nat := do
  let (value, rest) ← readUnsignedReal? text.toList
  let seconds ← unitSeconds? rest
  match value with
  | .ok value => return (value * (seconds * 1000000 : Nat)).floor.toNat
  | .error "inf" => return 1000000000000000
  | .error _ => none

/-- Wait for the sum of some intervals. -/
def pause : Program :=
  withOptions "sleep" "" "" fun line => do
    let bad := line.operands.filter fun operand => (interval? operand).isNone
    if line.operands.isEmpty then misuse "sleep" "missing operand"
    else if !bad.isEmpty then
      let lines := bad.map fun operand =>
        s!"invalid time interval {quotedText operand}"
      misuse "sleep" ("\nsleep: ".intercalate lines)
    else
      let total := (line.operands.filterMap interval?).foldl Nat.add 0
      Process.sleep total
      return 0

/-- Write the arguments. -/
def echoProgram : Program := fun arguments => do
  Process.print 1 (echoText false arguments)
  return 0

/-- Write the current directory. -/
def directoryProgram : Program := fun _ => do
  let directory ← Process.own ProcessState.directory ⟨"/"⟩
  Process.print 1 (ofText directory.text ++ "\n")
  return 0

def utility? : String → Option Program
  | "cat" => some cat
  | "head" => some head
  | "tr" => some translate
  | "cp" => some copy
  | "sleep" => some pause
  | "true" => some fun _ => return 0
  | "false" => some fun _ => return 1
  | "echo" => some echoProgram
  | "pwd" => some directoryProgram
  | _ => none

end Deobfuscate.Shell
