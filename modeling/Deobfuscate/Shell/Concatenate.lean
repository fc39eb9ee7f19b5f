import Deobfuscate.Shell.Program

/-!
# Writing files one after another
-/

namespace Deobfuscate.Shell

/-- Number the lines of a block.  The state is the number of the last line and
whether it goes on. -/
def numberLines : Nat × Bool → Bytes → Bytes × (Nat × Bool)
  | state, [] => ([], state)
  | (count, goesOn), byte :: rest =>
      let (start, count) :=
        if goesOn then ([], count)
        else
          let shown := toString (count + 1)
          let blanks := repeated (6 - shown.length) ' '
          (toBytes (blanks ++ shown ++ "\t"), count + 1)
      let (changed, state) := numberLines (count, byte != 0x0A) rest
      (start ++ byte :: changed, state)

/-- Whether an operand is a file to which the output goes, and has content that
is still to be read. -/
def isOutput (source : Endpoint) : Process Bool := do
  match source, (← Process.descriptors).lookup 1 with
  | .file source, some (.file target) =>
      Process.view fun _ world =>
        match world.files.lookup source, world.files.lookup target with
        | some source, some target =>
            match world.tree.node? source.location with
            | some (.file content _ _) =>
                source.location == target.location &&
                  source.offset < content.length
            | _ => false
        | _, _ => false
  | _, _ => return false

/-- Write what the operands hold. -/
def catOperands (numbered : Bool) :
    Nat × Bool → Nat → List String → Process Nat
  | _, status, [] => return status
  | state, status, operand :: rest => do
      let failed (problem : String) : Process Nat := do
        let _ ← complain s!"cat: {shownName operand}: {problem}"
        catOperands numbered state 1 rest
      match ← openOperand operand with
      | .error problem => failed (systemText problem)
      | .ok source =>
          if ← isOutput source then failed "input file is output file"
          else
            let change := if numbered then numberLines
              else fun state block => (block, state)
            match ← copyBlocks change source blockLimit state with
            | .ok state => catOperands numbered state status rest
            | .error problem => failed (systemText problem)

/-- Write one file after another. -/
def cat : Program :=
  withOptions "cat" "nu" "" fun line => do
    if ((← Process.descriptors).lookup 1).isNone then
      complain "cat: standard output: Bad file descriptor"
    else
      let operands := operandsOrInput line.operands
      let status ← catOperands (line.has 'n') (0, false) 0 operands
      let isClosed := ((← Process.descriptors).lookup 0).isNone
      if isClosed && operands.contains "-" then
        complain "cat: closing standard input: Bad file descriptor"
      else return status

end Deobfuscate.Shell
