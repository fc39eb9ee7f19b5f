import Deobfuscate.Shell.Session

/-!
# Options

Options of the shell have letters and names.  Commands of the shell have options
with letters of their own.
-/

namespace Deobfuscate.Shell

def shellOptions : List (String × Option Char) :=
  [("errexit", some 'e'), ("noglob", some 'f'), ("ignoreeof", some 'I'),
    ("interactive", some 'i'), ("monitor", some 'm'), ("noexec", some 'n'),
    ("stdin", some 's'), ("xtrace", some 'x'), ("verbose", some 'v'),
    ("vi", some 'V'), ("emacs", some 'E'), ("noclobber", some 'C'),
    ("allexport", some 'a'), ("notify", some 'b'), ("nounset", some 'u'),
    ("privileged", some 'p'), ("nolog", none), ("debug", none)]

def switchOption (letter : Char) (on : Bool) : ShellAction Unit :=
  modify fun session =>
    let others := session.options.filter (· != letter)
    { session with options := if on then letter :: others else others }

def switchLetter (letter : Char) (on : Bool) : ShellAction Unit := do
  if shellOptions.any fun option => option.2 == some letter then
    switchOption letter on
  else ShellAction.fail s!"Illegal option -{letter}"

def switchName (name : String) (on : Bool) : ShellAction Unit := do
  match shellOptions.lookup name with
  | some (some letter) => switchOption letter on
  | some none => return ()
  | none => ShellAction.fail s!"Illegal option -o {name}"

def optionsText (asTable : Bool) : ShellAction String := do
  let session ← get
  let line (option : String × Option Char) : String :=
    let on := option.2.any session.options.contains
    if asTable then
      let blanks := String.ofList
        (List.replicate (16 - option.1.length) ' ')
      option.1 ++ blanks ++ (if on then "on" else "off") ++ "\n"
    else
      let sign := if on then "-" else "+"
      s!"set {sign}o {option.1}\n"
  let lines := String.join (shellOptions.map line)
  return (if asTable then "Current option settings\n" else "") ++ lines

/-- What was found in front of the operands of the shell or of `set`. -/
structure OptionScan where
  runsText : Bool := false
  shown : String := ""
  /-- Whether the operands replace the parameters even if there are none. -/
  resets : Bool := false
  operands : List String := []

/-- Switch options by letters; `o` takes a name off the arguments. -/
def scanLetters (atStart on : Bool) :
    List Char → OptionScan → ShellAction OptionScan
  | [], scan => return scan
  | letter :: letters, scan => do
      if letter == 'c' && atStart then
        scanLetters atStart on letters { scan with runsText := true }
      else if letter == 'l' && atStart then scanLetters atStart on letters scan
      else if letter == 'o' then
        match scan.operands with
        | [] =>
            let shown ← optionsText on
            scanLetters atStart on letters
              { scan with shown := scan.shown ++ shown }
        | name :: operands =>
            switchName name on
            scanLetters atStart on letters { scan with operands }
      else
        switchLetter letter on
        scanLetters atStart on letters scan

def scanOptions (atStart : Bool) :
    Nat → OptionScan → ShellAction OptionScan
  | 0, scan => return scan
  | fuel + 1, scan => do
      match scan.operands with
      | [] => return scan
      | argument :: rest =>
          let after := { scan with operands := rest }
          match argument.toList with
          | ['-'] =>
              if !atStart then
                switchOption 'x' false
                switchOption 'v' false
              return after
          | ['-', '-'] => return { after with resets := true }
          | '-' :: letters =>
              scanOptions atStart fuel
                (← scanLetters atStart true letters after)
          | '+' :: letters =>
              scanOptions atStart fuel
                (← scanLetters atStart false letters after)
          | _ => return scan

def commandLetters (known valued : List Char) :
    List Char → List String →
      ShellAction (List (Char × String) × List String)
  | [], rest => return ([], rest)
  | letter :: letters, rest => do
      if valued.contains letter then
        match letters, rest with
        | [], value :: rest => return ([(letter, value)], rest)
        | [], [] => ShellAction.fail s!"No arg for -{letter} option"
        | letters, rest => return ([(letter, String.ofList letters)], rest)
      else if known.contains letter then
        let (options, rest) ← commandLetters known valued letters rest
        return ((letter, "") :: options, rest)
      else ShellAction.fail s!"Illegal option -{letter}"

def commandOptions (known valued : List Char) :
    Nat → List String → ShellAction (List (Char × String) × List String)
  | 0, arguments => return ([], arguments)
  | _, [] => return ([], [])
  | fuel + 1, argument :: rest => do
      match argument.toList with
      | ['-', '-'] => return ([], rest)
      | '-' :: letter :: letters =>
          let (options, rest) ←
            commandLetters known valued (letter :: letters) rest
          let (more, rest) ← commandOptions known valued fuel rest
          return (options ++ more, rest)
      | _ => return ([], argument :: rest)

/-- The options of a command that has these letters, and its operands. -/
def readOptions (known valued : String) (arguments : List String) :
    ShellAction (List (Char × String) × List String) :=
  commandOptions known.toList valued.toList (arguments.length + 1) arguments

def readOperands (arguments : List String) : ShellAction (List String) :=
  return (← readOptions "" "" arguments).2

end Deobfuscate.Shell
