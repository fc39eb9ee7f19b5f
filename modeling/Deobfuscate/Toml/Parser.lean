import Deobfuscate.Toml.Number
import Deobfuscate.Toml.Quoted

/-!
# Documents

A document is a sequence of lines: headings, which open a table, and keys with
their values, which go into the table opened last.  A table may be opened once,
and a key may be given once.
-/

namespace Deobfuscate.Toml

open Reader

/-- Whether a character may stand in a key without quotes. -/
def isBareChar (char : Char) : Bool :=
  char.isAlphanum || char == '-' || char == '_'

def readKeyPart? : Reader (Option Key) := do
  let line ← line
  match ← peek with
  | some '"' => return some ⟨← readSingle '"', line⟩
  | some '\'' => return some ⟨← readSingle '\'', line⟩
  | _ =>
      let chars ← takeWhile isBareChar
      if chars.isEmpty then return none
      return some ⟨String.ofList chars, line⟩

/-- The parts of a key, which dots separate.  A dot with no part after it is
left. -/
def readKeyParts : Nat → Reader (List Key)
  | 0 => return []
  | fuel + 1 => do
      skipBlanks
      match ← readKeyPart? with
      | none => return []
      | some part =>
          skipBlanks
          let before ← get
          if ← accept ['.'] then
            let parts ← readKeyParts fuel
            if parts.isEmpty then set before
            return part :: parts
          else return [part]

/-- How deep keys and values may be nested. -/
def depthLimit : Nat := 80

/-- A key, if one starts here that is not too long: the parts before the last
one, and that one. -/
def readKey? : Reader (Option (List Key × Key)) := do
  let before ← get
  let parts ← readKeyParts (before.rest.length + 1)
  match parts.getLast? with
  | some last =>
      if parts.length < depthLimit then return some (parts.dropLast, last)
      else
        set before
        return none
  | none =>
      set before
      return none

def readKey : Reader (List Key × Key) := do
  match ← readKey? with
  | some key => return key
  | none => fail

/-- A number, a date or a time. -/
def readNumberItem : Reader Item := do
  let cursor ← get
  match readNumber cursor.rest with
  | some (item, rest) =>
      set { cursor with rest }
      return item
  | none => fail

mutual

/-- A value at a depth.  The fuel bounds how often values are nested and
repeated. -/
def readValue (depth : Nat) : Nat → Reader Item
  | 0 => fail
  | fuel + 1 => do
      match ← peek with
      | some '"' => return .text (← readText '"')
      | some '\'' => return .text (← readText '\'')
      | some '[' =>
          if depthLimit ≤ depth + 1 then fail
          expect ['[']
          return .array (← readElements (depth + 1) fuel)
      | some '{' =>
          if depthLimit ≤ depth + 1 then fail
          let line ← line
          expect ['{']
          let table ←
            match ← readKey? with
            | none => pure (some {})
            | some key => readPairs (depth + 1) fuel (some {}) key
          match table with
          | none => throw line
          | some table =>
              skipBlanks
              expect ['}']
              return .inlineTable table.slots
      | some 't' =>
          expect "true".toList
          return .boolean true
      | some 'f' =>
          expect "false".toList
          return .boolean false
      | _ => readNumberItem

/-- The values of an array up to its closing bracket.  What goes wrong between
a value and the next sign is blamed on the value. -/
def readElements (depth : Nat) :
    Nat → Reader (List (Option Nat × Item))
  | 0 => fail
  | fuel + 1 => do
      skipGap
      if ← accept [']'] then return []
      let line ← line
      let item ← readValue depth fuel
      blame line skipGap
      if ← accept [','] then
        return (some line, item) :: (← readElements depth fuel)
      else
        expect [']']
        return [(some line, item)]

/-- The values between braces from behind the first key on, added to a table;
the result is `none` if a key is given twice.  A comma with no key after it is
left. -/
def readPairs (depth : Nat) :
    Nat → Option OpenTable → List Key × Key → Reader (Option OpenTable)
  | 0, _, _ => fail
  | fuel + 1, table, (path, key) => do
      expect ['=']
      skipBlanks
      let line ← line
      let item ← readValue depth fuel
      skipBlanks
      let table := table.bind (·.insert path key line item)
      let before ← get
      if ← accept [','] then
        match ← readKey? with
        | some next => readPairs depth fuel table next
        | none =>
            set before
            return table
      else return table

end

/-- A document in the making: the tables that are complete, and the one that is
open with the keys of its heading. -/
structure Draft where
  root : OpenTable := {}
  current : OpenTable := {}
  path : List Key := []
  line : Option Nat := none
  repeated : Bool := false
  deriving Repr

namespace Draft

def close (draft : Draft) : Option OpenTable :=
  match draft.path.getLast? with
  | none => some draft.current
  | some key =>
      draft.root.changeAt false (fun parent =>
        match (parent.find? key.name).map Slot.item, draft.repeated with
        | some (.tables items), true =>
            some (parent.replace key.name
              (.tables (items ++ [(draft.line, draft.current.slots)])))
        | none, true =>
            some (parent.add key draft.line
              (.tables [(draft.line, draft.current.slots)]))
        | none, false =>
            some (parent.add key draft.line draft.current.item)
        | some (.table true _ _), false =>
            some (parent.replace key.name draft.current.item)
        | _, _ => none) draft.path.dropLast

/-- The implicit table that a heading names, if there is one; `none` if the
heading may not stand there. -/
def adopt (parent : OpenTable) (name : String) : Option OpenTable :=
  match (parent.find? name).map Slot.item with
  | none => some {}
  | some (.table true false slots) => some { slots }
  | some _ => none

def tableAt (root : OpenTable) (path : List Key) : OpenTable :=
  match path with
  | [] => root
  | key :: rest =>
      match (root.find? key.name).map Slot.item with
      | some (.table implicit dotted slots) =>
          tableAt ⟨implicit, dotted, slots⟩ rest
      | some (.tables items) =>
          tableAt { slots := (items.getLast?.map Prod.snd).getD [] } rest
      | _ => {}

def openTable (draft : Draft) (path : List Key) (key : Key) (line : Nat) :
    Option Draft := do
  let root ← draft.close
  let root ← root.changeAt false some path
  let current ← adopt (tableAt root path) key.name
  let root ← root.changeAt false (fun parent => some (parent.remove key.name))
    path
  return { root, current, path := path ++ [key], line := some line }

def openRepeated (draft : Draft) (path : List Key) (key : Key)
    (line : Nat) : Option Draft := do
  let root ← draft.close
  let root ← root.changeAt false (fun parent =>
    match (parent.find? key.name).map Slot.item with
    | none => some (parent.add key (some line) (.tables []))
    | some (.tables _) => some parent
    | some _ => none) path
  some { root, path := path ++ [key], line := some line, repeated := true }

end Draft

def readHeading (draft : Draft) : Reader Draft := do
  let line ← line
  expect ['[']
  let repeated ← accept ['[']
  let (path, key) ← readKey
  expect [']']
  if repeated then expect [']']
  lineEnd
  let opened :=
    if repeated then draft.openRepeated path key line
    else draft.openTable path key line
  match opened with
  | some draft => return draft
  | none => throw line

def readAssignment (draft : Draft) : Reader Draft := do
  let start ← line
  let (path, key) ← readKey
  expect ['=']
  skipBlanks
  let line ← line
  let item ← readValue 0 ((← get).rest.length + 1)
  lineEnd
  match draft.current.insert path key line item with
  | some current => return { draft with current }
  | none => throw start

def readDocument : Nat → Draft → Reader Draft
  | 0, draft => return draft
  | fuel + 1, draft => do
      skipAll
      match ← peek with
      | none => return draft
      | some '[' => readDocument fuel (← readHeading draft)
      | some _ => readDocument fuel (← readAssignment draft)

/-- Read a document: its entries, or the line of the first fault. -/
def parse (text : String) : Except Nat (List (Slot Item)) := do
  let chars := text.toList
  let start := if chars.head? = some '\uFEFF' then chars.tail else chars
  let (draft, cursor) ← (readDocument (start.length + 1) {}).run ⟨1, start⟩
  match draft.close with
  | some root => return root.slots
  | none => throw cursor.line

end Deobfuscate.Toml
