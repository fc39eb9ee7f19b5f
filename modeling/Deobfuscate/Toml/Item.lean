/-!
# Values of a settings document

A document is a table.  Every key and every value knows the line it stands on,
so that a value that does not fit can be pointed at; a table that exists only
because a longer key passes through it stands on no line.
-/

namespace Deobfuscate.Toml

/-- A value under its key. -/
structure Slot (α : Type) where
  key : String
  /-- The line of the key, if it is written at all. -/
  keyLine : Option Nat
  /-- The line of the value, if it has one. -/
  line : Option Nat
  item : α
  deriving Repr

/-- A value. -/
inductive Item
  | text (value : String)
  | integer (value : Int)
  /-- A floating-point number as it is shown in messages. -/
  | float (shown : String)
  | boolean (value : Bool)
  /-- A date, a time or both, in their plain form. -/
  | datetime (shown : String)
  /-- Values with their lines. -/
  | array (items : List (Option Nat × Item))
  /-- A table between braces, which cannot be extended. -/
  | inlineTable (slots : List (Slot Item))
  /-- A table; it is implicit until a heading names it, and dotted if a dotted
  key made it. -/
  | table (implicit dotted : Bool) (slots : List (Slot Item))
  /-- The tables of a repeated heading. -/
  | tables (items : List (Option Nat × List (Slot Item)))
  deriving Repr

/-- A key with the line it stands on. -/
structure Key where
  name : String
  line : Nat
  deriving DecidableEq, Repr

/-- A table that can still be extended. -/
structure OpenTable where
  implicit : Bool := false
  dotted : Bool := false
  slots : List (Slot Item) := []
  deriving Repr

namespace OpenTable

def item (table : OpenTable) : Item :=
  .table table.implicit table.dotted table.slots

/-- The value under a key. -/
def find? (table : OpenTable) (name : String) : Option (Slot Item) :=
  table.slots.find? fun slot => slot.key == name

/-- Put a value under a key that has none. -/
def add (table : OpenTable) (key : Key) (line : Option Nat) (item : Item) :
    OpenTable :=
  { table with slots := table.slots ++ [⟨key.name, some key.line, line, item⟩] }

/-- Change the value under a key. -/
def replace (table : OpenTable) (name : String) (item : Item) : OpenTable :=
  { table with
    slots := table.slots.map fun slot =>
      if slot.key == name then { slot with item } else slot }

def remove (table : OpenTable) (name : String) : OpenTable :=
  { table with slots := table.slots.filter fun slot => slot.key != name }

def changeLast {α : Type} (change : α → Option α) :
    List α → Option (List α)
  | [] => none
  | [last] => (change last).map fun changed => [changed]
  | first :: second :: rest =>
      (changeLast change (second :: rest)).map (first :: ·)

/-- Change the table that keys lead to, making tables on the way.  Keys lead
through tables and the last table of a repeated heading; the keys of a dotted
key may not lead through a table that has a heading. -/
def changeAt (dotted : Bool) (change : OpenTable → Option OpenTable) :
    List Key → OpenTable → Option OpenTable
  | [], table => change table
  | key :: path, table =>
      match table.find? key.name with
      | none => do
          let child ← changeAt dotted change path
            { implicit := true, dotted, slots := [] }
          return table.add key none child.item
      | some slot =>
          match slot.item with
          | .table implicit wasDotted slots =>
              if dotted && !implicit then none
              else do
                let child ← changeAt dotted change path
                  ⟨implicit, wasDotted, slots⟩
                return table.replace key.name child.item
          | .tables items => do
              let items ← changeLast (fun entry => do
                let child ← changeAt dotted change path
                  { slots := entry.2 }
                return (entry.1, child.slots)) items
              return table.replace key.name (.tables items)
          | _ => none

def insert (table : OpenTable) (path : List Key) (key : Key) (line : Nat)
    (item : Item) : Option OpenTable :=
  table.changeAt true (fun target =>
    if target.dotted = path.isEmpty then none
    else if (target.find? key.name).isSome then none
    else some (target.add key (some line) item)) path

end OpenTable

end Deobfuscate.Toml
