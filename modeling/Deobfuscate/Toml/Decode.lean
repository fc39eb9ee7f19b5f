import Deobfuscate.Dict
import Deobfuscate.FileTree.Path
import Deobfuscate.Text.Quoted
import Deobfuscate.Toml.Item

/-!
# Reading values out of a document

A decoder turns a value into something of a type, or says what it found and
what it expected.  A fault is put on the line of the innermost value that has
one, and otherwise on the line of its key.
-/

namespace Deobfuscate.Toml

/-- What is wrong with a value. -/
inductive Complaint
  | unknownField (name : String) (known : List String)
  | missingField (name : String)
  | wrongType (found expected : String)
  | badInteger (value : Int) (expected : String)
  | tooShort (length : Nat) (expected : String)
  deriving DecidableEq, Repr

/-- A name as messages show it. -/
def ticked (name : String) : String :=
  "`" ++ name ++ "`"

def Complaint.message : Complaint → String
  | .unknownField name known =>
      s!"unknown field {ticked name}, expected " ++
        match known with
        | [first, second] => s!"{ticked first} or {ticked second}"
        | names => "one of " ++ ", ".intercalate (names.map ticked)
  | .missingField name => s!"missing field {ticked name}"
  | .wrongType found expected =>
      s!"invalid type: {found}, expected {expected}"
  | .badInteger value expected =>
      s!"invalid value: integer {ticked (toString value)}, " ++
        s!"expected {expected}"
  | .tooShort length expected =>
      s!"invalid length {length}, expected {expected}"

/-- A complaint about a value on a line; the line is not yet known as long as
only values without a line have been passed. -/
structure Fault where
  line : Option Nat
  complaint : Complaint
  deriving DecidableEq, Repr

def Fault.at (fault : Fault) (line : Option Nat) : Fault :=
  { fault with line := fault.line <|> line }

/-- Something that reads a value. -/
abbrev Decoder (α : Type) := Item → Except Fault α

/-- Complain without a line. -/
def complain {α : Type} (complaint : Complaint) : Except Fault α :=
  .error ⟨none, complaint⟩

/-- A value as messages show it. -/
def Item.shown : Item → String
  | .text value => s!"string {Text.quote value}"
  | .integer value => s!"integer {ticked (toString value)}"
  | .float shown => s!"floating point {ticked shown}"
  | .boolean value => s!"boolean {ticked (toString value)}"
  | .array _ | .tables _ => "sequence"
  | .datetime _ | .inlineTable _ | .table _ _ _ => "map"

/-- The key under which a date or time hands out its text. -/
def datetimeKey : String := "$__toml_private_datetime"

/-- The entries of a table.  A date or time counts as a table with one text
under a key that is not written. -/
def Item.slots? : Item → Option (List (Slot Item))
  | .inlineTable slots | .table _ _ slots => some slots
  | .datetime shown => some [⟨datetimeKey, none, none, .text shown⟩]
  | _ => none

def Item.elements? : Item → Option (List (Option Nat × Item))
  | .array items => some items
  | .tables items => some (items.map fun entry =>
      (entry.1, .table false false entry.2))
  | _ => none

def asText : Decoder String
  | .text value => .ok value
  | item => complain (.wrongType item.shown "a string")

def asPath : Decoder Path
  | .text value => .ok ⟨value⟩
  | item => complain (.wrongType item.shown "path string")

/-- A truth value. -/
def asBool : Decoder Bool
  | .boolean value => .ok value
  | item => complain (.wrongType item.shown "a boolean")

/-- A natural number; `expected` names the kind of number. -/
def asNat (expected : String) : Decoder Nat
  | .integer value =>
      if 0 ≤ value then .ok value.toNat
      else complain (.badInteger value expected)
  | item => complain (.wrongType item.shown expected)

/-- A value that is set. -/
def asSome {α : Type} (decode : Decoder α) : Decoder (Option α) :=
  fun item => (decode item).map some

/-- Read a value that stands on a line. -/
def decodeAt {α : Type} (decode : Decoder α) (line : Option Nat)
    (item : Item) : Except Fault α :=
  (decode item).mapError (·.at line)

def asList {α : Type} (decode : Decoder α) : Decoder (List α) :=
  fun item =>
    match item.elements? with
    | some elements =>
        elements.mapM fun element => decodeAt decode element.1 element.2
    | none => complain (.wrongType item.shown "a sequence")

/-- A table with any keys. -/
def asDict {α : Type} (decode : Decoder α) : Decoder (Dict α) :=
  fun item =>
    match item.slots? with
    | some slots => do
        let bindings ← slots.mapM fun slot => do
          let value ←
            decodeAt decode (slot.line <|> slot.keyLine) slot.item
          return (slot.key, value)
        return Dict.ofList bindings
    | none => complain (.wrongType item.shown "a map")

/-- A field of a record: its name and how a value changes the record. -/
structure RecordField (α : Type) where
  name : String
  update : α → Decoder α

def field {α β : Type} (name : String) (decode : Decoder β)
    (put : α → β → α) : RecordField α :=
  ⟨name, fun record item => (decode item).map (put record)⟩

def updateBySlots {α : Type} (fields : List (RecordField α)) :
    α → List (Slot Item) → Except Fault α
  | record, [] => .ok record
  | record, slot :: rest =>
      match fields.find? fun field => field.name == slot.key with
      | none =>
          .error ⟨slot.keyLine,
            .unknownField slot.key (fields.map RecordField.name)⟩
      | some field => do
          let record ← decodeAt (field.update record)
            (slot.line <|> slot.keyLine) slot.item
          updateBySlots fields record rest

def updateInOrder {α : Type} :
    List (RecordField α) → α → List (Option Nat × Item) → Except Fault α
  | field :: fields, record, (line, item) :: rest => do
      updateInOrder fields (← decodeAt (field.update record) line item) rest
  | _, record, _ => .ok record

/-- Update a record by a table, or by a list of values in the order of its
fields. -/
def asRecord {α : Type} (typeName : String) (fields : List (RecordField α))
    (default : α) : Decoder α :=
  fun item =>
    match item.slots?, item.elements? with
    | some slots, _ => updateBySlots fields default slots
    | none, some elements => updateInOrder fields default elements
    | none, none =>
        complain (.wrongType item.shown ("struct " ++ typeName))

end Deobfuscate.Toml
