import Deobfuscate.TableError

/-!
# Comma-separated records

Fields are separated by commas and records by line breaks.  A field that
starts with a double quote runs to the closing quote; inside, two quotes stand
for one, and commas and line breaks are ordinary characters.  Every record
knows the line on which it starts.
-/

namespace Deobfuscate.Csv

/-- A record and the line on which it starts, counted from one. -/
structure Record where
  line : Nat
  fields : List String
  deriving DecidableEq, Repr

/-- Where the reader stands. -/
inductive Mode
  /-- Outside quotes. -/
  | plain
  /-- Inside a quoted field opened on a line. -/
  | quoted (openedOn : Nat)
  /-- After a quote inside a quoted field: a second quote stands for one quote,
  anything else shows that the first one closed the field. -/
  | closing (openedOn : Nat)
  deriving DecidableEq, Repr

/-- What has been read of the record under way. -/
structure Partial where
  /-- The current line. -/
  line : Nat
  /-- The line on which the record started. -/
  start : Nat
  /-- The finished fields, the last one first. -/
  fields : List String
  /-- The characters of the current field, the last one first. -/
  field : List Char
  deriving DecidableEq, Repr

namespace Partial

/-- The record that a line break or the end of the text closes. -/
def close (state : Partial) : Record :=
  ⟨state.start, (String.ofList state.field.reverse :: state.fields).reverse⟩

/-- Add a character to the current field. -/
def push (state : Partial) (char : Char) : Partial :=
  { state with field := char :: state.field }

/-- Close the current field. -/
def nextField (state : Partial) : Partial :=
  { state with
    fields := String.ofList state.field.reverse :: state.fields
    field := [] }

def nextRecord (state : Partial) : Partial :=
  ⟨state.line + 1, state.line + 1, [], []⟩

/-- Count a line break inside a quoted field. -/
def nextLine (state : Partial) : Partial :=
  { state with line := state.line + 1 }

/-- Whether nothing of a record has been read. -/
def isFresh (state : Partial) : Bool :=
  state.field.isEmpty && state.fields.isEmpty

end Partial

/-- Read a character outside quotes, given the one that follows it.  A carriage
return before a line feed does not count. -/
def stepPlain (state : Partial) (char : Char) (next : Option Char) :
    Mode × Partial × Option Record :=
  if char = '"' ∧ state.field = [] then (.quoted state.line, state, none)
  else if char = ',' then (.plain, state.nextField, none)
  else if char = '\r' ∧ next = some '\n' then (.plain, state, none)
  else if char = '\n' ∨ char = '\r' then
    (.plain, state.nextRecord, some state.close)
  else (.plain, state.push char, none)

def step (mode : Mode) (state : Partial) (char : Char)
    (next : Option Char) : Mode × Partial × Option Record :=
  match mode with
  | .plain => stepPlain state char next
  | .quoted openedOn =>
      if char = '"' then (.closing openedOn, state, none)
      else if char = '\n' then
        (.quoted openedOn, state.nextLine.push char, none)
      else (.quoted openedOn, state.push char, none)
  | .closing openedOn =>
      if char = '"' then (.quoted openedOn, state.push char, none)
      else stepPlain state char next

/-- Read the records that follow a state; a quoted field that is never closed
is reported with the line on which it was opened. -/
def parseFrom (mode : Mode) (state : Partial) :
    List Char → Except Nat (List Record)
  | [] =>
      match mode with
      | .quoted openedOn => .error openedOn
      | _ => .ok (if state.isFresh then [] else [state.close])
  | char :: rest =>
      match step mode state char rest.head? with
      | (mode, state, none) => parseFrom mode state rest
      | (mode, state, some record) =>
          (parseFrom mode state rest).map (record :: ·)

def parse (text : String) (path : Path) :
    Except TableError (List Record) :=
  match parseFrom .plain ⟨1, 1, [], []⟩ text.toList with
  | .ok records => .ok records
  | .error openedOn => .error ⟨path, openedOn, .unterminatedQuote⟩

end Deobfuscate.Csv
