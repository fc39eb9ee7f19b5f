import Deobfuscate.Settings.FieldValue
import Deobfuscate.Text.Alphanumeric
import Deobfuscate.Text.Blank
import Deobfuscate.Text.Bytes
import Deobfuscate.Text.Decimal
import Deobfuscate.Text.Search

/-!
# Log filters

A log filter is a list of directives: a level for everything, a level for a
target, or a level for the spans of a target with certain fields.  The most
specific directive comes first; of two directives about the same thing the
later one counts.
-/

namespace Deobfuscate.Settings

open Deobfuscate.Text

/-- How much is logged. -/
inductive LogLevel
  | off
  | error
  | warn
  | info
  | debug
  | trace
  deriving DecidableEq, Repr

namespace LogLevel

def name : LogLevel → String
  | off => "off"
  | error => "error"
  | warn => "warn"
  | info => "info"
  | debug => "debug"
  | trace => "trace"

/-- All levels, in the order of their numbers. -/
def all : List LogLevel :=
  [off, error, warn, info, debug, trace]

def lower (text : String) : String :=
  String.ofList (text.toList.map Real.lowerChar)

def parse (text : String) : Option LogLevel :=
  match readBounded wordBound text.toList with
  | some number => all[number]?
  | none =>
      if text = "" then some error
      else all.find? fun level => level.name = lower text

end LogLevel

/-- A field that a span must have, perhaps with a given value. -/
structure FieldTest where
  name : String
  value : Option FieldValue := none
  deriving DecidableEq, Repr

/-- A level for a target, for spans, or for everything. -/
structure Directive where
  level : LogLevel := .trace
  target : Option String := none
  span : Option String := none
  fields : List FieldTest := []
  deriving DecidableEq, Repr

namespace FieldTest

/-- Read a field; what follows a second equals sign does not count. -/
def parse? (text : String) : Option FieldTest :=
  match splitOn '=' text.toList with
  | name :: value :: _ =>
      (FieldValue.parse? (String.ofList value)).map fun value =>
        ⟨String.ofList name, some value⟩
  | _ => some ⟨text, none⟩

def shown (field : FieldTest) : String :=
  field.name ++
    (field.value.map fun value => "=" ++ value.shown).getD ""

end FieldTest

/-- Compare two things that may be missing: a missing one comes first. -/
def orderOptional {α : Type} (order : α → α → Ordering) :
    Option α → Option α → Ordering
  | none, none => .eq
  | none, some _ => .lt
  | some _, none => .gt
  | some left, some right => order left right

/-- Compare two lists by their first difference. -/
def orderLists {α : Type} (order : α → α → Ordering) :
    List α → List α → Ordering
  | [], [] => .eq
  | [], _ :: _ => .lt
  | _ :: _, [] => .gt
  | left :: lefts, right :: rights =>
      (order left right).then (orderLists order lefts rights)

/-- Compare two fields: one without a value comes first. -/
def FieldTest.order (left right : FieldTest) : Ordering :=
  (compare left.value.isSome.toNat right.value.isSome.toNat).then
    ((FieldValue.orderTexts left.name right.name).then
      (orderOptional FieldValue.order left.value right.value))

namespace Directive

/-! ## Reading

A directive is read from its first character that is not blank on.  Places are
counted from there in bytes, while the parts of the directive are taken from
these places of the whole text. -/

/-- What is being read. -/
inductive Scan
  | start
  /-- A level or a target that starts at a place. -/
  | word (place : Nat)
  | span (place : Nat)
  | field (place : Nat)
  | afterField
  | afterSpan
  | level (place : Nat)
  deriving DecidableEq, Repr

/-- The part of a text between two places. -/
def part (whole : Bytes) (start stop : Nat) : String :=
  decodeLossy ((whole.take stop).drop start)

/-- Whether a level or a target may start with a character. -/
def isStart (char : Char) : Bool :=
  char == '-' || char == ':' || char == '_' || isAlphanumeric char

def addField (directive : Directive) (text : String) : Option Directive :=
  if text = "" then none
  else (FieldTest.parse? text).map fun field =>
    { directive with fields := directive.fields ++ [field] }

def step (whole : Bytes) (directive : Directive) (place : Nat)
    (char : Char) : Scan → Option (Scan × Directive)
  | .start =>
      if char = '[' then some (.span (place + 1), directive)
      else if isStart char then some (.word place, directive)
      else none
  | .word start =>
      let named := { directive with target := some (part whole start place) }
      if char = '=' then some (.level (place + 1), named)
      else if char = '[' then some (.span (place + 1), named)
      else some (.word start, directive)
  | .span start =>
      let name := part whole start place
      if char = ']' then
        some (.afterSpan, { directive with span := some name })
      else if char = '\x7b' then
        let span := if name = "" then none else some name
        some (.field (place + 1), { directive with span })
      else some (.span start, directive)
  | .field start =>
      if char = '\x7d' then
        (directive.addField (part whole start place)).map fun directive =>
          (.afterField, directive)
      else some (.field start, directive)
  | .afterField =>
      if char = ']' then some (.afterSpan, directive) else none
  | .afterSpan =>
      if char = '=' then some (.level (place + 1), directive) else none
  | .level start => some (.level start, directive)

/-- The directive at the end of a text.  A level may be left out, and so may a
target. -/
def finish (whole : Bytes) (directive : Directive) :
    Scan → Option Directive
  | .word start =>
      let word := part whole start whole.length
      match LogLevel.parse word with
      | some level => some { directive with level }
      | none => some { directive with target := some word }
  | .level start =>
      let word := part whole start whole.length
      if word = "" then some directive
      else (LogLevel.parse word).map fun level => { directive with level }
  | .afterSpan => some directive
  | _ => none

def readFrom (whole : Bytes) :
    Scan → Directive → Nat → List Char → Option Directive
  | scan, directive, _, [] => directive.finish whole scan
  | scan, directive, place, char :: rest => do
      let (scan, directive) ← directive.step whole place char scan
      readFrom whole scan directive (place + char.utf8Size) rest

def parse (text : String) : Option Directive :=
  readFrom (encode text) .start {} 0 (trimChars text.toList)

/-- The length in bytes of a text that may be missing. -/
def sizeOf? (text : Option String) : Nat :=
  (text.map fun text => text.utf8ByteSize + 1).getD 0

/-- Compare how specific two directives are: the length of the target counts
first, then the span, then the number of fields.  Directives that are equal
here are about the same thing. -/
def order (left right : Directive) : Ordering :=
  (compare (sizeOf? left.target) (sizeOf? right.target)).then <|
  (compare left.span.isSome.toNat right.span.isSome.toNat).then <|
  (compare left.fields.length right.fields.length).then <|
  (orderOptional FieldValue.orderTexts left.target right.target).then <|
  (orderOptional FieldValue.orderTexts left.span right.span).then <|
  orderLists FieldTest.order left.fields right.fields

/-- Add a directive to an ordered list, the most specific one first, in place of
one about the same thing. -/
def addTo (directive : Directive) : List Directive → List Directive
  | [] => [directive]
  | other :: rest =>
      match other.order directive with
      | .eq => directive :: rest
      | .lt => directive :: other :: rest
      | .gt => other :: addTo directive rest

/-- Directives in order, of those about the same thing the last one. -/
def sort (directives : List Directive) : List Directive :=
  directives.foldl (fun list directive => directive.addTo list) []

def isDynamic (directive : Directive) : Bool :=
  directive.span.isSome || !directive.fields.isEmpty

/-- Whether a directive can be decided without open spans. -/
def isStatic (directive : Directive) : Bool :=
  directive.span.isNone && directive.fields.all (·.value.isNone)

def shownSpan (directive : Directive) : String :=
  let fields :=
    if directive.fields.isEmpty then ""
    else
      "\x7b" ++ ",".intercalate (directive.fields.map FieldTest.shown) ++
        "\x7d"
  if directive.isDynamic then
    "[" ++ directive.span.getD "" ++ fields ++ "]"
  else ""

def shown (directive : Directive) : String :=
  let scope := directive.target.getD "" ++ directive.shownSpan
  if directive.target.isNone && !directive.isDynamic
  then directive.level.name
  else scope ++ "=" ++ directive.level.name

end Directive

def readDirectives (text : String) : Option (List Directive) :=
  (((splitOn ',' text.toList).filter (!·.isEmpty)).map String.ofList).mapM
    Directive.parse

/-- The directives of a filter as they are shown: first those that can be
decided without spans, then those that depend on spans, and some are both. -/
def showDirectives (directives : List Directive) : String :=
  let plain := directives.filter (!·.isDynamic)
  let dynamic := directives.filter Directive.isDynamic
  let sorted :=
    Directive.sort (plain ++ dynamic.filter Directive.isStatic) ++
      Directive.sort dynamic
  ",".intercalate (sorted.map Directive.shown)

def levelDirectives (level : String) : String :=
  let trimmed := trim level
  if trimmed = "" then "info"
  else
    match LogLevel.lower trimmed with
    | "trace" => "trace"
    | "debug" => "debug"
    | "info" => "info"
    | "warn" | "warning" => "warn"
    | "error" => "error"
    | _ => trimmed

/-- The filter of a level of the settings and the directives of the environment.
Directives that cannot be read are left out: first those of the settings, then
those of the environment, then both. -/
def logFilter (level : String) (environment : Option String) : String :=
  let own := levelDirectives level
  let fallback := (readDirectives own).getD [{ level := .info }]
  match (environment.map trim).filter (· ≠ "") with
  | none => showDirectives fallback
  | some more =>
      showDirectives
        ((readDirectives (own ++ "," ++ more) <|>
          readDirectives more).getD fallback)

end Deobfuscate.Settings
