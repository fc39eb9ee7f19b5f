import Deobfuscate.Shell.Pattern

/-!
# Fields

What comes out of a word is cut into fields where separators came out of
something that was not quoted.  Separators that are blanks count once however
many there are, and not at the start.
-/

namespace Deobfuscate.Shell

/-- What comes out of a word. -/
inductive Cell
  | glyph (glyph : Glyph)
  /-- There is a field even if nothing is in it. -/
  | mark
  /-- A field ends here. -/
  | cut
  deriving DecidableEq, Repr

def glyphsOf (quoted splits : Bool) (text : String) : List Cell :=
  text.toList.map fun char => .glyph { char, quoted, splits }

def cellGlyphs (cells : List Cell) : List Glyph :=
  cells.filterMap fun
    | .glyph glyph => some glyph
    | .mark | .cut => none

def glyphText (glyphs : List Glyph) : String :=
  String.ofList (glyphs.map Glyph.char)

def cellText (cells : List Cell) : String :=
  glyphText (cellGlyphs cells)

/-- The separators if nothing else is said. -/
def blankSeparators : List Char := [' ', '\t', '\n']

/-- A kind of separator. -/
inductive Separator
  | none
  | blank
  | other
  deriving DecidableEq

def Cell.separator (separators : List Char) : Cell → Separator
  | .glyph it =>
      if it.splits && separators.contains it.char then
        if blankSeparators.contains it.char then .blank else .other
      else .none
  | .mark | .cut => .none

/-- What has been seen of the separators between two fields. -/
inductive Gap
  /-- A field is under way or can begin. -/
  | closed
  /-- A field has ended at a blank. -/
  | afterBlank
  /-- A field has ended at another separator. -/
  | afterOther
  deriving DecidableEq

/-- Cut cells into fields.  The field under way is given in reverse, if there is
one. -/
def splitCells (separators : List Char) :
    Gap → Option (List Glyph) → List Cell → List (List Glyph)
  | _, field, [] => (field.map List.reverse).toList
  | gap, field, cell :: rest =>
      match cell.separator separators, gap, field with
      | .blank, gap, none => splitCells separators gap none rest
      | .blank, _, some glyphs =>
          glyphs.reverse :: splitCells separators .afterBlank none rest
      | .other, .afterBlank, none => splitCells separators .afterOther none rest
      | .other, _, field =>
          (field.getD []).reverse :: splitCells separators .afterOther none rest
      | .none, _, field =>
          match cell with
          | .glyph glyph =>
              let field := glyph :: field.getD []
              splitCells separators .closed (some field) rest
          | .mark =>
              splitCells separators .closed (some (field.getD [])) rest
          | .cut =>
              (field.map List.reverse).toList ++
                splitCells separators .closed none rest

def fieldsOf (separators : List Char) (cells : List Cell) :
    List (List Glyph) :=
  splitCells separators .closed none cells

/-- The rest of a line for the last of some variables: without blanks at its
end, and without its only separator if that stands at its end. -/
def lastValue (separators : List Char) (cells : List Cell) : List Glyph :=
  let isBlank (cell : Cell) := cell.separator separators == .blank
  let isOther (cell : Cell) := cell.separator separators == .other
  let trim (cells : List Cell) := (cells.reverse.dropWhile isBlank).reverse
  let rest := trim (cells.dropWhile isBlank)
  let inner := rest.dropLast
  match rest.getLast? with
  | some last =>
      if isOther last && (trim inner).all fun cell =>
          cell.separator separators == .none
      then cellGlyphs (trim inner)
      else cellGlyphs rest
  | none => []

def lineValues (separators : List Char) : Nat → List Cell → List (List Glyph)
  | 0, _ => []
  | 1, cells => [lastValue separators cells]
  | count + 1, cells =>
      let kind (cell : Cell) := cell.separator separators
      let cells := cells.dropWhile fun cell => kind cell == .blank
      let value := cells.takeWhile fun cell => kind cell == .none
      let rest := (cells.drop value.length).dropWhile fun cell =>
        kind cell == .blank
      let rest :=
        match rest with
        | cell :: after =>
            if kind cell == .other then
              after.dropWhile fun cell => kind cell == .blank
            else rest
        | [] => []
      cellGlyphs value :: lineValues separators count rest

end Deobfuscate.Shell
