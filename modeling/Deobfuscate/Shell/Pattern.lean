import Deobfuscate.Shell.Integer

/-!
# Patterns

A pattern says which texts fit it: a star fits any text, a question mark any
character, and brackets one of some characters.  What was quoted stands for
itself.
-/

namespace Deobfuscate.Shell

/-- A character that came out of a word. -/
structure Glyph where
  char : Char
  /-- Whether it stands for itself. -/
  quoted : Bool := false
  /-- Whether fields may end at it. -/
  splits : Bool := false
  deriving DecidableEq, Repr

/-- Some characters. -/
inductive CharSet
  | range (first last : Char)
  /-- Those of a class that has a name. -/
  | named (name : String)
  deriving DecidableEq, Repr

def inClass (name : String) (char : Char) : Bool :=
  let printable := '!' ≤ char && char ≤ '~'
  match name with
  | "alpha" => char.isAlpha
  | "digit" => char.isDigit
  | "alnum" => char.isAlphanum
  | "upper" => char.isUpper
  | "lower" => char.isLower
  | "space" => isSpacing char
  | "blank" => char == ' ' || char == '\t'
  | "punct" => printable && !char.isAlphanum
  | "graph" => printable
  | "print" => printable || char == ' '
  | "cntrl" => char < ' ' || char == '\x7f'
  | "xdigit" => digitValue char < 16
  | _ => false

def classNames : List String :=
  ["alpha", "digit", "alnum", "upper", "lower", "space", "blank", "punct",
    "graph", "print", "cntrl", "xdigit"]

def CharSet.contains : CharSet → Char → Bool
  | .range first last, char => first ≤ char && char ≤ last
  | .named name, char => inClass name char

inductive PatternPart
  | one (char : Char)
  | any
  | many
  | oneOf (negated : Bool) (sets : List CharSet)
  deriving DecidableEq, Repr

def Glyph.means (glyph : Glyph) (char : Char) : Bool :=
  !glyph.quoted && glyph.char == char

def takeGlyph? : List Glyph → Option (Char × List Glyph)
  | [] => none
  | [glyph] => some (glyph.char, [])
  | glyph :: escaped :: rest =>
      if glyph.means '\\' then some (escaped.char, rest)
      else some (glyph.char, escaped :: rest)

def readClass? (glyphs : List Glyph) : Option (CharSet × List Glyph) :=
  match glyphs with
  | colon :: rest =>
      if colon.char != ':' then none
      else
        let name := rest.takeWhile fun glyph => glyph.char.isAlpha
        let text := String.ofList (name.map Glyph.char)
        match rest.drop name.length with
        | second :: closing :: rest =>
            if second.char == ':' && closing.char == ']' &&
                classNames.contains text
            then some (.named text, rest)
            else none
        | _ => none
  | [] => none

/-- Read what stands in brackets, of which at least one character is there.
Every step takes at least one glyph. -/
def readSets? : Nat → Bool → List Glyph →
    Option (List CharSet × List Glyph)
  | 0, _, _ | _, _, [] => none
  | fuel + 1, started, glyph :: rest =>
      if started && glyph.means ']' then some ([], rest)
      else
        let add (entry : CharSet) (rest : List Glyph) :=
          (readSets? fuel true rest).map fun (sets, rest) =>
            (entry :: sets, rest)
        match glyph.means '[', readClass? rest with
        | true, some (entry, rest) => add entry rest
        | _, _ =>
            match takeGlyph? (glyph :: rest) with
            | none => none
            | some (first, rest) =>
                match rest with
                | dash :: next :: after =>
                    if dash.means '-' && !next.means ']' then
                      match takeGlyph? (next :: after) with
                      | some (last, rest) => add (.range first last) rest
                      | none => none
                    else add (.range first first) rest
                | rest => add (.range first first) rest

/-- Read a pattern.  Brackets that are not closed stand for themselves. -/
def readPattern : Nat → List Glyph → List PatternPart
  | 0, _ | _, [] => []
  | fuel + 1, glyph :: rest =>
      if glyph.quoted then .one glyph.char :: readPattern fuel rest
      else
        match glyph.char with
        | '*' => .many :: readPattern fuel rest
        | '?' => .any :: readPattern fuel rest
        | '\\' =>
            match takeGlyph? (glyph :: rest) with
            | some (char, rest) => .one char :: readPattern fuel rest
            | none => []
        | '[' =>
            let (negated, inside) :=
              match rest with
              | mark :: inside =>
                  if mark.means '!' then (true, inside) else (false, rest)
              | [] => (false, [])
            match readSets? (inside.length + 1) false inside with
            | some (sets, rest) => .oneOf negated sets :: readPattern fuel rest
            | none => .one '[' :: readPattern fuel rest
        | char => .one char :: readPattern fuel rest

def patternOf (glyphs : List Glyph) : List PatternPart :=
  readPattern glyphs.length glyphs

def anyEnding (test : List Char → Bool) : List Char → Bool
  | [] => test []
  | char :: rest => test (char :: rest) || anyEnding test rest

def fits : List PatternPart → List Char → Bool
  | [], chars => chars.isEmpty
  | .many :: parts, chars => anyEnding (fits parts) chars
  | .one _ :: _, [] | .any :: _, [] | .oneOf _ _ :: _, [] => false
  | .one expected :: parts, char :: rest =>
      expected == char && fits parts rest
  | .any :: parts, _ :: rest => fits parts rest
  | .oneOf negated sets :: parts, char :: rest =>
      (sets.any (·.contains char) != negated) && fits parts rest

/-- What is left of a text when the start, or else the end, of it that fits a
pattern is taken away: the longest such part or the shortest. -/
def trimmed (atEnd longest : Bool) (pattern : List PatternPart)
    (chars : List Char) : List Char :=
  let sizes := List.range (chars.length + 1)
  let sizes := if longest then sizes.reverse else sizes
  let keep (size : Nat) := chars.length - size
  let fitting := sizes.find? fun size =>
    fits pattern (if atEnd then chars.drop (keep size) else chars.take size)
  match fitting with
  | none => chars
  | some size =>
      if atEnd then chars.take (keep size) else chars.drop size

def Glyph.isWild (glyph : Glyph) : Bool :=
  glyph.means '*' || glyph.means '?' || glyph.means '['

end Deobfuscate.Shell
