import Deobfuscate.Shell.Pattern
import Deobfuscate.Shell.World

/-!
# Patterns of file names

A pattern stands for the names of the files that fit it, in order.  Slashes cut
it into steps, each of which stands for names in one directory.
-/

namespace Deobfuscate.Shell

def namesIn (tree : FileTree) (directory : Path) : List String :=
  match tree.find directory with
  | .ok (location, .directory) =>
      let below := tree.nodes.filterMap fun entry =>
        if entry.1.length == location.length + 1 &&
            location.isPrefixOf entry.1
        then entry.1.getLast?.map ofText
        else none
      "." :: ".." :: below
  | _ => []

/-- Cut glyphs at slashes. -/
def splitSteps : List Glyph → List Glyph → List (List Glyph)
  | step, [] => [step.reverse]
  | step, glyph :: rest =>
      if glyph.char == '/' then step.reverse :: splitSteps [] rest
      else splitSteps (glyph :: step) rest

/-- Whether a name may stand for a step.  A dot at its start must be given. -/
def fitsStep (step : List Glyph) (name : String) : Bool :=
  let hidden := name.toList.head? == some '.'
  let asked := step.head?.any fun glyph => glyph.char == '.'
  (!hidden || asked) && fits (patternOf step) name.toList

/-- The text that a step without wildcards stands for. -/
def plainStep (step : List Glyph) : String :=
  String.ofList ((patternOf step).filterMap fun
    | .one char => some char
    | _ => none)

def pathsFrom (tree : FileTree) (directory : Path) :
    String → List (List Glyph) → List String
  | start, [] =>
      if tree.exists? (directory.child (toText start)) then [start] else []
  | start, step :: rest =>
      let ending := if rest.isEmpty then "" else "/"
      if step.any Glyph.isWild then
        let place := if start == "" then "." else start
        let names := (namesIn tree (directory.child (toText place))).filter
          (fitsStep step)
        names.flatMap fun name =>
          let path := start ++ name
          if rest.isEmpty then [path]
          else if tree.isDirectory (directory.child (toText path)) then
            pathsFrom tree directory (path ++ ending) rest
          else []
      else pathsFrom tree directory (start ++ plainStep step ++ ending) rest

/-- The paths that fit a pattern, or its text if there are none. -/
def fileNames (tree : FileTree) (directory : Path) (glyphs : List Glyph) :
    List String :=
  let text := String.ofList (glyphs.map Glyph.char)
  if !glyphs.any Glyph.isWild then [text]
  else
    match pathsFrom tree directory "" (splitSteps [] glyphs) with
    | [] => [text]
    | paths => paths.mergeSort fun left right => left ≤ right

end Deobfuscate.Shell
