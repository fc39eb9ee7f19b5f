import Deobfuscate.Text.Search

/-!
# Paths

A path is kept as it was written.  Its components are what the separators cut
out of it: empty pieces and inner `.` pieces do not count.  Paths are compared
by their components.
-/

namespace Deobfuscate

open Deobfuscate.Text

/-- A path as it was written. -/
structure Path where
  text : String
  deriving DecidableEq, Repr, Inhabited

/-- One step of a path. -/
inductive Component
  | root
  | current
  | parent
  | name (text : String)
  deriving DecidableEq, Repr

namespace Component

/-- The rank of a component's kind in the order of paths. -/
def rank : Component → Nat
  | root => 0
  | current => 1
  | parent => 2
  | name _ => 3

/-- Components are ordered by kind and names by their characters. -/
def less : Component → Component → Bool
  | name left, name right => left < right
  | left, right => left.rank < right.rank

end Component

namespace Path

def isAbsolute (path : Path) : Bool :=
  Text.startsWith ['/'] path.text.toList

def pieces (path : Path) : List String :=
  (Text.splitOn '/' path.text.toList).map String.ofList

def innerComponent (piece : String) : Option Component :=
  if piece = "" ∨ piece = "." then none
  else if piece = ".." then some .parent
  else some (.name piece)

/-- The components of a path.  A `.` counts only at the very start. -/
def components (path : Path) : List Component :=
  match path.pieces with
  | [] => []
  | "" :: rest =>
      (if path.isAbsolute then [.root] else []) ++
        rest.filterMap innerComponent
  | "." :: rest => .current :: rest.filterMap innerComponent
  | pieces => pieces.filterMap innerComponent

/-- A path below another one; an absolute path stands for itself. -/
def join (base path : Path) : Path :=
  if path.isAbsolute then path
  else if base.text = "" then path
  else if Text.endsWith ['/'] base.text.toList then
    ⟨base.text ++ path.text⟩
  else ⟨base.text ++ "/" ++ path.text⟩

/-- `join` with a plain text on the right. -/
def child (base : Path) (name : String) : Path :=
  base.join ⟨name⟩

/-- Drop the separators and the inner `.` pieces a text ends with, given in
reverse. -/
def trimReversed : List Char → List Char
  | '/' :: rest => if rest.isEmpty then ['/'] else trimReversed rest
  | '.' :: '/' :: rest =>
      if rest.isEmpty then ['/'] else trimReversed rest
  | chars => chars

/-- The path without its last component; a root and an empty path have no
parent. -/
def parent (path : Path) : Option Path :=
  match path.components.getLast? with
  | none | some .root => none
  | some _ =>
      let trimmed := trimReversed path.text.toList.reverse
      some ⟨String.ofList
        (trimReversed (trimmed.dropWhile (· != '/'))).reverse⟩

def ancestorsUpTo : Nat → Path → List Path
  | 0, path => [path]
  | limit + 1, path =>
      path :: (path.parent.map (ancestorsUpTo limit)).getD []

/-- A path, its parent, the parent of that, and so on. -/
def ancestors (path : Path) : List Path :=
  ancestorsUpTo path.text.length path

def directory (path : Path) : Path :=
  match path.parent with
  | some parent => if parent.text = "" then ⟨"."⟩ else parent
  | none => ⟨"."⟩

def fileName (path : Path) : Option String :=
  match path.components.getLast? with
  | some (.name text) => some text
  | _ => none

/-- What follows the last dot of the file name, unless that dot is its first
character. -/
def extension (path : Path) : Option String :=
  match path.fileName with
  | none => none
  | some name =>
      match Text.splitLast '.' name.toList with
      | some (_ :: _, after) => some (String.ofList after)
      | _ => none

/-- Where the last piece of a path leads from what stands before it. -/
inductive LastStep
  /-- Nowhere: the path has no pieces. -/
  | root
  | current
  | parent
  /-- To a name, which may have to be that of a directory. -/
  | name (text : String) (slashed : Bool)
  deriving DecidableEq, Repr

/-- The pieces before the last step of a path, and that step.  Separators at the
end belong to the step. -/
def lastStep (path : Path) : List String × LastStep :=
  match path.pieces.reverse.dropWhile (· == "") with
  | [] => ([], .root)
  | "." :: before => (before.reverse, .current)
  | ".." :: before => (before.reverse, .parent)
  | text :: before =>
      (before.reverse, .name text (Text.endsWith ['/'] path.text.toList))

def lessComponents : List Component → List Component → Bool
  | _, [] => false
  | [], _ :: _ => true
  | left :: leftRest, right :: rightRest =>
      if left = right then lessComponents leftRest rightRest
      else left.less right

/-- Whether a path comes before another one. -/
def less (left right : Path) : Bool :=
  lessComponents left.components right.components

/-- Insert a path into an ordered list, unless an equal one is there. -/
def insertSorted (path : Path) : List Path → List Path
  | [] => [path]
  | head :: rest =>
      if path.less head then path :: head :: rest
      else if head.less path then head :: insertSorted path rest
      else head :: rest

/-- Paths in increasing order, each once. -/
def sortDistinct (paths : List Path) : List Path :=
  paths.foldl (fun sorted path => insertSorted path sorted) []

end Path

end Deobfuscate
