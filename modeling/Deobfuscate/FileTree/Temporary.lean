import Deobfuscate.FileTree.Action

/-!
# Temporary names

Results are first written under a name that nothing else has, beside the place
they are meant for, and then renamed.
-/

namespace Deobfuscate.FileTree

def sixDigits (number : Nat) : String :=
  let digits := (Nat.repr number).toList
  String.ofList (List.replicate (6 - digits.length) '0' ++ digits)

def freshName (start ending : String) (number : Nat) : String :=
  start ++ sixDigits number ++ ending

/-- A path in a directory that leads to nothing, with a name that starts and
ends as given.  As many numbers are tried as there are nodes, and one more. -/
def freshPath (tree : FileTree) (directory : Path) (start ending : String) :
    Path :=
  let candidates := (List.range (tree.nodes.length + 1)).map fun offset =>
    directory.child (freshName start ending (tree.clock + offset))
  (candidates.find? fun path => !tree.exists? path).getD
    (directory.child (freshName start ending tree.clock))

/-- Make a new directory with a fresh name. -/
def makeTemporary {ε : Type} (directory : Path) (start : String)
    (wrap : Problem → ε) : FileAction ε Path := do
  let path ← FileAction.look fun tree => tree.freshPath directory start ""
  FileAction.change (·.createDirectory path) wrap
  modify tick
  return path

def discard (tree : FileTree) (path : Path) : FileTree :=
  if tree.isDirectory path then (tree.removeDirectories path).2
  else (tree.removeFile path).toOption.getD tree

end Deobfuscate.FileTree
