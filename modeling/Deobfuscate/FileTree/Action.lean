import Deobfuscate.FileTree.Basic

/-!
# Actions on file trees

An action changes a file tree and gives a result or an error.  An action that
fails keeps the changes made before it failed.
-/

namespace Deobfuscate

abbrev FileAction (ε α : Type) := ExceptT ε (StateM FileTree) α

namespace FileAction

variable {ε α : Type}

def look (view : FileTree → α) : FileAction ε α :=
  return view (← get)

/-- Look something up that need not be there. -/
def read (view : FileTree → Except Problem α) (wrap : Problem → ε) :
    FileAction ε α := do
  match view (← get) with
  | .ok result => return result
  | .error problem => throw (wrap problem)

/-- Look something up that comes with its own error. -/
def consult (view : FileTree → Except ε α) : FileAction ε α := do
  match view (← get) with
  | .ok result => return result
  | .error error => throw error

def change (step : FileTree → Except Problem FileTree) (wrap : Problem → ε) :
    FileAction ε Unit := do
  match step (← get) with
  | .ok tree => set tree
  | .error problem => throw (wrap problem)

/-- Change the tree in several steps; those made before one fails stay. -/
def advance (steps : FileTree → FileTree.Outcome) (wrap : Problem → ε) :
    FileAction ε Unit := do
  let (problem?, tree) := steps (← get)
  set tree
  match problem? with
  | none => return ()
  | some problem => throw (wrap problem)

/-- Change the tree as far as that is possible. -/
def attempt (step : FileTree → Except Problem FileTree) :
    FileAction ε Unit :=
  modify fun tree =>
    match step tree with
    | .ok changed => changed
    | .error _ => tree

def perform (action : FileAction ε α) (tree : FileTree) :
    Except ε α × FileTree :=
  action.run tree

def mapError {δ : Type} (wrap : ε → δ) (action : FileAction ε α) :
    FileAction δ α :=
  fun tree =>
    let (result, tree) := action.run tree
    (result.mapError wrap, tree)

/-- Run an action and afterwards, whether or not it failed, another one. -/
def finallyDo (action : FileAction ε α) (after : FileTree → FileTree) :
    FileAction ε α :=
  fun tree =>
    let (result, tree) := action.run tree
    (result, after tree)

/-- Run an action and, if it fails, another one afterwards. -/
def onError (action : FileAction ε α) (after : FileTree → FileTree) :
    FileAction ε α :=
  fun tree =>
    match action.run tree with
    | (.ok value, tree) => (.ok value, tree)
    | (.error error, tree) => (.error error, after tree)

end FileAction

end Deobfuscate
