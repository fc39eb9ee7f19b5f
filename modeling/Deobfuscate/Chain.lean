import Deobfuscate.Cache.Replace
import Deobfuscate.Stage.Basic
import Deobfuscate.Text.Blank

/-!
# Chains of stages

A chain runs its stages one after another, each on what the one before it wrote.
The digest of all that the chain depends on is kept beside its final output; as
long as it is the same and the output is there, nothing has to run.

A stage writes into a directory of its own, and its artifact is moved into place
when it has succeeded.
-/

namespace Deobfuscate

/-- What happens to the output of a stage. -/
inductive Retention
  /-- It counts for the digest; the output goes after a run. -/
  | temporary
  /-- It counts for the digest; the output stays. -/
  | kept
  /-- It does not count for the digest; the output goes after a run. -/
  | unhashed
  deriving DecidableEq, Repr

/-- A stage with the place of its output. -/
structure Link where
  stage : Stage
  output : Path
  retention : Retention := .temporary

/-- Stages in order, with what is known about the files they depend on. -/
structure Chain where
  input : Option Path
  links : List Link := []
  /-- The directory above the scratch directories of the stages. -/
  scratchRoot : Path
  keepIntermediates : Bool := false
  /-- For how many milliseconds an answer is used again. -/
  debounce : Nat := 10000
  memo : Memo := {}
  /-- When the chain was last found to be up to date or not. -/
  lastCheck : Option (Nat × Bool) := none

/-- How a run of a chain went. -/
structure ChainReport where
  upToDate : Bool
  /-- The names of the stages that ran. -/
  executed : List String
  digest : Fingerprint
  output : Path
  deriving DecidableEq, Repr

namespace Chain

/-- Append a stage. -/
def push (chain : Chain) (link : Link) : Chain :=
  { chain with links := chain.links ++ [link], lastCheck := none }

/-- Where the last stage writes. -/
def finalOutput (chain : Chain) : Option Path :=
  chain.links.getLast?.map Link.output

def digestPathFor (output : Path) : Path :=
  ⟨output.text ++ ".inputs.sha256"⟩

def digestPath (chain : Chain) : Option Path :=
  chain.finalOutput.map digestPathFor

/-- What a link adds to the digest. -/
def Link.inputs (tree : FileTree) (link : Link) : List HashInput :=
  match link.retention with
  | .unhashed => []
  | _ => .text link.stage.name :: link.stage.inputs tree

def inputs (chain : Chain) (tree : FileTree) : List HashInput :=
  [.text "retro-chain/1", .optionalFile chain.input] ++
    chain.links.flatMap (Link.inputs tree)

def computeDigest (chain : Chain) (tree : FileTree) :
    Except StageError Fingerprint × Chain :=
  let (result, memo) := (digestOf tree (chain.inputs tree)).run chain.memo
  (result.mapError (.cache ∘ .input), { chain with memo })

def storedDigest (tree : FileTree) (output : Path) : Option Fingerprint :=
  match tree.readText (digestPathFor output) with
  | .ok text => Fingerprint.parse (Text.trim text)
  | .error _ => none

def storedDigestMatches (chain : Chain) (tree : FileTree)
    (digest : Fingerprint) : Bool :=
  match chain.finalOutput with
  | none => false
  | some output =>
      tree.isFile output && storedDigest tree output == some digest

/-- An earlier answer that is still used. -/
def recentAnswer (chain : Chain) (now : Nat) : Option Bool :=
  match chain.lastCheck with
  | some (time, answer) =>
      if now - time < chain.debounce then some answer else none
  | none => none

/-- Whether a run would do nothing. -/
def isUpToDate (chain : Chain) (tree : FileTree) (now : Nat) :
    Except StageError Bool × Chain :=
  match chain.recentAnswer now with
  | some answer => (.ok answer, chain)
  | none =>
      match chain.computeDigest tree with
      | (.error error, chain) => (.error error, chain)
      | (.ok digest, chain) =>
          let answer := chain.storedDigestMatches tree digest
          (.ok answer, { chain with lastCheck := some (now, answer) })

/-- Make an empty scratch directory. -/
def prepareScratch (scratch : Path) : StageAction Unit := do
  if (← get).tree.exists? scratch then
    StageAction.advance scratch (·.removeDirectories scratch)
  StageAction.advance scratch (·.createDirectories scratch)

def publish (link : Link) (input : Option Path) (staging scratch : Path) :
    StageAction Unit := do
  let staged := staging.child (link.output.fileName.getD "output")
  link.stage.run { input, output := staged, scratch }
  if !(← get).tree.isFile staged then
    throw (.missingOutput link.stage.name link.output)
  StageAction.change link.output (·.rename staged link.output)

/-- Run a link.  Whatever happens, nothing stays of the directory that the stage
wrote into. -/
def runLink (scratchRoot : Path) (link : Link) (input : Option Path) :
    StageAction Unit := do
  let directory := link.output.directory
  let scratch := scratchRoot.child link.stage.name
  StageAction.advance directory (·.createDirectories directory)
  prepareScratch scratch
  let staging ← StageAction.files
    (FileTree.makeTemporary directory ".retro-stage-" id) (.files directory)
  StageAction.finallyDo (publish link input staging scratch)
    (·.discard staging)

/-- Run links in order, the first on an input and every other one on the output
of the one before it. -/
def runLinks (scratchRoot : Path) :
    Option Path → List Link → StageAction Unit
  | _, [] => return ()
  | input, link :: rest => do
      runLink scratchRoot link input
      runLinks scratchRoot (some link.output) rest

def removeIntermediates (links : List Link) (tree : FileTree) : FileTree :=
  links.dropLast.foldl (fun tree link =>
    if link.retention = .kept then tree
    else (Cache.removeFileIfThere tree link.output).2) tree

def execute (chain : Chain) (output : Path) (digest : Fingerprint) :
    StageAction Unit := do
  runLinks chain.scratchRoot chain.input chain.links
  let record := Text.encode (digest.text ++ "\n")
  StageAction.files (Cache.atomicWrite (digestPathFor output) record) .cache
  if !chain.keepIntermediates then
    modify fun workspace =>
      { workspace with tree := removeIntermediates chain.links workspace.tree }

/-- Run a chain unless it is up to date. -/
def run (chain : Chain) (now : Nat) (workspace : Workspace) :
    Except StageError ChainReport × Chain × Workspace :=
  match chain.finalOutput with
  | none => (.error (.missingSetting "chain stages"), chain, workspace)
  | some output =>
      match chain.computeDigest workspace.tree with
      | (.error error, chain) => (.error error, chain, workspace)
      | (.ok digest, chain) =>
          let checked := { chain with lastCheck := some (now, true) }
          if chain.storedDigestMatches workspace.tree digest then
            (.ok ⟨true, [], digest, output⟩, checked, workspace)
          else
            match (chain.execute output digest).perform workspace with
            | (.error error, workspace) =>
                (.error error, { chain with lastCheck := none }, workspace)
            | (.ok _, workspace) =>
                let executed := chain.links.map fun link => link.stage.name
                (.ok ⟨false, executed, digest, output⟩, checked, workspace)

end Chain

end Deobfuscate
