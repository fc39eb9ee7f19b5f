import Deobfuscate.Cache.Root
import Deobfuscate.Cache.Service
import Deobfuscate.Chain
import Deobfuscate.Mapping.Files
import Deobfuscate.Stage.Cleanup
import Deobfuscate.Stage.ExternalTool
import Deobfuscate.Stage.Patching
import Deobfuscate.Stage.Renaming

/-!
# The pipeline

The pipeline that settings describe: tools that merge, deobfuscate, decompile
and open up access, as far as they are set up, then cleaning up, patching and
renaming.  Beside it stand the mapping tables, which are generated under the
lock of the cache.
-/

namespace Deobfuscate

/-- The mapping tables: what they are derived from and where they go. -/
structure MappingTask where
  inputs : Mapping.Inputs
  directory : Path
  deriving DecidableEq, Repr

/-- A chain of stages with a cache and the mapping tables. -/
structure Pipeline where
  cache : Cache
  chain : Chain
  mappings : Option MappingTask

/-- How a run of a pipeline went. -/
structure PipelineReport where
  mappings : Option Mapping.Generated
  chain : ChainReport

/-- Generate mapping tables into given files, holding the lock of the cache
alone.  Who reads the tables takes a shared lock. -/
def generateMappingsTo (cache : Cache) (inputs : Mapping.Inputs)
    (outputs : Mapping.Outputs) : FileAction StageError Mapping.Generated :=
  withLock cache.lockPath .exclusive .cache
    (FileAction.mapError .mapping (Mapping.generateFiles inputs outputs))

def generateMappings (cache : Cache) (task : MappingTask) :
    FileAction StageError Mapping.Generated :=
  generateMappingsTo cache task.inputs (.inDirectory task.directory)

namespace Pipeline

/-- The roles of tools in the order of their stages. -/
def toolRoles : List String :=
  ["merge", "deobfuscate", "decompile", "access_transform"]

/-- The role of the tool that has nothing to do without further files. -/
def copyingRole : String := "access_transform"

def linkOf (work : Path) (stage : Stage) : Link where
  stage := stage
  output := work.child (stage.name ++ ".jar")

def toolStages (settings : Settings) : List Stage :=
  toolRoles.filterMap fun role =>
    (settings.tools.get? role).map fun tool =>
      ExternalTool.stage role tool (role == copyingRole)

def patchStages (settings : PatchSettings) : List Stage :=
  if settings.bundles.isEmpty && settings.injections.isEmpty then []
  else [Patching.stage settings]

def require (value : Option Path) (name : String) : Except StageError Path :=
  match value with
  | some path => .ok path
  | none => .error (.missingSetting name)

def tableFiles (settings : Settings) :
    Except StageError Source.TableFiles := do
  let mappings := settings.mappings
  let fields ← require mappings.fields "mappings.fields_csv"
  let methods ← require mappings.methods "mappings.methods_csv"
  return {
    fields, methods
    parameters := mappings.parameters
    generics := settings.rename.generics
    edits := settings.rename.edits }

def renameStages (settings : Settings) : Except StageError (List Stage) := do
  if settings.rename.disabled then return []
  let files ← tableFiles settings
  return [Renaming.stage files (Renaming.javadocMode settings.rename)]

/-- All stages in order. -/
def stages (settings : Settings) : Except StageError (List Stage) := do
  return toolStages settings ++ [Cleanup.stage settings.cleanup] ++
    patchStages settings.patch ++ (← renameStages settings)

def chainOf (settings : Settings) : Except StageError Chain := do
  let work := settings.chain.workDirectory
  return {
    input := settings.chain.input
    links := (← stages settings).map (linkOf work)
    scratchRoot := work.child "tmp"
    keepIntermediates := settings.chain.keepIntermediates
    debounce := settings.chain.debounce }

def mappingTask (settings : Settings) : Option MappingTask := do
  let mappings := settings.mappings
  let base ← mappings.base
  let fields ← mappings.fields
  let methods ← mappings.methods
  let exceptions := mappings.exceptions.toList ++ mappings.moreExceptions
  let work := settings.chain.workDirectory
  return {
    inputs := { base, fields, methods, exceptions }
    directory := mappings.outputDirectory.getD (work.child "mappings") }

/-- Build the pipeline of settings.  The root of its cache is made first. -/
def ofSettings (environment : Cache.Environment) (settings : Settings) :
    FileAction StageError Pipeline := do
  match Cache.resolveRoot environment settings.cache.root with
  | .error error => throw (.cache error)
  | .ok root =>
      let cache ← FileAction.mapError .cache (Cache.openAt root)
      match chainOf settings with
      | .error error => throw error
      | .ok chain =>
          return { cache, chain, mappings := mappingTask settings }

def generateTables (pipeline : Pipeline) :
    FileAction StageError (Option Mapping.Generated) :=
  match pipeline.mappings with
  | some task => some <$> generateMappings pipeline.cache task
  | none => return none

def runChain (pipeline : Pipeline) (now : Nat) (workspace : Workspace) :
    Except StageError ChainReport × Pipeline × Workspace :=
  let (result, chain, workspace) := pipeline.chain.run now workspace
  (result, { pipeline with chain }, workspace)

def run (pipeline : Pipeline) (now : Nat) (workspace : Workspace) :
    Except StageError PipelineReport × Pipeline × Workspace :=
  match (StageAction.files pipeline.generateTables id).perform workspace with
  | (.error error, workspace) => (.error error, pipeline, workspace)
  | (.ok mappings, workspace) =>
      let (result, pipeline, workspace) := pipeline.runChain now workspace
      (result.map fun chain => { mappings, chain }, pipeline, workspace)

end Pipeline

end Deobfuscate
