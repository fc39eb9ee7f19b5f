import Deobfuscate.Dict
import Deobfuscate.FileTree.Path

/-!
# Settings

What a run is made of: where its files are, which tools it starts and how its
stages work.  Every setting but the program of a tool has a default.
-/

namespace Deobfuscate

/-- Where the cache stands and how long to wait for it. -/
structure CacheSettings where
  root : Option Path := none
  lockTimeout : Option Nat := none
  deriving DecidableEq, Repr

/-- What the chain of stages works on. -/
structure ChainSettings where
  input : Option Path := none
  workDirectory : Path := ⟨"build/retro"⟩
  keepIntermediates : Bool := false
  /-- How long an answer about being up to date is used again, in
  milliseconds. -/
  debounce : Nat := 10000
  deriving DecidableEq, Repr

/-- The mapping files. -/
structure MappingSettings where
  base : Option Path := none
  fields : Option Path := none
  methods : Option Path := none
  parameters : Option Path := none
  exceptions : Option Path := none
  moreExceptions : List Path := []
  outputDirectory : Option Path := none
  deriving DecidableEq, Repr

/-- How patches are applied. -/
structure PatchSettings where
  bundles : List Path := []
  /-- Directories that are copied into the artifact first. -/
  injections : List Path := []
  maxFuzz : Nat := 0
  strip : Nat := 3
  allowFailure : Bool := false
  canonicalizeAccess : Bool := true
  deriving DecidableEq, Repr

/-- How sources are cleaned up. -/
structure CleanupSettings where
  patches : Option Path := none
  strip : Nat := 1
  maxFuzz : Nat := 0
  normalizeLabels : Bool := true
  deriving DecidableEq, Repr

/-- How sources are renamed. -/
structure RenameSettings where
  disabled : Bool := false
  generics : Option Path := none
  edits : Option Path := none
  stubJavadoc : Bool := false
  skipJavadoc : Bool := false
  deriving DecidableEq, Repr

/-- A tool and how it is started. -/
structure ToolSettings where
  program : Path
  arguments : List String := []
  /-- Further files that the tool reads. -/
  inputs : List Path := []
  /-- Arguments that are repeated for each further file. -/
  argumentsPerInput : List String := []
  environment : Dict String := .empty
  timeout : Option Nat := none

structure LogSettings where
  level : String := "info"
  json : Bool := false
  stderr : Bool := true
  file : Option Path := none
  deriving DecidableEq, Repr

structure Settings where
  cache : CacheSettings := {}
  chain : ChainSettings := {}
  mappings : MappingSettings := {}
  patch : PatchSettings := {}
  cleanup : CleanupSettings := {}
  rename : RenameSettings := {}
  tools : Dict ToolSettings := .empty
  logging : LogSettings := {}

/-- A path as seen from a directory. -/
def Path.against (base path : Path) : Path :=
  if path.isAbsolute then path else base.join path

/-- A program as seen from a directory; a bare name is looked up elsewhere. -/
def Path.programAgainst (base program : Path) : Path :=
  if 1 < program.components.length then base.against program else program

namespace Settings

def resolveTool (base : Path) (tool : ToolSettings) : ToolSettings :=
  { tool with
    program := base.programAgainst tool.program
    inputs := tool.inputs.map base.against }

def resolve (settings : Settings) (base : Path) : Settings :=
  let fix (path : Option Path) : Option Path := path.map base.against
  { cache := { settings.cache with root := fix settings.cache.root }
    chain :=
      { settings.chain with
        input := fix settings.chain.input
        workDirectory := base.against settings.chain.workDirectory }
    mappings :=
      { base := fix settings.mappings.base
        fields := fix settings.mappings.fields
        methods := fix settings.mappings.methods
        parameters := fix settings.mappings.parameters
        exceptions := fix settings.mappings.exceptions
        moreExceptions := settings.mappings.moreExceptions.map base.against
        outputDirectory := fix settings.mappings.outputDirectory }
    patch :=
      { settings.patch with
        bundles := settings.patch.bundles.map base.against
        injections := settings.patch.injections.map base.against }
    cleanup :=
      { settings.cleanup with patches := fix settings.cleanup.patches }
    rename :=
      { settings.rename with
        generics := fix settings.rename.generics
        edits := fix settings.rename.edits }
    tools := settings.tools.map fun _ tool => resolveTool base tool
    logging := { settings.logging with file := fix settings.logging.file } }

end Settings

end Deobfuscate
