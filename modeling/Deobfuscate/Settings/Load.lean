import Deobfuscate.FileTree.Basic
import Deobfuscate.Settings.Basic
import Deobfuscate.Toml.Decode
import Deobfuscate.Toml.Parser

/-!
# Reading settings

Settings are written in a document with one table for each group.  A table or a
key that is not known is a fault, and so are settings that contradict each
other.
-/

namespace Deobfuscate.Settings

open Deobfuscate.Toml

/-- The kinds of natural numbers in messages. -/
def countKind : String := "usize"

def timeKind : String := "u64"

def cacheFields : List (RecordField CacheSettings) :=
  [field "root" (asSome asPath) fun group root => { group with root },
    field "lock_timeout_ms" (asSome (asNat timeKind)) fun group lockTimeout =>
      { group with lockTimeout }]

def chainFields : List (RecordField ChainSettings) :=
  [field "input" (asSome asPath) fun group input => { group with input },
    field "work_dir" asPath fun group workDirectory =>
      { group with workDirectory },
    field "keep_intermediates" asBool fun group keepIntermediates =>
      { group with keepIntermediates },
    field "debounce_ms" (asNat timeKind) fun group debounce =>
      { group with debounce }]

def mappingFields : List (RecordField MappingSettings) :=
  [field "srg" (asSome asPath) fun group base => { group with base },
    field "fields_csv" (asSome asPath) fun group fields =>
      { group with fields },
    field "methods_csv" (asSome asPath) fun group methods =>
      { group with methods },
    field "params_csv" (asSome asPath) fun group parameters =>
      { group with parameters },
    field "exc" (asSome asPath) fun group exceptions =>
      { group with exceptions },
    field "extra_exc" (asList asPath) fun group moreExceptions =>
      { group with moreExceptions },
    field "output_dir" (asSome asPath) fun group outputDirectory =>
      { group with outputDirectory }]

def patchFields : List (RecordField PatchSettings) :=
  [field "bundles" (asList asPath) fun group bundles =>
      { group with bundles },
    field "injection_dirs" (asList asPath) fun group injections =>
      { group with injections },
    field "max_fuzz" (asNat countKind) fun group maxFuzz =>
      { group with maxFuzz },
    field "strip" (asNat countKind) fun group strip => { group with strip },
    field "allow_failure" asBool fun group allowFailure =>
      { group with allowFailure },
    field "canonicalize_access" asBool fun group canonicalizeAccess =>
      { group with canonicalizeAccess }]

def cleanupFields : List (RecordField CleanupSettings) :=
  [field "patches_dir" (asSome asPath) fun group patches =>
      { group with patches },
    field "strip" (asNat countKind) fun group strip => { group with strip },
    field "max_fuzz" (asNat countKind) fun group maxFuzz =>
      { group with maxFuzz },
    field "normalize_switch_labels" asBool fun group normalizeLabels =>
      { group with normalizeLabels }]

def renameFields : List (RecordField RenameSettings) :=
  [field "disabled" asBool fun group disabled => { group with disabled },
    field "generics_csv" (asSome asPath) fun group generics =>
      { group with generics },
    field "generic_patches_csv" (asSome asPath) fun group edits =>
      { group with edits },
    field "dummy_javadoc" asBool fun group stubJavadoc =>
      { group with stubJavadoc },
    field "skip_javadoc" asBool fun group skipJavadoc =>
      { group with skipJavadoc }]

def toolFields : List (RecordField (Option Path × ToolSettings)) :=
  let tool {β : Type} (name : String) (decode : Decoder β)
      (put : ToolSettings → β → ToolSettings) :
      RecordField (Option Path × ToolSettings) :=
    field name decode fun group value => (group.1, put group.2 value)
  [field "program" asPath fun group program => (some program, group.2),
    tool "args" (asList asText) fun group arguments =>
      { group with arguments },
    tool "inputs" (asList asPath) fun group inputs => { group with inputs },
    tool "per_input_args" (asList asText) fun group argumentsPerInput =>
      { group with argumentsPerInput },
    tool "env" (asDict asText) fun group environment =>
      { group with environment },
    tool "timeout_ms" (asSome (asNat timeKind)) fun group timeout =>
      { group with timeout }]

def asTool : Decoder ToolSettings := fun item => do
  let (program, tool) ←
    asRecord "ToolConfig" toolFields (none, { program := ⟨""⟩ }) item
  match program, item.slots? with
  | some program, _ => return { tool with program }
  | none, some _ => complain (.missingField "program")
  | none, none =>
      complain (.tooShort 0
        s!"struct ToolConfig with {toolFields.length} elements")

def logFields : List (RecordField LogSettings) :=
  [field "level" asText fun group level => { group with level },
    field "json" asBool fun group json => { group with json },
    field "stderr" asBool fun group stderr => { group with stderr },
    field "file" (asSome asPath) fun group file => { group with file }]

def groups : List (RecordField Settings) :=
  [field "cache" (asRecord "CacheSection" cacheFields {})
      fun all cache => { all with cache },
    field "chain" (asRecord "ChainSection" chainFields {})
      fun all chain => { all with chain },
    field "mappings" (asRecord "MappingsSection" mappingFields {})
      fun all mappings => { all with mappings },
    field "patch" (asRecord "PatchSection" patchFields {})
      fun all patch => { all with patch },
    field "cleanup" (asRecord "CleanupSection" cleanupFields {})
      fun all cleanup => { all with cleanup },
    field "remap" (asRecord "RemapSection" renameFields {})
      fun all rename => { all with rename },
    field "tools" (asDict asTool) fun all tools => { all with tools },
    field "logging" (asRecord "LoggingConfig" logFields {})
      fun all logging => { all with logging }]

/-- Why settings could not be read. -/
inductive Error
  | unreadable (path : Path) (problem : Problem)
  /-- The document is not well-formed. -/
  | malformed (line : Nat)
  /-- A value of the document does not fit. -/
  | unfit (fault : Fault)
  | invalid (setting reason : String)
  deriving DecidableEq, Repr

/-- The place of a fault in messages. -/
def placeOf : Option Nat → String
  | some line => s!" at line {line}"
  | none => ""

/-- The wording of what went wrong. -/
def Error.message : Error → String
  | .unreadable path problem =>
      s!"failed to read config file {path.text}: {problem.message}"
  | .malformed line =>
      s!"failed to parse toml config{placeOf (some line)}: malformed"
  | .unfit fault =>
      s!"failed to parse toml config{placeOf fault.line}: " ++
        fault.complaint.message
  | .invalid setting reason =>
      s!"invalid value for {ticked setting}: {reason}"

/-- The greatest fuzz that patches may have. -/
def fuzzLimit : Nat := 16

def checkTool (tool : String × ToolSettings) : Except Error Unit :=
  if tool.2.program.text = "" then
    .error (.invalid "tools.program"
      s!"tool {ticked tool.1} has an empty program")
  else .ok ()

def check (settings : Settings) : Except Error Unit := do
  if fuzzLimit < settings.patch.maxFuzz then
    throw (.invalid "patch.max_fuzz"
      (s!"{settings.patch.maxFuzz} exceeds the supported maximum of " ++
        toString fuzzLimit))
  settings.tools.toList.forM checkTool
  if settings.rename.stubJavadoc && settings.rename.skipJavadoc then
    throw (.invalid "remap.dummy_javadoc"
      "cannot be combined with remap.skip_javadoc")

/-- Read settings; paths stay as they are written. -/
def parse (text : String) : Except Error Settings := do
  let slots ← (Toml.parse text).mapError Error.malformed
  let settings ← (updateBySlots groups {} slots).mapError Error.unfit
  settings.check
  return settings

/-- Load settings from a file; relative paths start at its directory. -/
def load (tree : FileTree) (path : Path) : Except Error Settings := do
  let text ← (tree.readText path).mapError (Error.unreadable path)
  let settings ← parse text
  match path.parent with
  | some parent =>
      if parent.text = "" then return settings
      else return settings.resolve parent
  | none => return settings

end Deobfuscate.Settings
