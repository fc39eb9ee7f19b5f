import Deobfuscate.Proofs.Archive.Separate
import Deobfuscate.Proofs.Stage.Transformation

/-!
# Artifacts through whole pipelines

An artifact is loaded, entries come and go, and stages make other artifacts of
it.  Its entries stay separate as long as no patch creates a file under the name
of a resource.  Patches are applied to the sources alone, so such a patch does
not see that the name is taken.
-/

namespace Deobfuscate.Artifact

open Deobfuscate.Patch

/-- Something that is done with an artifact in memory. -/
inductive Operation
  | insert (name : String) (bytes : Bytes)
  | insertSource (name text : String)
  | insertResource (name : String) (bytes : Bytes)
  | remove (name : String)
  /-- Apply specifications to the sources, whatever their reports are. -/
  | apply (options : Options) (specs : List Spec)
  | cleanUp (settings : CleanupSettings) (tree : FileTree)
  | patch (settings : PatchSettings) (tree : FileTree)
  | rename (files : Source.TableFiles) (mode : Source.JavadocMode)
      (tree : FileTree)

namespace Operation

def run : Operation → Artifact → Option Artifact
  | .insert name bytes, artifact => (artifact.insert name bytes).toOption
  | .insertSource name text, artifact => some (artifact.insertSource name text)
  | .insertResource name bytes, artifact =>
      some (artifact.insertResource name bytes)
  | .remove name, artifact => some (artifact.remove name)
  | .apply options specs, artifact =>
      some { artifact with
        sources := (Patch.apply artifact.sources specs options).1 }
  | .cleanUp settings tree, artifact => Cleanup.cleaned settings tree artifact
  | .patch settings tree, artifact => Patching.patched settings tree artifact
  | .rename files mode tree, artifact =>
      Renaming.renamed files mode tree artifact

def CreatesNoResource : Operation → Artifact → Prop
  | .apply options specs, artifact =>
      Patch.CreatesNone options artifact.resources.keys artifact.sources
        [specs]
  | .cleanUp settings tree, artifact =>
      ∀ lists ∈ Cleanup.fixupLists settings tree,
        Patch.CreatesNone (Cleanup.fixupOptions settings)
          artifact.resources.keys artifact.sources lists
  | .patch settings tree, artifact =>
      ∀ changed ∈ Patching.injected settings tree artifact,
        ∀ lists ∈ Patching.patchLists settings tree,
          Patch.CreatesNone (Patching.patchOptions settings)
            changed.resources.keys changed.sources lists
  | _, _ => True

instance : (operation : Operation) → (artifact : Artifact) →
    Decidable (operation.CreatesNoResource artifact)
  | .apply options specs, artifact =>
      decidableCreatesNone options artifact.resources.keys artifact.sources
        [specs]
  | .cleanUp settings tree, artifact =>
      inferInstanceAs (Decidable
        (∀ lists ∈ Cleanup.fixupLists settings tree,
          Patch.CreatesNone (Cleanup.fixupOptions settings)
            artifact.resources.keys artifact.sources lists))
  | .patch settings tree, artifact =>
      inferInstanceAs (Decidable
        (∀ changed ∈ Patching.injected settings tree artifact,
          ∀ lists ∈ Patching.patchLists settings tree,
            Patch.CreatesNone (Patching.patchOptions settings)
              changed.resources.keys changed.sources lists))
  | .insert _ _, _ => isTrue trivial
  | .insertSource _ _, _ => isTrue trivial
  | .insertResource _ _, _ => isTrue trivial
  | .remove _, _ => isTrue trivial
  | .rename _ _ _, _ => isTrue trivial

end Operation

/-- Do several things in turn. -/
def runAll : List Operation → Artifact → Option Artifact
  | [], artifact => some artifact
  | operation :: rest, artifact => do
      runAll rest (← operation.run artifact)

/-- No patch creates a file under the name of a resource, each operation done
on what the ones before it make. -/
def CreateNoResources : List Operation → Artifact → Prop
  | [], _ => True
  | operation :: rest, artifact =>
      operation.CreatesNoResource artifact ∧
        ∀ made ∈ operation.run artifact, CreateNoResources rest made

instance decidableCreateNoResources :
    (operations : List Operation) → (artifact : Artifact) →
      Decidable (CreateNoResources operations artifact)
  | [], _ => isTrue trivial
  | operation :: rest, artifact =>
      have := decidableCreateNoResources rest
      inferInstanceAs (Decidable (operation.CreatesNoResource artifact ∧
        ∀ made ∈ operation.run artifact, CreateNoResources rest made))

namespace Separate

variable {artifact : Artifact}

/-- Sources that hold no other names than before stay separate. -/
theorem withSources (separate : artifact.Separate) {sources : Dict String}
    (names : ∀ name, artifact.sources.get? name = none →
      sources.get? name = none) : Separate { artifact with sources } :=
  fun name resource => names name (separate name resource)

theorem applyAll (separate : artifact.Separate) {options : Options}
    {lists : List (List Spec)}
    (spares : Patch.CreatesNone options artifact.resources.keys artifact.sources
      lists) :
    Separate { artifact with
      sources := Patch.applyAll options artifact.sources lists } := by
  intro name resource
  refine get?_applyAll_eq_none spares (fun path member => ?_) name
    (Dict.mem_keys.2 resource)
  exact separate path (Dict.mem_keys.1 member)

theorem insertAll (separate : artifact.Separate) {changed : Artifact}
    {entries : List (String × Bytes)}
    (inserted : Patching.insertAll artifact entries = some changed) :
    changed.Separate := by
  induction entries generalizing artifact with
  | nil =>
      cases inserted
      exact separate
  | cons entry rest inductionHypothesis =>
      obtain ⟨next, placed, later⟩ := Option.bind_eq_some_iff.1 inserted
      cases placement : artifact.insert entry.1 entry.2 with
      | error error =>
          rw [placement] at placed
          cases placed
      | ok placedArtifact =>
          rw [placement] at placed
          cases placed
          exact inductionHypothesis (separate.insert placement) later

theorem cleaned (separate : artifact.Separate) {settings : CleanupSettings}
    {tree : FileTree} {made : Artifact}
    (cleans : Cleanup.cleaned settings tree artifact = some made)
    (spares : (Operation.cleanUp settings tree).CreatesNoResource artifact) :
    made.Separate := by
  obtain ⟨lists, found, cleans⟩ := Option.bind_eq_some_iff.1 cleans
  obtain ⟨sources, applied, cleans⟩ := Option.bind_eq_some_iff.1 cleans
  cases cleans
  rw [Cleanup.applyStrictly_eq_some applied]
  refine (separate.applyAll (spares lists found)).withSources ?_
  intro name absent
  unfold Cleanup.relabel
  split
  · rw [Dict.get?_map, absent, Option.map_none]
  · exact absent

theorem patched (separate : artifact.Separate) {settings : PatchSettings}
    {tree : FileTree} {made : Artifact}
    (patches : Patching.patched settings tree artifact = some made)
    (spares : (Operation.patch settings tree).CreatesNoResource artifact) :
    made.Separate := by
  obtain ⟨changed, lists, inserted, found, rfl⟩ :=
    Patching.patched_eq_some patches
  have changedSeparate : changed.Separate := by
    obtain ⟨entries, _, inserted⟩ := Option.bind_eq_some_iff.1 inserted
    exact separate.insertAll inserted
  exact changedSeparate.applyAll (spares changed inserted lists found)

end Separate

/-- Renamed files keep their paths. -/
theorem paths_renameFiles {renamer : Source.Renamer}
    {files : List (String × String)}
    {renamed : List (String × Source.Renamer.Renamed)}
    (renames : renamer.renameFiles files = .ok renamed) :
    renamed.map Prod.fst = files.map Prod.fst := by
  induction files generalizing renamed with
  | nil =>
      cases renames
      rfl
  | cons file rest inductionHypothesis =>
      rw [Source.Renamer.renameFiles] at renames
      cases first : renamer.renameFile file.1 file.2 with
      | error error =>
          rw [first] at renames
          cases renames
      | ok one =>
          rw [first] at renames
          cases later : renamer.renameFiles rest with
          | error error =>
              rw [later] at renames
              cases renames
          | ok others =>
              rw [later] at renames
              cases renames
              rw [List.map_cons, List.map_cons, inductionHypothesis later]

theorem Separate.renamed {artifact : Artifact} (separate : artifact.Separate)
    {files : Source.TableFiles} {mode : Source.JavadocMode} {tree : FileTree}
    {made : Artifact}
    (renames : Renaming.renamed files mode tree artifact = some made) :
    made.Separate := by
  obtain ⟨tables, _, renames⟩ := Option.bind_eq_some_iff.1 renames
  obtain ⟨⟨sources, summary⟩, all, renames⟩ :=
    Option.bind_eq_some_iff.1 renames
  cases renames
  refine separate.withSources fun name absent => ?_
  unfold Source.Renamer.renameAll at all
  cases each : (Source.Renamer.mk tables mode).renameFiles
      artifact.sources.toList with
  | error error =>
      rw [each] at all
      cases all
  | ok renamed =>
      rw [each] at all
      cases all
      have keys : (renamed.map fun file => (file.1, file.2.text)).map Prod.fst =
          artifact.sources.keys := by
        rw [List.map_map]
        exact paths_renameFiles each
      have distinct := Dict.nodup_keys artifact.sources
      rw [← keys] at distinct
      rw [Dict.get?_insertAll distinct, absent, Option.or_none,
        Bindings.get?_eq_none_iff, keys, Dict.mem_keys]
      exact not_not.2 absent

/-- An operation keeps entries separate, if its patches spare the names of
resources. -/
theorem Separate.run {artifact made : Artifact} {operation : Operation}
    (separate : artifact.Separate)
    (spares : operation.CreatesNoResource artifact)
    (ran : operation.run artifact = some made) : made.Separate := by
  cases operation with
  | insert name bytes =>
      cases inserted : artifact.insert name bytes with
      | error error =>
          rw [Operation.run, inserted] at ran
          cases ran
      | ok changed =>
          rw [Operation.run, inserted] at ran
          cases ran
          exact separate.insert inserted
  | insertSource name text =>
      cases ran
      exact separate.insertSource name text
  | insertResource name bytes =>
      cases ran
      exact separate.insertResource name bytes
  | remove name =>
      cases ran
      exact separate.remove name
  | apply options specs =>
      cases ran
      exact separate.applyAll spares
  | cleanUp settings tree => exact separate.cleaned ran spares
  | patch settings tree => exact separate.patched ran spares
  | rename files mode tree => exact separate.renamed ran

/-! ## Whole pipelines -/

theorem Separate.runAll {artifact made : Artifact}
    {operations : List Operation} (separate : artifact.Separate)
    (spares : CreateNoResources operations artifact)
    (ran : Artifact.runAll operations artifact = some made) :
    made.Separate := by
  induction operations generalizing artifact with
  | nil =>
      cases ran
      exact separate
  | cons operation rest inductionHypothesis =>
      obtain ⟨next, first, later⟩ := Option.bind_eq_some_iff.1 ran
      exact inductionHypothesis (separate.run spares.1 first)
        (spares.2 next first) later

/-- An artifact that was loaded stays separate, whatever is done with it, as
long as no patch creates a file under the name of a resource.  So it has as many
entries as names, and none of them is saved twice.  The next patches end that
just if they create such a file. -/
theorem separate_runAll {tree : FileTree} {path : Path}
    {loaded made : Artifact} {operations : List Operation}
    (loads : load tree path = .ok loaded)
    (spares : CreateNoResources operations loaded)
    (ran : runAll operations loaded = some made) :
    made.Separate ∧ made.size = made.names.toFinset.card ∧
      (made.savedEntries.map Prod.fst).Nodup ∧
      ∀ options specs,
        Separate { made with
          sources := (Patch.apply made.sources specs options).1 } ↔
        ∀ name ∈ made.resources.keys,
          ¬ Creates made.sources options specs name := by
  have separate : made.Separate := (separate_load loads).runAll spares ran
  refine ⟨separate, size_eq_card_iff.2 separate,
    nodup_savedNames_iff.2 separate, fun options specs => ?_⟩
  have free : ∀ name ∈ made.resources.keys, made.sources.get? name = none :=
    fun name member => separate name (Dict.mem_keys.1 member)
  constructor
  · intro kept name member
    exact (get?_apply_eq_none_iff (free name member)).1
      (kept name (Dict.mem_keys.1 member))
  · intro clear name resource
    have member := Dict.mem_keys.2 resource
    exact (get?_apply_eq_none_iff (free name member)).2 (clear name member)

/-- A directory with a resource, and a patch file beside it. -/
def sampleTree (patch : String) : FileTree :=
  { nodes := [(["in"], .directory),
      (["in", "notes.txt"], .file (Text.encode "hello\n") 0 0),
      (["fix.patch"], .file (Text.encode patch) 1 1)]
    clock := 2 }

/-- A patch that creates a file. -/
def creationPatch (name : String) : String :=
  "--- /dev/null\n+++ b/" ++ name ++ "\n@@ -0,0 +1 @@\n+hello\n"

def samplePatching : PatchSettings where
  bundles := [⟨"fix.patch"⟩]
  strip := 1

def sampleArtifact : Artifact where
  resources := .ofList [("notes.txt", Text.encode "hello\n")]

theorem separate_runAll_sample :
    let tree := sampleTree (creationPatch "New.java")
    let operations : List Operation :=
      [.insertSource "Foo.java" "class Foo \x7b\x7d\n",
        .patch samplePatching tree, .insertResource "Foo.java" [120],
        .cleanUp {} tree, .remove "notes.txt"]
    load tree ⟨"in"⟩ = .ok sampleArtifact ∧
      CreateNoResources operations sampleArtifact ∧
      ∃ made, runAll operations sampleArtifact = some made ∧
        made.Separate ∧ made.size = made.names.toFinset.card := by
  intro tree operations
  have loads : load tree ⟨"in"⟩ = .ok sampleArtifact := by decide +kernel
  have spares : CreateNoResources operations sampleArtifact := by decide +kernel
  have some : (runAll operations sampleArtifact).isSome = true := by
    decide
  obtain ⟨made, ran⟩ := Option.isSome_iff_exists.1 some
  obtain ⟨separate, size, _⟩ := separate_runAll loads spares ran
  exact ⟨loads, spares, made, ran, separate, size⟩

/-- A patch that creates a file under the name of a resource is carried out.
Then the name counts twice, and the artifact cannot be saved. -/
theorem created_beside_resource :
    let tree := sampleTree (creationPatch "notes.txt")
    let made : Artifact :=
      { sampleArtifact with sources := .ofList [("notes.txt", "hello\n")] }
    load tree ⟨"in"⟩ = .ok sampleArtifact ∧
      runAll [.patch samplePatching tree] sampleArtifact = some made ∧
      ¬ made.Separate ∧ made.size ≠ made.names.toFinset.card ∧
      ¬ (made.savedEntries.map Prod.fst).Nodup ∧
      (runFrom (made.save ⟨"out.jar"⟩) tree).1 =
        .error (.cannotWrite ⟨"out.jar"⟩) := by
  intro tree made
  have mixed : ¬ made.Separate := by decide
  refine ⟨by decide +kernel, by decide +kernel, mixed, ?_, ?_,
    by decide⟩
  · exact fun same => mixed (size_eq_card_iff.1 same)
  · exact fun nodup => mixed (nodup_savedNames_iff.1 nodup)

end Deobfuscate.Artifact
