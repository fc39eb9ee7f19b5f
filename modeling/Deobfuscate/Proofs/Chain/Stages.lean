import Deobfuscate.Pipeline
import Deobfuscate.Proofs.Cache.Replacing
import Deobfuscate.Proofs.Chain.Composition
import Deobfuscate.Proofs.Stage.Contents

/-!
# The stages of pipelines

Cleaning up, patching and renaming read an artifact and save another one.  They
alter nothing but the file of the new artifact and, in the scratch directory, the
log of the patches, and what they save is a function of the bytes of the artifact
and of what their inputs hold.  A tool may do anything: about tools this has to be
assumed.
-/

namespace Deobfuscate

open FileTree

section KeepsFiles

variable {ε α β : Type}

def KeepsFiles (action : StageAction α) : Prop :=
  ∀ workspace, (runFrom action workspace).2.tree = workspace.tree

theorem keepsFiles_pure (value : α) :
    KeepsFiles (pure value : StageAction α) :=
  fun _ => rfl

theorem keepsFiles_throw (error : StageError) :
    KeepsFiles (throw error : StageAction α) :=
  fun _ => rfl

theorem keepsFiles_consult (view : FileTree → Except ε α)
    (wrap : ε → StageError) : KeepsFiles (StageAction.consult view wrap) := by
  intro workspace
  rw [StageAction.runFrom_consult]

theorem keepsFiles_reports (events : List LogEvent) :
    KeepsFiles (events.forM StageAction.report) := by
  intro workspace
  rw [Patching.runFrom_reports]

theorem keepsFiles_loadInput (paths : StagePaths) :
    KeepsFiles paths.loadInput := by
  intro workspace
  rw [Patching.runFrom_loadInput]

theorem KeepsFiles.bind {action : StageAction α} {next : α → StageAction β}
    (first : KeepsFiles action) (later : ∀ value, KeepsFiles (next value)) :
    KeepsFiles (action >>= next) := by
  intro workspace
  have here := first workspace
  rw [runFrom_bind]
  rcases ran : runFrom action workspace with ⟨error | value, reached⟩
  · rwa [ran] at here
  · rw [ran] at here
    exact (later value reached).trans here

/-- What comes after an action that changes no file alters what the whole
alters. -/
theorem KeepsFiles.alters_bind {action : StageAction α}
    {next : α → StageAction β} {made region : Location → Prop}
    {workspace : Workspace} (first : KeepsFiles action)
    (later : ∀ value reached, reached.tree = workspace.tree →
      Alters made region reached.tree (runFrom (next value) reached).2.tree) :
    Alters made region workspace.tree
      (runFrom (action >>= next) workspace).2.tree := by
  have here := first workspace
  rw [runFrom_bind]
  rcases ran : runFrom action workspace with ⟨error | value, reached⟩
  · rw [ran] at here
    rw [← here]
    exact Alters.refl _ _ _
  · rw [ran] at here
    rw [← here]
    exact later value reached here

end KeepsFiles

namespace StagePaths

def Region (paths : StagePaths) (location : Location) : Prop :=
  Inside paths.output.target.dropLast location ∨
    Inside paths.scratch.target location

variable {paths : StagePaths}

theorem region_output (below : paths.output.target ≠ []) :
    paths.Region paths.output.target := by
  refine Or.inl ⟨List.dropLast_prefix _, fun same => below ?_⟩
  have lengths := congrArg List.length same
  rw [List.length_dropLast] at lengths
  exact List.length_eq_zero_iff.1 (by omega)

theorem alters_saveOutput {artifact : Artifact} {before after : Workspace}
    {result : Except StageError Unit} (below : paths.output.target ≠ [])
    (directory : before.tree.ReachesDirectory paths.output.directory)
    (ran : runFrom (paths.saveOutput artifact) before = (result, after)) :
    Alters (fun _ => False) paths.Region before.tree after.tree := by
  unfold saveOutput at ran
  rw [StageAction.runFrom_files] at ran
  have saved := artifact.alters_save paths.output before.tree
  obtain ⟨_, rfl⟩ := Prod.mk.inj ran
  dsimp only
  refine (saved.of_standing directory).mono (fun _ => id) ?_
  rintro location rfl
  exact region_output below

theorem Prepared.below {tree : FileTree} (prepared : paths.Prepared tree) :
    paths.output.target ≠ [] := by
  intro top
  have nothing := prepared.fresh
  rw [top, node?_nil] at nothing
  cases nothing

end StagePaths

namespace Patching

variable {paths : StagePaths} {workspace : Workspace}

theorem target_log (scratch : Path) :
    (scratch.child logName).target = scratch.target ++ [logName] := by
  by_cases written : scratch.text = ""
  · obtain rfl : scratch = ⟨""⟩ := by
      cases scratch
      cases written
      rfl
    decide
  · exact target_child_name written (by decide)

/-- The directories above the log are those that lead to the scratch
directory. -/
theorem reachesDirectory_log {tree : FileTree} {scratch : Path}
    (reaches : tree.ReachesDirectory scratch) :
    tree.ReachesDirectory (scratch.child logName).directory := by
  intro place member
  have either : place = [] ∨ place ∈ scratch.places := by
    by_cases written : scratch.text = ""
    · obtain rfl : scratch = ⟨""⟩ := by
        cases scratch
        cases written
        rfl
      have top : ∀ place ∈ ((⟨""⟩ : Path).child logName).directory.places,
          place = [] := by decide
      exact Or.inl (top place member)
    · exact Path.mem_places_directory_child written (by decide) member
  rcases either with rfl | inside
  · exact node?_nil tree
  · exact reaches place inside

/-- The log is written into the scratch directory, and directories stay. -/
theorem alters_writeLog (text : String) (result : Except PatchError Unit)
    (sound : workspace.tree.Sound)
    (scratch : workspace.tree.ReachesDirectory paths.scratch) :
    Alters (fun _ => False) paths.Region workspace.tree
        (runFrom (writeLog (paths.scratch.child logName) text result)
          workspace).2.tree ∧
      ∀ path, workspace.tree.ReachesDirectory path →
        (runFrom (writeLog (paths.scratch.child logName) text result)
          workspace).2.tree.ReachesDirectory path := by
  unfold writeLog
  split
  · exact ⟨Alters.refl _ _ _, fun _ => id⟩
  · rw [StageAction.runFrom_files]
    rcases wrote : runFrom (Cache.atomicWrite (paths.scratch.child logName)
      (Text.encode text)) workspace.tree with ⟨answer, tree⟩
    dsimp only
    have stay : ∀ location, workspace.tree.node? location = some .directory →
        tree.node? location = some .directory :=
      fun _ => Cache.directory_of_atomicWrite sound wrote
    refine ⟨?_, fun path reaches => reaches.mono stay⟩
    have altered : Alters (· ∈ (paths.scratch.child logName).directory.places)
        (· = (paths.scratch.child logName).target) workspace.tree tree := by
      rcases Cache.atomicWrite_cases sound wrote with
        ⟨_, extended⟩ | ⟨_, altered, _⟩
      · exact extended.of_extends
      · exact altered
    refine (altered.of_standing (reachesDirectory_log scratch)).mono
      (fun _ => id) ?_
    rintro location rfl
    rw [StagePaths.Region, target_log]
    exact Or.inr ⟨List.prefix_append _ _, by simp⟩

end Patching

namespace Cleanup

theorem keepsFiles_applyGroups (options : Patch.Options)
    (set : Patch.WorkingSet) (groups : List (String × List Patch.PatchFile)) :
    KeepsFiles (applyGroups options set groups) := by
  induction groups generalizing set with
  | nil => exact keepsFiles_pure _
  | cons group rest inductionHypothesis =>
      rw [applyGroups]
      refine KeepsFiles.bind ?_ inductionHypothesis
      unfold applyGroup
      split
      · exact keepsFiles_throw _
      · split
        · exact keepsFiles_throw _
        · exact keepsFiles_pure _
        · exact (keepsFiles_reports _).bind fun _ => keepsFiles_throw _

theorem keepsFiles_applyFixups (settings : CleanupSettings)
    (set : Patch.WorkingSet) : KeepsFiles (applyFixups settings set) := by
  unfold applyFixups
  split
  · exact keepsFiles_pure _
  · exact (keepsFiles_consult _ _).bind fun files =>
      keepsFiles_applyGroups _ _ _

theorem stage_confined (settings : CleanupSettings) :
    (stage settings).Confined := by
  intro paths before prepared
  change Alters _ paths.Region _ (runFrom (run settings paths) before).2.tree
  unfold run
  refine (keepsFiles_loadInput paths).alters_bind fun artifact loaded same => ?_
  refine (keepsFiles_applyFixups settings _).alters_bind
    fun sources applied again => ?_
  have directory := prepared.directory
  rw [← same, ← again] at directory
  dsimp only
  rcases saved : runFrom (paths.saveOutput _) applied with ⟨answer, after⟩
  exact StagePaths.alters_saveOutput prepared.below directory saved

end Cleanup

namespace Renaming

theorem stage_confined (files : Source.TableFiles) (mode : Source.JavadocMode) :
    (stage files mode).Confined := by
  intro paths before prepared
  change Alters _ paths.Region _ (runFrom (run files mode paths) before).2.tree
  unfold run
  refine (keepsFiles_loadInput paths).alters_bind fun artifact loaded same => ?_
  refine (keepsFiles_consult _ _).alters_bind fun tables consulted again => ?_
  split
  · exact Alters.refl _ _ _
  · refine (keepsFiles_reports _).alters_bind fun _ reported still => ?_
    have directory := prepared.directory
    rw [← same, ← again, ← still] at directory
    rcases saved : runFrom (paths.saveOutput _) reported with ⟨answer, after⟩
    exact StagePaths.alters_saveOutput prepared.below directory saved

end Renaming

namespace Patching

theorem stage_confined (settings : PatchSettings) :
    (stage settings).Confined := by
  intro paths before prepared
  change Alters _ paths.Region _ (runFrom (run settings paths) before).2.tree
  unfold run
  refine (keepsFiles_loadInput paths).alters_bind fun artifact loaded same => ?_
  refine (keepsFiles_consult _ _).alters_bind fun injected consulted again => ?_
  rw [runFrom_bind, runFrom_get]
  dsimp only
  generalize (applyBundles consulted.tree (patchOptions settings)
    settings.bundles).run ({ set := injected.sources }, []) = application
  obtain ⟨result, applied, events⟩ := application
  dsimp only
  refine (keepsFiles_reports _).alters_bind fun _ reported still => ?_
  have unchanged : reported.tree = before.tree :=
    still.trans (again.trans same)
  have sound := prepared.sound
  have directory := prepared.directory
  have scratch := prepared.scratch
  rw [← unchanged] at sound directory scratch
  obtain ⟨altered, stay⟩ := alters_writeLog applied.log.text result sound scratch
  rw [runFrom_bind]
  rcases wrote : runFrom (writeLog (paths.scratch.child logName)
    applied.log.text result) reported with ⟨problem | _, logged⟩
  · rw [wrote] at altered
    exact altered
  · rw [wrote] at altered stay
    refine altered.trans ?_
    cases result with
    | error error => exact Alters.refl _ _ _
    | ok _ =>
        dsimp only
        split
        · exact Alters.refl _ _ _
        · rcases saved : runFrom (paths.saveOutput _) logged with
            ⟨answer, after⟩
          exact StagePaths.alters_saveOutput prepared.below
            (stay _ directory) saved

end Patching

namespace ExternalTool

/-- A stage that runs a tool alters what the tool alters, or copies its input. -/
theorem stage_confined {tool : ToolSettings} {copies : Bool} (name : String)
    (confined : ∀ (paths : StagePaths) (before : FileTree),
      paths.Prepared before →
      Alters (fun _ => False) paths.Region before
        (runFrom (runToolChecked (command tool paths)
          { timeout := tool.timeout }) before).2) :
    (stage name tool copies).Confined := by
  intro paths before prepared
  change Alters _ paths.Region _
    (runFrom (run tool copies paths) before).2.tree
  unfold run
  split
  · unfold StagePaths.requireInput
    cases paths.input with
    | none => exact Alters.refl _ _ _
    | some input =>
        dsimp only
        rw [runFrom_bind, runFrom_pure]
        dsimp only
        rw [StageAction.runFrom_change]
        cases copied : copyFile before.tree input paths.output with
        | error problem => exact Alters.refl _ _ _
        | ok tree =>
            obtain ⟨⟨location, node⟩, _, result⟩ := bind_eq_ok.1 copied
            cases node with
            | directory => cases result
            | file content _ _ =>
                refine (alters_writeBytes _ result).mono (fun _ => id) ?_
                rintro location rfl
                exact StagePaths.region_output prepared.below
  · rw [runFrom_bind, StageAction.runFrom_files]
    have altered := confined paths before.tree prepared
    rcases ran : runFrom (runToolChecked (command tool paths)
      { timeout := tool.timeout }) before.tree with ⟨_ | _, tree⟩ <;>
    · rw [ran] at altered
      exact altered

end ExternalTool

/-! ## Functions of contents -/

namespace Chain

/-- What comes of an artifact that is loaded and made into another one with what
inputs hold. -/
def reworked (make : List InputContent → Artifact → Option Artifact)
    (failure : StageError) : Transform :=
  fun bytes contents =>
    match (bytes.bind Artifact.ofBytes).bind (make contents) with
    | some made => .ok (Archive.writeZip made.savedEntries)
    | none => .error failure

variable {paths : StagePaths} {before after : Workspace}

/-- The artifact that a stage loads is that of the bytes it is run on. -/
theorem ofBytes_of_loadInput {artifact : Artifact}
    (readable : paths.Readable before.tree)
    (loaded : runFrom paths.loadInput before = (.ok artifact, before)) :
    (inputBytes before.tree paths.input).bind Artifact.ofBytes =
      some artifact := by
  unfold StagePaths.loadInput StagePaths.requireInput at loaded
  cases given : paths.input with
  | none =>
      rw [given] at loaded
      cases loaded
  | some path =>
      obtain ⟨content, read⟩ := readable path given
      rw [given] at loaded
      dsimp only at loaded
      rw [runFrom_bind, runFrom_pure] at loaded
      dsimp only at loaded
      rw [StageAction.runFrom_consult] at loaded
      have whole := congrArg Except.toOption (Prod.mk.inj loaded).1
      rw [toOption_mapError, Artifact.toOption_load read] at whole
      rw [inputBytes, Option.bind_some, read]
      exact whole

theorem treeAfter?_eq_some {outcome : Except StageError Unit × Workspace}
    (ended : outcome = (.ok (), after)) :
    Patching.treeAfter? outcome = some after.tree := by
  rw [ended]
  rfl

/-- A stage that saves what it makes of the artifact it has loaded, when it has
logged something perhaps, performs that function. -/
theorem performs_of_saves {link : Link}
    {make : List InputContent → Artifact → Option Artifact}
    (loads : ∀ paths, ∃ next, link.stage.run paths = paths.loadInput >>= next)
    (saves : ∀ (paths : StagePaths) (before : Workspace)
      (contents : List InputContent) (artifact : Artifact),
      before.tree.Sound → linkContents before.tree link = .ok contents →
      runFrom paths.loadInput before = (.ok artifact, before) →
      ∃ logged : Option FileTree, (∀ tree, logged = some tree → tree.Sound) ∧
        Patching.treeAfter? (runFrom (link.stage.run paths) before) =
          (make contents artifact).bind fun made => logged.bind fun tree =>
            succeeded? (runFrom (made.save paths.output) tree))
    (failure : StageError) : Performs link (reworked make failure) := by
  intro paths before after contents prepared readable held ran _
  obtain ⟨next, whole⟩ := loads paths
  have parts := ran
  rw [whole] at parts
  obtain ⟨artifact, later, loaded, _⟩ := runFrom_bind_eq_ok.1 parts
  have unchanged := Patching.runFrom_loadInput paths before
  rw [loaded] at unchanged
  obtain rfl : later = before := unchanged
  obtain ⟨logged, stays, ended⟩ :=
    saves paths later contents artifact prepared.sound held loaded
  rw [treeAfter?_eq_some ran] at ended
  obtain ⟨made, makes, rest⟩ := Option.bind_eq_some_iff.1 ended.symm
  obtain ⟨tree, there, saved⟩ := Option.bind_eq_some_iff.1 rest
  rcases saving : runFrom (made.save paths.output) tree with
    ⟨error | _, reached⟩
  · rw [saving] at saved
    cases saved
  · rw [saving] at saved
    cases saved
    obtain ⟨_, _, modified, identity, found⟩ :=
      Artifact.save_eq_ok (stays tree there) saving
    refine ⟨Archive.writeZip made.savedEntries, ?_,
      contentAt_eq_some.2 ⟨modified, identity, (node?_target found).2⟩⟩
    rw [reworked, ofBytes_of_loadInput readable loaded, Option.bind_some,
      makes]

end Chain

open Chain

theorem Cleanup.stage_performs {link : Link} {settings : CleanupSettings}
    (runs : link.stage = stage settings) (failure : StageError) :
    Performs link (reworked (cleanedFrom settings) failure) := by
  refine performs_of_saves (fun paths => ?_) ?_ failure
  · rw [runs]
    exact ⟨_, rfl⟩
  · intro paths before contents artifact sound held loaded
    rw [linkContents, runs] at held
    have whole := treeAfter?_run settings paths loaded
    rw [cleaned_of_holds held] at whole
    rw [runs]
    exact ⟨some before.tree, fun _ same => Option.some.inj same ▸ sound, whole⟩

theorem Renaming.stage_performs {link : Link} {files : Source.TableFiles}
    {mode : Source.JavadocMode} (runs : link.stage = stage files mode)
    (failure : StageError) :
    Performs link (reworked (renamedFrom files mode) failure) := by
  refine performs_of_saves (fun paths => ?_) ?_ failure
  · rw [runs]
    exact ⟨_, rfl⟩
  · intro paths before contents artifact sound held loaded
    rw [linkContents, runs] at held
    have whole := treeAfter?_run files mode paths loaded
    rw [renamed_of_holds held] at whole
    rw [runs]
    exact ⟨some before.tree, fun _ same => Option.some.inj same ▸ sound, whole⟩

theorem Patching.stage_performs {link : Link} {settings : PatchSettings}
    (runs : link.stage = stage settings) (failure : StageError) :
    Performs link (reworked (patchedFrom settings) failure) := by
  refine performs_of_saves (fun paths => ?_) ?_ failure
  · rw [runs]
    exact ⟨_, rfl⟩
  · intro paths before contents artifact sound held loaded
    rw [linkContents, runs] at held
    obtain ⟨log, whole⟩ := treeAfter?_run settings paths loaded
    rw [patched_of_holds held] at whole
    rw [runs]
    refine ⟨_, fun tree wrote => ?_, whole⟩
    rcases writing : runFrom (Cache.atomicWrite (paths.scratch.child logName)
      log) before.tree with ⟨error | _, reached⟩
    · rw [writing] at wrote
      cases wrote
    · rw [writing] at wrote
      cases wrote
      exact sound_atomicWrite sound writing

/-- Which inputs a patching stage has does not depend on what is written
elsewhere, if they can be read. -/
theorem Patching.inputs_eq {roots : List Location} {first second : FileTree}
    {settings : PatchSettings} {contents : List InputContent}
    (agrees : Agrees roots first second)
    (avoids : ∀ input ∈ inputs settings first, ∀ root ∈ roots,
      input.Avoids root)
    (holds : (inputs settings first).mapM (HashInput.content first) =
      .ok contents) :
    inputs settings second = inputs settings first := by
  have each : ∀ bundle ∈ settings.bundles,
      bundleInput second bundle = bundleInput first bundle := by
    intro bundle member
    have listed : bundleInput first bundle ∈ inputs settings first :=
      List.mem_append_left _ (List.mem_append_left _
        (List.mem_map_of_mem member))
    have away := avoids _ listed
    obtain ⟨held, _, here⟩ := exists_related (mapM_eq_ok.1 holds) listed
    unfold bundleInput at away here ⊢
    split at here
    · rename_i directory
      obtain ⟨location, leads⟩ := isDirectory_iff.1 directory
      rw [if_pos directory] at away
      rw [if_pos directory, if_pos]
      exact isDirectory_iff.2 ⟨location, agrees.find
        (fun root inside => (away root inside).1) leads⟩
    · rename_i file
      obtain ⟨bytes, read, _⟩ := HashInput.content_file_eq_ok.1 here
      rw [if_neg file] at away
      obtain ⟨⟨location, node⟩, found, result⟩ := bind_eq_ok.1 read
      rw [if_neg file, if_neg]
      intro directory
      obtain ⟨other, leads⟩ := isDirectory_iff.1 directory
      rw [agrees.find away found] at leads
      cases leads
      cases result
  unfold inputs
  rw [List.map_congr_left each]

namespace Pipeline

variable {settings : Settings} {chain : Chain} {link : Link}

/-- A link of a pipeline runs a tool or works in memory. -/
theorem stage_cases (built : chainOf settings = .ok chain)
    (member : link ∈ chain.links) :
    link.stage ∈ toolStages settings ∨
      link.stage = Cleanup.stage settings.cleanup ∨
      link.stage = Patching.stage settings.patch ∨
      ∃ files mode, link.stage = Renaming.stage files mode := by
  obtain ⟨all, listed, whole⟩ := bind_eq_ok.1 built
  obtain ⟨renames, loads, together⟩ := bind_eq_ok.1 listed
  cases whole
  cases together
  obtain ⟨stage, inStages, rfl⟩ := List.mem_map.1 member
  change stage ∈ toolStages settings ∨ stage = _ ∨ stage = _ ∨
    ∃ files mode, stage = _
  simp only [List.mem_append, List.mem_singleton] at inStages
  rcases inStages with ((tool | rfl) | patches) | inRenames
  · exact Or.inl tool
  · exact Or.inr (Or.inl rfl)
  · unfold patchStages at patches
    split at patches
    · cases patches
    · exact Or.inr (Or.inr (Or.inl (List.mem_singleton.1 patches)))
  · unfold renameStages at loads
    split at loads
    · cases loads
      cases inRenames
    · obtain ⟨files, _, whole⟩ := bind_eq_ok.1 loads
      cases whole
      exact Or.inr (Or.inr (Or.inr ⟨_, _, List.mem_singleton.1 inRenames⟩))

/-- All stages of a pipeline are confined if its tools are. -/
theorem stages_confined (built : chainOf settings = .ok chain)
    (tools : ∀ stage ∈ toolStages settings, stage.Confined)
    (member : link ∈ chain.links) : link.stage.Confined := by
  rcases stage_cases built member with tool | same | same | ⟨_, _, same⟩
  · exact tools _ tool
  · rw [same]
    exact Cleanup.stage_confined _
  · rw [same]
    exact Patching.stage_confined _
  · rw [same]
    exact Renaming.stage_confined _ _

/-- All stages of a pipeline are functions of contents if its tools are. -/
theorem stages_perform (built : chainOf settings = .ok chain)
    (tools : ∀ link : Link, link.stage ∈ toolStages settings →
      ∃ transform, Performs link transform)
    (member : link ∈ chain.links) : ∃ transform, Performs link transform := by
  have failure := StageError.missingOutput link.stage.name link.output
  rcases stage_cases built member with tool | same | same | ⟨_, _, same⟩
  · exact tools link tool
  · exact ⟨_, Cleanup.stage_performs same failure⟩
  · exact ⟨_, Patching.stage_performs same failure⟩
  · exact ⟨_, Renaming.stage_performs same failure⟩

end Pipeline

end Deobfuscate
