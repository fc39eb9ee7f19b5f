import Deobfuscate.Proofs.Patch.Creation
import Deobfuscate.Proofs.Stage.PatchEffect
import Deobfuscate.Stage.Cleanup
import Deobfuscate.Stage.Renaming

/-!
# What stages make of an artifact

Cleaning up, patching and renaming load an artifact, make another one of it, and
save that one.  In between they work in memory: patches are applied to the
sources alone, and the resources stay as they are.
-/

namespace Deobfuscate

open Deobfuscate.Patch

def savedAfter? (make : Artifact → Option Artifact) (paths : StagePaths)
    (tree : FileTree) (artifact : Artifact) : Option FileTree :=
  (make artifact).bind fun made =>
    succeeded? (runFrom (made.save paths.output) tree)

namespace Cleanup

def applyOnce (options : Options) (set : WorkingSet) (specs : List Spec) :
    Option WorkingSet := do
  let (changed, result) ← applySpecs? set specs options
  result.toOption.map fun _ => changed

def applyStrictly (options : Options) :
    WorkingSet → List (List Spec) → Option WorkingSet
  | set, [] => some set
  | set, specs :: rest => do
      applyStrictly options (← applyOnce options set specs) rest

/-- The specifications of a group of fix-ups. -/
def groupSpecs (group : String × List PatchFile) : Option (List Spec) :=
  (specsOf group.2).toOption

/-- The specifications of each group of fix-ups. -/
def fixupLists (settings : CleanupSettings) (tree : FileTree) :
    Option (List (List Spec)) :=
  match settings.patches with
  | none => some []
  | some directory => do
      let files ← (loadBundle tree directory).toOption
      (groupByBase files).mapM groupSpecs

def relabel (settings : CleanupSettings) (sources : Dict String) :
    Dict String :=
  if settings.normalizeLabels then
    sources.map fun _ text => SwitchLabels.normalize text
  else sources

def cleanedWith (settings : CleanupSettings) (artifact : Artifact)
    (lists : List (List Spec)) : Option Artifact := do
  let sources ← applyStrictly (fixupOptions settings) artifact.sources lists
  some { artifact with sources := relabel settings sources }

def cleaned (settings : CleanupSettings) (tree : FileTree)
    (artifact : Artifact) : Option Artifact :=
  (fixupLists settings tree).bind (cleanedWith settings artifact)

theorem applyStrictly_eq_some {options : Options} {set changed : WorkingSet}
    {lists : List (List Spec)}
    (applied : applyStrictly options set lists = some changed) :
    changed = applyAll options set lists := by
  induction lists generalizing set with
  | nil => exact (Option.some.inj applied).symm
  | cons specs rest inductionHypothesis =>
      obtain ⟨next, once, later⟩ := Option.bind_eq_some_iff.1 applied
      obtain ⟨⟨set, result⟩, ended, once⟩ := Option.bind_eq_some_iff.1 once
      obtain ⟨_, _, rfl⟩ := Option.map_eq_some_iff.1 once
      rw [applyAll, applySpecs?_eq_some ended]
      exact inductionHypothesis later

theorem completed?_applyGroup (options : Options) (set : WorkingSet)
    (group : String × List PatchFile) (workspace : Workspace) :
    completed? (runFrom (applyGroup options set group.1 group.2) workspace) =
      ((groupSpecs group).bind (applyOnce options set)).map
        (·, workspace) := by
  unfold applyGroup groupSpecs
  cases specsOf group.2 with
  | error error => rfl
  | ok specs =>
      dsimp only [Except.toOption, Option.bind_some]
      unfold applyOnce
      rcases applySpecs? set specs options with
        _ | ⟨changed, rejection | reports⟩
      · rfl
      · dsimp only
        rw [completed?_bind]
        exact Option.bind_fun_none _
      · rfl

/-- Groups are applied up to the first that fails, so what is wrong with later
ones does not matter. -/
theorem completed?_applyGroups (options : Options) (set : WorkingSet)
    (groups : List (String × List PatchFile)) (workspace : Workspace) :
    completed? (runFrom (applyGroups options set groups) workspace) =
      ((groups.mapM groupSpecs).bind (applyStrictly options set)).map
        (·, workspace) := by
  induction groups generalizing set with
  | nil => rfl
  | cons group rest inductionHypothesis =>
      rw [applyGroups, completed?_bind, completed?_applyGroup, List.mapM_cons]
      cases groupSpecs group with
      | none => rfl
      | some specs =>
          rw [Option.bind_some]
          cases once : applyOnce options set specs with
          | none =>
              cases rest.mapM groupSpecs with
              | none => rfl
              | some lists => simp [applyStrictly, once]
          | some changed =>
              rw [Option.map_some, Option.bind_some]
              dsimp only
              rw [inductionHypothesis changed]
              cases rest.mapM groupSpecs with
              | none => rfl
              | some lists => simp [applyStrictly, once]

theorem completed?_applyFixups (settings : CleanupSettings)
    (set : WorkingSet) (workspace : Workspace) :
    completed? (runFrom (applyFixups settings set) workspace) =
      ((fixupLists settings workspace.tree).bind
        (applyStrictly (fixupOptions settings) set)).map (·, workspace) := by
  unfold applyFixups fixupLists
  cases settings.patches with
  | none => rfl
  | some directory =>
      dsimp only
      rw [completed?_bind, StageAction.runFrom_consult]
      cases loadBundle workspace.tree directory with
      | error error => rfl
      | ok files =>
          exact completed?_applyGroups (fixupOptions settings) set
            (groupByBase files) workspace

/-- Cleaning up saves what it makes of the artifact it loads. -/
theorem treeAfter?_run (settings : CleanupSettings) (paths : StagePaths)
    {workspace : Workspace} {artifact : Artifact}
    (loaded : runFrom paths.loadInput workspace = (.ok artifact, workspace)) :
    Patching.treeAfter? (runFrom (run settings paths) workspace) =
      savedAfter? (cleaned settings workspace.tree) paths workspace.tree
        artifact := by
  have saves := Patching.treeAfter?_saveOutput paths
  unfold Patching.treeAfter? at saves ⊢
  unfold run savedAfter? cleaned cleanedWith
  rw [succeeded?_bind, loaded]
  dsimp only
  rw [succeeded?_eq_map, completed?_bind, completed?_applyFixups]
  cases fixupLists settings workspace.tree with
  | none => rfl
  | some lists =>
      rw [Option.bind_some]
      cases applied : applyStrictly (fixupOptions settings) artifact.sources
          lists with
      | none => simp [applied]
      | some sources =>
          rw [Option.map_some, Option.bind_some, ← succeeded?_eq_map]
          simp only [Option.bind_eq_bind, Option.bind_some, applied]
          exact saves _ _

end Cleanup

namespace Patching

def textSpecs (text : String) : Option (List Spec) :=
  (Patch.parse text "").toOption

def patchLists (settings : PatchSettings) (tree : FileTree) :
    Option (List (List Spec)) := do
  (← patchTexts tree settings.bundles).mapM textSpecs

def injected (settings : PatchSettings) (tree : FileTree)
    (artifact : Artifact) : Option Artifact := do
  insertAll artifact (← injectedEntries tree settings.injections)

theorem applyTexts_eq_some {options : Options}
    {state changed : WorkingSet × List Report} {texts : List String}
    (applied : applyTexts options state texts = some changed) :
    ∃ lists, texts.mapM textSpecs = some lists ∧
      changed.1 = applyAll options state.1 lists := by
  induction texts generalizing state with
  | nil =>
      cases applied
      exact ⟨[], rfl, rfl⟩
  | cons text rest inductionHypothesis =>
      obtain ⟨next, once, later⟩ := Option.bind_eq_some_iff.1 applied
      obtain ⟨lists, parsed, whole⟩ := inductionHypothesis later
      unfold applyText at once
      split at once
      · cases once
      · rename_i specs read
        split at once
        · cases once
        · cases once
        · rename_i _ set reports made
          cases once
          refine ⟨specs :: lists, ?_, ?_⟩
          · rw [List.mapM_cons, parsed, textSpecs, read]
            rfl
          · rw [applyAll, applySpecs?_eq_some made]
            exact whole

/-- Patching applies its specifications to the sources that injection leaves,
and leaves the resources. -/
theorem patched_eq_some {settings : PatchSettings} {tree : FileTree}
    {artifact made : Artifact}
    (patches : patched settings tree artifact = some made) :
    ∃ changed lists, injected settings tree artifact = some changed ∧
      patchLists settings tree = some lists ∧
      made = { changed with
        sources := applyAll (patchOptions settings) changed.sources lists } := by
  rw [patched_eq] at patches
  obtain ⟨changed, inserted, patches⟩ := Option.bind_eq_some_iff.1 patches
  obtain ⟨⟨sources, failed⟩, applied, patches⟩ :=
    Option.bind_eq_some_iff.1 patches
  obtain ⟨texts, found, applied⟩ := Option.bind_eq_some_iff.1 applied
  obtain ⟨lists, parsed, whole⟩ := applyTexts_eq_some applied
  refine ⟨changed, lists, inserted, ?_, ?_⟩
  · rw [patchLists, found]
    exact parsed
  · split at patches
    · cases patches
    · cases patches
      rw [← whole]

end Patching

/-! ## Renaming -/

namespace Renaming

open Deobfuscate.Source

def renamedWith (mode : JavadocMode) (artifact : Artifact) (tables : Tables) :
    Option Artifact := do
  let (sources, _) ←
    ((Renamer.mk tables mode).renameAll artifact.sources).toOption
  some { artifact with sources }

def renamed (files : TableFiles) (mode : JavadocMode) (tree : FileTree)
    (artifact : Artifact) : Option Artifact :=
  (Tables.load tree files).toOption.bind (renamedWith mode artifact)

/-- Renaming saves what it makes of the artifact it loads. -/
theorem treeAfter?_run (files : TableFiles) (mode : JavadocMode)
    (paths : StagePaths) {workspace : Workspace} {artifact : Artifact}
    (loaded : runFrom paths.loadInput workspace = (.ok artifact, workspace)) :
    Patching.treeAfter? (runFrom (run files mode paths) workspace) =
      savedAfter? (renamed files mode workspace.tree) paths workspace.tree
        artifact := by
  have saves := Patching.treeAfter?_saveOutput paths
  unfold Patching.treeAfter? at saves ⊢
  unfold run savedAfter? renamed renamedWith
  rw [succeeded?_bind, loaded]
  dsimp only
  rw [succeeded?_bind, StageAction.runFrom_consult]
  cases Tables.load workspace.tree files with
  | error error => rfl
  | ok tables =>
      dsimp only [Except.mapError, Except.toOption]
      rw [Option.bind_eq_bind, Option.bind_some]
      cases (Renamer.mk tables mode).renameAll artifact.sources with
      | error error => rfl
      | ok result =>
          obtain ⟨sources, summary⟩ := result
          dsimp only
          rw [succeeded?_bind, Patching.runFrom_reports]
          dsimp only
          rw [saves]
          simp only [Option.bind_some]

end Renaming

end Deobfuscate
