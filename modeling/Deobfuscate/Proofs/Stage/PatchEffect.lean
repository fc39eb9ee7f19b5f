import Deobfuscate.Proofs.Archive.Saving
import Deobfuscate.Proofs.FileTree.Shape
import Deobfuscate.Stage.Patching

/-!
# What patching does

Patching puts entries into an artifact and then applies patch texts, each list
in order.  Which directories and bundles they come from, and what the files are
called, matters for the log and for errors only.
-/

namespace Deobfuscate.Patching

open Deobfuscate.Patch

def directoryEntries (tree : FileTree) (directory : Path) :
    Option (List (String × Bytes)) :=
  match tree.find directory with
  | .error _ => none
  | .ok (location, _) =>
      some ((tree.sortedFilesBelow location).map fun file =>
        (FileTree.relativeText file.1, file.2))

def gather {α β : Type} (give : β → Option (List α)) :
    List β → Option (List α)
  | [] => some []
  | source :: rest => do
      return (← give source) ++ (← gather give rest)

def injectedEntries (tree : FileTree) :
    List Path → Option (List (String × Bytes)) :=
  gather (directoryEntries tree)

def insertAll : Artifact → List (String × Bytes) → Option Artifact
  | artifact, [] => some artifact
  | artifact, (name, content) :: rest => do
      insertAll (← (artifact.insert name content).toOption) rest

def bundleTexts (tree : FileTree) (bundle : Path) : Option (List String) :=
  (loadBundle tree bundle).toOption.map (List.map PatchFile.text)

def patchTexts (tree : FileTree) : List Path → Option (List String) :=
  gather (bundleTexts tree)

def applyText (options : Options) (state : WorkingSet × List Report)
    (text : String) : Option (WorkingSet × List Report) :=
  match Patch.parse text "" with
  | .error _ => none
  | .ok specs =>
      match Patch.applySpecs? state.1 specs options with
      | none => none
      | some (_, .error _) => none
      | some (changed, .ok reports) =>
          some (changed, state.2 ++ reports.filter (·.status = .failure))

def applyTexts (options : Options) :
    WorkingSet × List Report → List String →
      Option (WorkingSet × List Report)
  | state, [] => some state
  | state, text :: rest => do
      applyTexts options (← applyText options state text) rest

def patchedWith (settings : PatchSettings) (artifact : Artifact)
    (entries : List (String × Bytes)) (texts : List String) :
    Option Artifact := do
  let artifact ← insertAll artifact entries
  let (sources, failed) ←
    applyTexts (patchOptions settings) (artifact.sources, []) texts
  if !failed.isEmpty && !settings.allowFailure then none
  else some { artifact with sources }

def patched (settings : PatchSettings) (tree : FileTree)
    (artifact : Artifact) : Option Artifact := do
  let entries ← injectedEntries tree settings.injections
  let texts ← patchTexts tree settings.bundles
  patchedWith settings artifact entries texts

theorem gather_congr {α β γ : Type} {give : β → Option (List α)}
    {other : γ → Option (List α)} {left : List β} {right : List γ}
    (same : List.Forall₂ (fun first second => give first = other second)
      left right) : gather give left = gather other right := by
  induction same with
  | nil => rfl
  | cons first _ inductionHypothesis =>
      rw [gather, gather, first, inductionHypothesis]

theorem insertAll_append (artifact : Artifact)
    (first second : List (String × Bytes)) :
    insertAll artifact (first ++ second) =
      (insertAll artifact first).bind (insertAll · second) := by
  induction first generalizing artifact with
  | nil => rfl
  | cons entry rest inductionHypothesis =>
      rw [List.cons_append, insertAll, insertAll]
      cases (artifact.insert entry.1 entry.2).toOption with
      | none => rfl
      | some changed => exact inductionHypothesis changed

theorem applyTexts_append (options : Options)
    (state : WorkingSet × List Report) (first second : List String) :
    applyTexts options state (first ++ second) =
      (applyTexts options state first).bind
        (applyTexts options · second) := by
  induction first generalizing state with
  | nil => rfl
  | cons text rest inductionHypothesis =>
      rw [List.cons_append, applyTexts, applyTexts]
      cases applyText options state text with
      | none => rfl
      | some changed => exact inductionHypothesis changed

theorem injectFiles_eq (directory : Path) (artifact : Artifact)
    (files : List (Location × Bytes)) :
    (injectFiles directory artifact files).toOption =
      insertAll artifact (files.map fun file =>
        (FileTree.relativeText file.1, file.2)) := by
  induction files generalizing artifact with
  | nil => rfl
  | cons file rest inductionHypothesis =>
      rw [injectFiles, List.map_cons, insertAll]
      cases artifact.insert (FileTree.relativeText file.1) file.2 with
      | error error => rfl
      | ok changed => exact inductionHypothesis changed

theorem inject_eq (tree : FileTree) (artifact : Artifact)
    (directories : List Path) :
    (inject tree artifact directories).toOption =
      (injectedEntries tree directories).bind (insertAll artifact) := by
  induction directories generalizing artifact with
  | nil => rfl
  | cons directory rest inductionHypothesis =>
      unfold injectedEntries at inductionHypothesis ⊢
      rw [inject, gather, directoryEntries]
      rcases tree.find directory with problem | ⟨location, node⟩
      · rfl
      · have inserted := injectFiles_eq directory artifact
          (tree.sortedFilesBelow location)
        dsimp only
        generalize (tree.sortedFilesBelow location).map (fun file =>
          (FileTree.relativeText file.1, file.2)) = entries at inserted ⊢
        rcases injected : injectFiles directory artifact
          (tree.sortedFilesBelow location) with error | changed
        · rw [injected] at inserted
          cases gather (directoryEntries tree) rest with
          | none => rfl
          | some later =>
              change none = insertAll artifact (entries ++ later)
              rw [insertAll_append, ← inserted]
              rfl
        · rw [injected] at inserted
          have others := inductionHypothesis changed
          change (inject tree changed rest).toOption = _
          rw [others]
          cases gather (directoryEntries tree) rest with
          | none => rfl
          | some later =>
              change insertAll changed later =
                insertAll artifact (entries ++ later)
              rw [insertAll_append, ← inserted]
              rfl

/-- The texts and failed targets that applying has come to, if it has not
failed. -/
def applied? (outcome : Except PatchError Unit × Applied × List LogEvent) :
    Option (WorkingSet × List Report) :=
  match outcome with
  | (.ok _, applied, _) => some (applied.set, applied.failed)
  | (.error _, _) => none

theorem parse_toOption (text name : String) :
    (Patch.parse text name).toOption = (Patch.parse text "").toOption := by
  unfold Patch.parse
  cases readDiffLines .outside 1 (Text.lineContents text.toList) <;> rfl

theorem applyFiles_eq (options : Options) (bundle : Path)
    (files : List PatchFile) (state : Applied × List LogEvent) :
    applied? (runFrom (applyFiles options bundle files) state) =
      applyTexts options (state.1.set, state.1.failed)
        (files.map PatchFile.text) := by
  induction files generalizing state with
  | nil => rfl
  | cons file rest inductionHypothesis =>
      rw [applyFiles, List.map_cons, applyTexts, applyText, runFrom_bind,
        runFrom_modify]
      dsimp only
      have parsed := parse_toOption file.text file.name
      generalize Patch.parse file.text file.name = named at parsed ⊢
      generalize Patch.parse file.text "" = unnamed at parsed ⊢
      rcases named with error | specs
      · rcases unnamed with _ | _
        · rfl
        · cases parsed
      · rcases unnamed with _ | others
        · cases parsed
        · cases parsed
          dsimp only
          rw [runFrom_bind, runFrom_get]
          dsimp only [Applied.announce]
          rcases Patch.applySpecs? state.1.set specs options with
            _ | ⟨changed, rejection | reports⟩
          · rfl
          · rfl
          · dsimp only
            rw [runFrom_bind]
            exact inductionHypothesis _

theorem applyBundles_eq (tree : FileTree) (options : Options)
    (bundles : List Path) (state : Applied × List LogEvent) :
    applied? (runFrom (applyBundles tree options bundles) state) =
      (patchTexts tree bundles).bind
        (applyTexts options (state.1.set, state.1.failed)) := by
  induction bundles generalizing state with
  | nil => rfl
  | cons bundle rest inductionHypothesis =>
      unfold patchTexts at inductionHypothesis ⊢
      rw [applyBundles, gather, bundleTexts]
      rcases loadBundle tree bundle with error | files
      · rfl
      · dsimp only
        rw [runFrom_bind]
        have applied := applyFiles_eq options bundle files state
        generalize runFrom (applyFiles options bundle files) state = ran
          at applied ⊢
        rcases ran with ⟨error | _, later⟩
        · cases gather (bundleTexts tree) rest with
          | none => rfl
          | some texts =>
              change none = applyTexts options _ (files.map PatchFile.text ++ texts)
              rw [applyTexts_append, ← applied]
              rfl
        · dsimp only
          rw [inductionHypothesis later]
          cases gather (bundleTexts tree) rest with
          | none => rfl
          | some texts =>
              change applyTexts options _ texts =
                applyTexts options _ (files.map PatchFile.text ++ texts)
              rw [applyTexts_append, ← applied]
              rfl

/-! ## Runs -/

theorem runFrom_reports (events : List LogEvent) (workspace : Workspace) :
    runFrom (events.forM StageAction.report) workspace =
      (.ok ⟨⟩, { workspace with log := workspace.log ++ events }) := by
  induction events generalizing workspace with
  | nil => simp [runFrom_pure]
  | cons event rest inductionHypothesis =>
      change runFrom (StageAction.report event >>= fun _ =>
        rest.forM StageAction.report) workspace = _
      rw [runFrom_bind]
      change runFrom (rest.forM StageAction.report) _ = _
      rw [inductionHypothesis]
      simp

def treeAfter? (outcome : Except StageError Unit × Workspace) :
    Option FileTree :=
  (succeeded? outcome).map Workspace.tree

theorem treeAfter?_saveOutput (paths : StagePaths) (artifact : Artifact)
    (workspace : Workspace) :
    treeAfter? (runFrom (paths.saveOutput artifact) workspace) =
      succeeded? (runFrom (artifact.save paths.output) workspace.tree) := by
  unfold StagePaths.saveOutput
  rw [StageAction.runFrom_files]
  rcases runFrom (artifact.save paths.output) workspace.tree with ⟨_ | _, _⟩ <;>
    rfl

/-- Patching as a whole: first injection, then application. -/
theorem patched_eq (settings : PatchSettings) (tree : FileTree)
    (artifact : Artifact) :
    patched settings tree artifact =
      ((injectedEntries tree settings.injections).bind
        (insertAll artifact)).bind fun changed =>
          ((patchTexts tree settings.bundles).bind
            (applyTexts (patchOptions settings) (changed.sources, []))).bind
              fun applied =>
                if !applied.2.isEmpty && !settings.allowFailure then none
                else some { changed with sources := applied.1 } := by
  unfold patched patchedWith
  cases injectedEntries tree settings.injections with
  | none => rfl
  | some entries =>
      cases patchTexts tree settings.bundles with
      | none =>
          cases inserted : insertAll artifact entries with
          | none => simp [inserted]
          | some changed => simp [inserted]
      | some texts => rfl

def recorded? (paths : StagePaths) (log : Bytes) (tree : FileTree)
    (result : Artifact) : Option FileTree :=
  (succeeded?
    (runFrom (Cache.atomicWrite (paths.scratch.child logName) log) tree)).bind
      fun logged => succeeded? (runFrom (result.save paths.output) logged)

theorem treeAfter?_run (settings : PatchSettings) (paths : StagePaths)
    {workspace : Workspace} {artifact : Artifact}
    (loaded : runFrom paths.loadInput workspace = (.ok artifact, workspace)) :
    ∃ log, treeAfter? (runFrom (run settings paths) workspace) =
      (patched settings workspace.tree artifact).bind
        (recorded? paths log workspace.tree) := by
  have injected := inject_eq workspace.tree artifact settings.injections
  rw [patched_eq]
  unfold run
  rw [treeAfter?, succeeded?_bind, loaded]
  dsimp only
  rw [succeeded?_bind, StageAction.runFrom_consult]
  generalize inject workspace.tree artifact settings.injections = injection
    at injected ⊢
  rw [← injected]
  cases injection with
  | error error => exact ⟨[], rfl⟩
  | ok changed =>
      dsimp only [Except.mapError]
      rw [succeeded?_bind, runFrom_get]
      dsimp only
      have applied := applyBundles_eq workspace.tree (patchOptions settings)
        settings.bundles ({ set := changed.sources }, [])
      unfold runFrom at applied
      generalize (applyBundles workspace.tree (patchOptions settings)
        settings.bundles).run ({ set := changed.sources }, []) = application
        at applied ⊢
      obtain ⟨result, applications, events⟩ := application
      dsimp only at applied ⊢
      rw [succeeded?_bind, runFrom_reports]
      dsimp only
      refine ⟨Text.encode applications.log.text, ?_⟩
      dsimp only [Except.toOption, Option.bind_some]
      rw [← applied, succeeded?_bind]
      cases result with
      | error error =>
          -- A run that fails saves nothing, whether or not its log is written.
          rcases runFrom (writeLog (paths.scratch.child logName)
            applications.log.text (.error error))
            { tree := workspace.tree, log := workspace.log ++ events } with
            ⟨_ | _, _⟩ <;> rfl
      | ok _ =>
          unfold writeLog recorded?
          rw [StageAction.runFrom_files]
          dsimp only
          generalize runFrom (Cache.atomicWrite (paths.scratch.child logName)
            (Text.encode applications.log.text)) workspace.tree = written
          obtain ⟨error | _, logged⟩ := written
          · change none = Option.bind _ fun _ => none
            rw [Option.bind_fun_none]
          · dsimp only [Except.mapError, applied?, Option.bind_some]
            split
            · rw [succeeded?_bind, runFrom_throw, Option.bind_none]
              rfl
            · rw [Option.bind_some, succeeded?_ok, Option.bind_some]
              exact treeAfter?_saveOutput paths _ _

theorem sound_atomicWrite {before after : FileTree} {path : Path}
    {content : Bytes} {result : Except CacheError Unit} (sound : before.Sound)
    (ran : runFrom (Cache.atomicWrite path content) before = (result, after)) :
    after.Sound := by
  rcases Cache.atomicWrite_cases sound ran with
    ⟨_, extended⟩ | ⟨_, altered, _⟩
  · exact (extended sound).1
  · exact (altered sound).1

def outputAfter? (paths : StagePaths)
    (outcome : Except StageError Unit × Workspace) :
    Option (Except Problem Bytes) :=
  (treeAfter? outcome).map (·.readBytes paths.output)

theorem readBytes_recorded {paths : StagePaths} {tree : FileTree}
    (sound : tree.Sound) (first second : Bytes) (result : Artifact) :
    (recorded? paths first tree result).map (·.readBytes paths.output) =
      (recorded? paths second tree result).map (·.readBytes paths.output) := by
  have logs := Cache.sameSteps_atomicWrite (paths.scratch.child logName)
    first second tree tree rfl
  unfold recorded?
  rcases leftLogged : runFrom
    (Cache.atomicWrite (paths.scratch.child logName) first) tree with
    ⟨outcome, leftTree⟩
  rcases rightLogged : runFrom
    (Cache.atomicWrite (paths.scratch.child logName) second) tree with
    ⟨_, rightTree⟩
  rw [leftLogged, rightLogged] at logs
  obtain ⟨rfl, shape⟩ := logs
  cases outcome with
  | error error => rfl
  | ok _ =>
      have leftSound := sound_atomicWrite sound leftLogged
      have rightSound := sound_atomicWrite sound rightLogged
      have saves := Artifact.sameSteps_save paths.output result
        leftTree rightTree shape
      rw [succeeded?_ok, succeeded?_ok, Option.bind_some, Option.bind_some]
      rcases leftSaved : runFrom (result.save paths.output) leftTree with
        ⟨ending, leftAfter⟩
      rcases rightSaved : runFrom (result.save paths.output) rightTree with
        ⟨_, rightAfter⟩
      rw [leftSaved, rightSaved] at saves
      obtain ⟨rfl, shapeAfter⟩ := saves
      cases ending with
      | error error => rfl
      | ok _ =>
          refine congrArg some (FileTree.readBytes_eq_of_shape shapeAfter ?_)
          intro leftContent rightContent leftRead rightRead
          rw [Artifact.readBytes_saved leftSound leftSaved leftRead,
            Artifact.readBytes_saved rightSound rightSaved rightRead]

theorem runFrom_loadInput (paths : StagePaths) (workspace : Workspace) :
    (runFrom paths.loadInput workspace).2 = workspace := by
  unfold StagePaths.loadInput StagePaths.requireInput
  rw [runFrom_bind]
  cases paths.input with
  | none => rfl
  | some path =>
      dsimp only
      rw [runFrom_pure]
      dsimp only
      rw [StageAction.runFrom_consult]

/-- Settings that make the same of every artifact lead to the same output of
the stage, or to no output. -/
theorem outputAfter?_run_congr {left right : PatchSettings} {tree : FileTree}
    {log : List LogEvent} (sound : tree.Sound)
    (same : ∀ artifact, patched left tree artifact =
      patched right tree artifact) (paths : StagePaths) :
    outputAfter? paths (runFrom (run left paths) ⟨tree, log⟩) =
      outputAfter? paths (runFrom (run right paths) ⟨tree, log⟩) := by
  have unchanged := runFrom_loadInput paths ⟨tree, log⟩
  rcases loaded : runFrom paths.loadInput ⟨tree, log⟩ with
    ⟨error | artifact, later⟩
  · have fails : ∀ settings, treeAfter? (runFrom (run settings paths)
        ⟨tree, log⟩) = none := by
      intro settings
      unfold run
      rw [treeAfter?, succeeded?_bind, loaded, Option.map_none]
    rw [outputAfter?, outputAfter?, fails, fails]
  · rw [loaded] at unchanged
    change later = ⟨tree, log⟩ at unchanged
    rw [unchanged] at loaded
    obtain ⟨leftLog, leftAfter⟩ := treeAfter?_run left paths loaded
    obtain ⟨rightLog, rightAfter⟩ := treeAfter?_run right paths loaded
    rw [outputAfter?, outputAfter?, leftAfter, rightAfter, same]
    cases patched right tree artifact with
    | none => rw [Option.bind_none, Option.bind_none]
    | some result => exact readBytes_recorded sound leftLog rightLog result

end Deobfuscate.Patching
