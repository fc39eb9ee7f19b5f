import Deobfuscate.Proofs.Archive.Listing
import Deobfuscate.Proofs.Digest.Content
import Deobfuscate.Proofs.Stage.Transformation

/-!
# What stages make of contents

Stages read an artifact, bundles, directories and tables from files.  What they
make of them depends on the bytes of these files alone: not on where the files
are, and not on anything else in the tree.
-/

namespace Deobfuscate

section Results

variable {ε δ α β : Type}

theorem toOption_bind (result : Except ε α) (next : α → Except ε β) :
    (result >>= next).toOption =
      result.toOption.bind fun value => (next value).toOption := by
  cases result <;> rfl

theorem toOption_mapError (wrap : ε → δ) (result : Except ε α) :
    (result.mapError wrap).toOption = result.toOption := by
  cases result <;> rfl

theorem FileTree.toOption_readText {tree : FileTree} {path : Path}
    {content : Bytes} (read : tree.readBytes path = .ok content) :
    (tree.readText path).toOption = Text.decode content := by
  rw [readText, read]
  dsimp only [bind, Except.bind]
  cases Text.decode content <;> rfl

end Results

namespace Archive

def entriesOf (content : Bytes) : Option (Dict Bytes) :=
  (readZip content).bind fun zipped =>
    (collectEntries ⟨""⟩ 0 zipped .empty).toOption

/-- An archive is named in errors only. -/
theorem toOption_collectEntries (left right : Path) (index : Nat)
    (zipped : List ZipEntry) (base : Dict Bytes) :
    (collectEntries left index zipped base).toOption =
      (collectEntries right index zipped base).toOption := by
  have data : ∀ entry, (readEntryData left entry).toOption =
      (readEntryData right entry).toOption := by
    intro entry
    unfold readEntryData
    split <;> rfl
  induction zipped generalizing index base with
  | nil => rfl
  | cons entry rest inductionHypothesis =>
      rw [collectEntries, collectEntries]
      split
      · rfl
      · split
        · exact inductionHypothesis _ _
        · rw [toOption_bind, toOption_bind, data]
          simp only [inductionHypothesis]

/-- The entries of a file are those of its content. -/
theorem toOption_entries {tree : FileTree} {archive : Path} {content : Bytes}
    (read : tree.readBytes archive = .ok content) :
    (entries tree archive).toOption = entriesOf content := by
  obtain ⟨⟨location, node⟩, found, result⟩ := bind_eq_ok.1 read
  cases node with
  | directory => cases result
  | file bytes modified identity =>
      cases result
      unfold entries openZip entriesOf
      rw [found]
      dsimp only
      rw [toOption_bind]
      cases readZip content with
      | none => rfl
      | some zipped => exact toOption_collectEntries _ _ _ _ _

end Archive

namespace Artifact

/-- The artifact in a zip file, if it can be loaded. -/
def ofBytes (content : Bytes) : Option Artifact :=
  (Archive.entriesOf content).bind fun entries =>
    (insertEntries ⟨""⟩ {} entries.toList).toOption

theorem toOption_insertEntries (left right : Path) (artifact : Artifact)
    (entries : List (String × Bytes)) :
    (insertEntries left artifact entries).toOption =
      (insertEntries right artifact entries).toOption := by
  induction entries generalizing artifact with
  | nil => rfl
  | cons entry rest inductionHypothesis =>
      rw [insertEntries, insertEntries]
      split
      · exact inductionHypothesis artifact
      · cases artifact.insert entry.1 entry.2 with
        | error error => rfl
        | ok changed => exact inductionHypothesis changed

theorem toOption_load {tree : FileTree} {path : Path} {content : Bytes}
    (read : tree.readBytes path = .ok content) :
    (load tree path).toOption = ofBytes content := by
  unfold load ofBytes
  rw [toOption_bind, Archive.toOption_entries read]
  simp only [toOption_insertEntries path ⟨""⟩]

end Artifact

namespace Patch

def inNameOrder (files : List PatchFile) : List PatchFile :=
  files.mergeSort fun left right => left.name ≤ right.name

def filesOf (bundle : Path) : InputContent → Option (List PatchFile)
  | .directory files =>
      (directoryFiles bundle files).toOption.map inNameOrder
  | .file content =>
      if isArchivePath bundle then
        ((Archive.entriesOf content).bind fun entries =>
          (archiveFiles bundle entries.toList).toOption).map inNameOrder
      else (Text.decode content).map fun text => [⟨bundle.text, bundle, text⟩]
  | _ => none

theorem toOption_loadBundle_directory {tree : FileTree} {bundle : Path}
    {location : Location}
    (leads : tree.find bundle = .ok (location, .directory)) :
    (loadBundle tree bundle).toOption =
      filesOf bundle (.directory (tree.sortedFilesBelow location)) := by
  unfold loadBundle filesOf
  rw [leads]
  dsimp only
  cases directoryFiles bundle (tree.sortedFilesBelow location) <;> rfl

theorem toOption_loadBundle_file {tree : FileTree} {bundle : Path}
    {content : Bytes} (read : tree.readBytes bundle = .ok content) :
    (loadBundle tree bundle).toOption = filesOf bundle (.file content) := by
  have entries := Archive.toOption_entries read
  have file : ∀ location, tree.find bundle ≠ .ok (location, .directory) := by
    intro location leads
    rw [FileTree.readBytes, leads] at read
    cases read
  unfold loadBundle filesOf
  split
  · rename_i leads
    exact absurd leads (file _)
  · split
    · rw [toOption_bind, toOption_mapError, entries]
      dsimp only
      cases Archive.entriesOf content with
      | none => rfl
      | some listed =>
          dsimp only [Option.bind_some]
          cases archiveFiles bundle listed.toList <;> rfl
    · rw [toOption_bind, toOption_mapError, FileTree.toOption_readText read]
      dsimp only
      cases Text.decode content <;> rfl

/-- The files of a bundle are those that it holds. -/
theorem toOption_loadBundle {tree : FileTree} {bundle : Path}
    {held : InputContent}
    (holds : (Patching.bundleInput tree bundle).content tree = .ok held) :
    (loadBundle tree bundle).toOption = filesOf bundle held := by
  unfold Patching.bundleInput at holds
  split at holds
  · obtain ⟨_, leads, rfl⟩ := HashInput.content_directory_eq_ok.1 holds
    exact toOption_loadBundle_directory leads
  · obtain ⟨_, read, rfl⟩ := HashInput.content_file_eq_ok.1 holds
    exact toOption_loadBundle_file read

end Patch

namespace Cleanup

open Deobfuscate.Patch

/-- The specifications of each group of fix-ups that the inputs hold. -/
def listsOf (settings : CleanupSettings) (contents : List InputContent) :
    Option (List (List Spec)) :=
  match settings.patches, contents with
  | some directory, fixups :: _ =>
      (filesOf directory fixups).bind fun files =>
        (groupByBase files).mapM groupSpecs
  | some _, [] => none
  | none, _ => some []

theorem fixupLists_eq {settings : CleanupSettings} {tree : FileTree}
    {contents : List InputContent}
    (holds : (inputs settings).mapM (HashInput.content tree) = .ok contents) :
    fixupLists settings tree = listsOf settings contents := by
  unfold fixupLists listsOf
  cases given : settings.patches with
  | none => rfl
  | some directory =>
      rw [inputs, given] at holds
      cases mapM_eq_ok.1 holds with
      | cons here _ =>
          rename_i fixups _ _
          have loaded : (loadBundle tree directory).toOption =
              filesOf directory fixups := by
            obtain ⟨_, leads, rfl⟩ := HashInput.content_directory_eq_ok.1 here
            exact toOption_loadBundle_directory leads
          dsimp only
          rw [← loaded]
          rfl

def cleanedFrom (settings : CleanupSettings) (contents : List InputContent)
    (artifact : Artifact) : Option Artifact :=
  (listsOf settings contents).bind (cleanedWith settings artifact)

theorem cleaned_of_holds {settings : CleanupSettings} {tree : FileTree}
    {contents : List InputContent}
    (holds : (inputs settings).mapM (HashInput.content tree) = .ok contents) :
    cleaned settings tree = cleanedFrom settings contents := by
  funext artifact
  rw [cleaned, fixupLists_eq holds, cleanedFrom]

end Cleanup

/-! ## Patching -/

namespace Patching

open Deobfuscate.Patch

def entriesOf : InputContent → Option (List (String × Bytes))
  | .directory files =>
      some (files.map fun file => (FileTree.relativeText file.1, file.2))
  | _ => none

theorem directoryEntries_of_holds {tree : FileTree} {directory : Path}
    {held : InputContent}
    (holds : (HashInput.directory directory).content tree = .ok held) :
    directoryEntries tree directory = entriesOf held := by
  obtain ⟨_, leads, rfl⟩ := HashInput.content_directory_eq_ok.1 holds
  rw [directoryEntries, leads, entriesOf]

def textsOf (bundle : Path × InputContent) : Option (List String) :=
  (filesOf bundle.1 bundle.2).map (List.map PatchFile.text)

def patchedFrom (settings : PatchSettings) (contents : List InputContent)
    (artifact : Artifact) : Option Artifact := do
  let others := contents.drop settings.bundles.length
  let entries ← gather entriesOf (others.take settings.injections.length)
  let texts ← gather textsOf (settings.bundles.zip contents)
  patchedWith settings artifact entries texts

theorem forall₂_zip {α β γ : Type} {related : α → β → Prop}
    {give : α → Option γ} {other : α × β → Option γ}
    (same : ∀ first second, related first second →
      give first = other (first, second))
    {firsts : List α} {seconds : List β}
    (each : List.Forall₂ related firsts (seconds.take firsts.length)) :
    List.Forall₂ (fun first pair => give first = other pair) firsts
      (firsts.zip seconds) := by
  induction firsts generalizing seconds with
  | nil => exact .nil
  | cons first rest inductionHypothesis =>
      cases seconds with
      | nil => cases each
      | cons second others =>
          cases each with
          | cons here later =>
              exact .cons (same first second here) (inductionHypothesis later)

theorem patched_of_holds {settings : PatchSettings} {tree : FileTree}
    {contents : List InputContent}
    (holds : (inputs settings tree).mapM (HashInput.content tree) =
      .ok contents) :
    patched settings tree = patchedFrom settings contents := by
  have each := mapM_eq_ok.1 holds
  have bundles := List.forall₂_take settings.bundles.length each
  have injections := List.forall₂_take settings.injections.length
    (List.forall₂_drop settings.bundles.length each)
  simp only [inputs, List.append_assoc] at bundles injections
  rw [List.take_left' (List.length_map _), List.forall₂_map_left_iff] at bundles
  rw [List.drop_left' (List.length_map _), List.take_left' (List.length_map _),
    List.forall₂_map_left_iff] at injections
  have texts : patchTexts tree settings.bundles =
      gather textsOf (settings.bundles.zip contents) := by
    refine gather_congr (forall₂_zip (fun bundle held holds => ?_) bundles)
    rw [bundleTexts, toOption_loadBundle holds, textsOf]
  have entries : injectedEntries tree settings.injections =
      gather entriesOf ((contents.drop settings.bundles.length).take
        settings.injections.length) :=
    gather_congr (injections.imp fun _ _ => directoryEntries_of_holds)
  funext artifact
  rw [patched, patchedFrom, texts, entries]

end Patching

namespace Renaming

open Deobfuscate.Source

def namesOf (path : Path) : InputContent → Option NameTable
  | .file content =>
      (Text.decode content).bind fun text =>
        (NameTable.parse text path).toOption
  | _ => none

def recordsOf {α : Type} (read : List String → Except TableFault α)
    (path : Path) : InputContent → Option (List α)
  | .file content =>
      (Text.decode content).bind fun text =>
        (Csv.parse text path).toOption.bind fun records =>
          (readRecords path read records).toOption
  | _ => none

/-- What a file holds, if there is one. -/
def optionally {α : Type} (give : Path → InputContent → Option α)
    (default : α) : Option Path → InputContent → Option α
  | some path, held => give path held
  | none, _ => some default

def tablesOf (files : TableFiles) : List InputContent → Option Tables
  | fields :: methods :: parameters :: generics :: edits :: _ => do
      let fields ← namesOf files.fields fields
      let methods ← namesOf files.methods methods
      let parameters ← optionally namesOf .empty files.parameters parameters
      let generics ←
        optionally (recordsOf readGeneric) [] files.generics generics
      let edits ← optionally (recordsOf readLineEdit) [] files.edits edits
      some { fields, methods, parameters, generics, edits }
  | _ => none

section Loading

variable {tree : FileTree} {held : InputContent}

theorem toOption_loadNames {path : Path}
    (holds : (HashInput.file path).content tree = .ok held) :
    (loadNames tree path).toOption = namesOf path held := by
  obtain ⟨_, content, rfl⟩ := HashInput.content_file_eq_ok.1 holds
  unfold loadNames NameTable.load Mapping.readText namesOf
  rw [toOption_mapError, toOption_bind, toOption_mapError,
    FileTree.toOption_readText content]
  simp only [toOption_mapError]

theorem toOption_loadRecords {α : Type}
    {read : List String → Except TableFault α} {path : Path}
    (holds : (HashInput.file path).content tree = .ok held) :
    (loadRecords tree path read).toOption = recordsOf read path held := by
  obtain ⟨_, content, rfl⟩ := HashInput.content_file_eq_ok.1 holds
  unfold loadRecords Mapping.readText recordsOf
  rw [toOption_bind, toOption_mapError, toOption_mapError,
    FileTree.toOption_readText content]
  simp only [toOption_bind, toOption_mapError]

theorem toOption_loadOptional {α : Type}
    {load : Path → Except RenameError α}
    {give : Path → InputContent → Option α} {default : α}
    (same : ∀ path, (HashInput.file path).content tree = .ok held →
      (load path).toOption = give path held) {path : Option Path}
    (holds : (HashInput.optionalFile path).content tree = .ok held) :
    (loadOptional load default path).toOption =
      optionally give default path held := by
  cases path with
  | none => rfl
  | some path => exact same path holds

theorem toOption_load {files : TableFiles} {mode : JavadocMode}
    {contents : List InputContent}
    (holds : (inputs files mode).mapM (HashInput.content tree) =
      .ok contents) :
    (Tables.load tree files).toOption = tablesOf files contents := by
  rw [inputs] at holds
  have each := mapM_eq_ok.1 holds
  cases each with
  | cons fields each =>
  cases each with
  | cons methods each =>
  cases each with
  | cons parameters each =>
  cases each with
  | cons generics each =>
  cases each with
  | cons edits _ =>
      unfold Tables.load tablesOf
      rw [toOption_bind, toOption_loadNames fields]
      simp only [toOption_bind, toOption_loadNames methods,
        toOption_loadOptional (fun _ => toOption_loadNames) parameters,
        toOption_loadOptional (fun _ => toOption_loadRecords) generics,
        toOption_loadOptional (fun _ => toOption_loadRecords) edits]
      rfl

end Loading

def renamedFrom (files : TableFiles) (mode : JavadocMode)
    (contents : List InputContent) (artifact : Artifact) : Option Artifact :=
  (tablesOf files contents).bind (renamedWith mode artifact)

theorem renamed_of_holds {files : TableFiles} {mode : JavadocMode} {tree : FileTree}
    {contents : List InputContent}
    (holds : (inputs files mode).mapM (HashInput.content tree) =
      .ok contents) :
    renamed files mode tree = renamedFrom files mode contents := by
  funext artifact
  rw [renamed, toOption_load holds, renamedFrom]

end Renaming

end Deobfuscate
