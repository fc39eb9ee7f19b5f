import Deobfuscate.Proofs.Stage.PatchEffect
import Deobfuscate.Proofs.Stage.ToolInputs

/-!
# What the digest of patching says about its effect

The inputs of patching are its bundles, then its directories of files to inject,
then its settings.  What is fed to the digest determines the settings, and the
contents of bundles and directories in order.  It does not say which of them are
bundles: with as many bundles, patching does the same to every artifact, but the
last bundle may as well be the first directory of injected files.
-/

namespace Deobfuscate

namespace HashInput

variable {tree : FileTree} {left right : Path} {value : InputValue}
  (formed : tree.WellFormed) (free : ExternalTool.CollisionFree tree)

include formed free

private theorem contentAt_of_denotes
    (leftDenoted : (HashInput.directory left).Denotes tree value)
    (rightDenoted : (HashInput.directory right).Denotes tree value)
    {below : Location} {content : Bytes}
    (held : tree.contentAt (left.target ++ below) = some content) :
    tree.contentAt (right.target ++ below) = some content := by
  cases leftDenoted with
  | directory leftLeads leftOpened leftHashed =>
      cases rightDenoted with
      | directory rightLeads rightOpened rightHashed =>
          obtain ⟨rfl, leftStands⟩ := FileTree.node?_target leftLeads
          obtain ⟨rfl, rightStands⟩ := FileTree.node?_target rightLeads
          have listed := (leftHashed _ _).2 ⟨below, content, held, rfl, rfl⟩
          obtain ⟨other, otherContent, otherHeld, sameName, sameHash⟩ :=
            (rightHashed _ _).1 listed
          obtain rfl : below = other := FileTree.relativeText_injective
            (FileTree.ne_nil_of_contentAt leftStands held)
            (FileTree.properLocation_of_contentAt formed held)
            (FileTree.ne_nil_of_contentAt rightStands otherHeld)
            (FileTree.properLocation_of_contentAt formed otherHeld) sameName
          obtain ⟨_, leftRead, leftFile, _⟩ := leftOpened below content held
          obtain ⟨_, rightRead, rightFile, _⟩ :=
            rightOpened below otherContent otherHeld
          rw [FileTree.readBytes_child formed leftStands leftLeads held
            leftFile] at leftFile
          rw [FileTree.readBytes_child formed rightStands rightLeads otherHeld
            rightFile] at rightFile
          rw [free _ _ _ _ leftFile rightFile sameHash]
          exact otherHeld

/-- Directories with the same value have the same contents, if files with the
same hash have the same bytes. -/
theorem Denotes.contentAt_eq
    (leftDenoted : (HashInput.directory left).Denotes tree value)
    (rightDenoted : (HashInput.directory right).Denotes tree value)
    (below : Location) :
    tree.contentAt (left.target ++ below) =
      tree.contentAt (right.target ++ below) := by
  apply Option.ext
  intro content
  constructor
  · exact contentAt_of_denotes formed free leftDenoted rightDenoted
  · exact contentAt_of_denotes formed free rightDenoted leftDenoted

/-- They have the same files in the order of their names. -/
theorem Denotes.sortedFilesBelow_eq
    (leftDenoted : (HashInput.directory left).Denotes tree value)
    (rightDenoted : (HashInput.directory right).Denotes tree value) :
    tree.sortedFilesBelow left.target = tree.sortedFilesBelow right.target :=
  FileTree.sortedFilesBelow_congr formed formed
    (Denotes.contentAt_eq formed free leftDenoted rightDenoted)

omit formed free in
theorem Denotes.find_directory
    (denoted : (HashInput.directory left).Denotes tree value) :
    tree.find left = .ok (left.target, .directory) := by
  cases denoted with
  | directory leads _ _ =>
      rw [← (FileTree.node?_target leads).1]
      exact leads

end HashInput

namespace Patching

open Deobfuscate.Patch

variable {tree : FileTree}

theorem directoryEntries_eq {directory : Path}
    (leads : tree.find directory = .ok (directory.target, .directory)) :
    directoryEntries tree directory =
      some ((tree.sortedFilesBelow directory.target).map fun file =>
        (FileTree.relativeText file.1, file.2)) := by
  unfold directoryEntries
  rw [leads]

/-- Directories with the same value give the same entries. -/
theorem directoryEntries_congr (formed : tree.WellFormed)
    (free : ExternalTool.CollisionFree tree) {left right : Path}
    {value : InputValue}
    (leftDenoted : (HashInput.directory left).Denotes tree value)
    (rightDenoted : (HashInput.directory right).Denotes tree value) :
    directoryEntries tree left = directoryEntries tree right := by
  rw [directoryEntries_eq leftDenoted.find_directory,
    directoryEntries_eq rightDenoted.find_directory,
    leftDenoted.sortedFilesBelow_eq formed free rightDenoted]

def namedTexts : List (Location × Bytes) → Option (List (String × String))
  | [] => some []
  | (location, content) :: rest => do
      let text ← Text.decode content
      let name := String.ofList
        (Text.replaceAll ['\\'] ['/'] (FileTree.relativeText location).toList)
      return (name, text) :: (← namedTexts rest)

theorem directoryFiles_eq (bundle : Path) (files : List (Location × Bytes)) :
    (directoryFiles bundle files).toOption.map
        (List.map fun file => (file.name, file.text)) =
      namedTexts files := by
  induction files with
  | nil => rfl
  | cons file rest inductionHypothesis =>
      rw [directoryFiles, namedTexts, ← inductionHypothesis]
      cases Text.decode file.2 with
      | none => rfl
      | some text =>
          cases directoryFiles bundle rest <;> rfl

/-- The texts of a directory are those of its files in the order of their
names. -/
theorem bundleTexts_directory {bundle : Path}
    (leads : tree.find bundle = .ok (bundle.target, .directory)) :
    bundleTexts tree bundle =
      (namedTexts (tree.sortedFilesBelow bundle.target)).map fun named =>
        (named.mergeSort fun left right => left.1 ≤ right.1).map Prod.snd := by
  unfold bundleTexts loadBundle
  rw [leads, ← directoryFiles_eq bundle]
  dsimp only
  cases directoryFiles bundle (tree.sortedFilesBelow bundle.target) with
  | error error => rfl
  | ok files =>
      have sorted : (files.mergeSort fun left right =>
            left.name ≤ right.name).map (fun file => (file.name, file.text)) =
          (files.map fun file => (file.name, file.text)).mergeSort
            fun left right => left.1 ≤ right.1 :=
        List.map_mergeSort fun _ _ _ _ => rfl
      change some ((files.mergeSort _).map PatchFile.text) =
        some (((files.map _).mergeSort _).map Prod.snd)
      rw [← sorted, List.map_map]
      rfl

/-- A single patch file has one text. -/
theorem bundleTexts_file {bundle : Path} {content : Bytes}
    (read : tree.readBytes bundle = .ok content)
    (unarchived : isArchivePath bundle = false) :
    bundleTexts tree bundle = (Text.decode content).map ([·]) := by
  have single : ∀ location, tree.find bundle ≠ .ok (location, .directory) := by
    intro location leads
    unfold FileTree.readBytes at read
    rw [leads] at read
    cases read
  unfold bundleTexts loadBundle
  split
  · rename_i leads
    exact absurd leads (single _)
  · rw [unarchived, FileTree.readText, read]
    dsimp only [bind, Except.bind]
    cases Text.decode content with
    | none => rfl
    | some text =>
        rw [if_neg Bool.false_ne_true]
        rfl

def Unarchived (tree : FileTree) (bundle : Path) : Prop :=
  tree.isDirectory bundle = true ∨ isArchivePath bundle = false

instance (tree : FileTree) (bundle : Path) :
    Decidable (Unarchived tree bundle) :=
  inferInstanceAs (Decidable (_ ∨ _))

theorem bundleTexts_congr (formed : tree.WellFormed)
    (free : ExternalTool.CollisionFree tree) {left right : Path}
    {value : InputValue} (leftUnarchived : Unarchived tree left)
    (rightUnarchived : Unarchived tree right)
    (leftDenoted : (bundleInput tree left).Denotes tree value)
    (rightDenoted : (bundleInput tree right).Denotes tree value) :
    bundleTexts tree left = bundleTexts tree right := by
  unfold bundleInput at leftDenoted rightDenoted
  split at leftDenoted
  · split at rightDenoted
    · rw [bundleTexts_directory leftDenoted.find_directory,
        bundleTexts_directory rightDenoted.find_directory,
        leftDenoted.sortedFilesBelow_eq formed free rightDenoted]
    · cases leftDenoted
      cases rightDenoted
  · rename_i leftFile
    split at rightDenoted
    · cases rightDenoted
      cases leftDenoted
    · rename_i rightFile
      cases leftDenoted with
      | file leftHashed =>
          cases rightDenoted with
          | file rightHashed =>
              obtain ⟨leftContent, leftRead, leftHash⟩ := leftHashed
              obtain ⟨rightContent, rightRead, rightHash⟩ := rightHashed
              have same := free _ _ _ _ leftRead rightRead
                (leftHash.symm.trans rightHash)
              rw [bundleTexts_file leftRead (leftUnarchived.resolve_left leftFile),
                bundleTexts_file rightRead
                  (rightUnarchived.resolve_left rightFile), same]

/-! ## What the stream determines -/

theorem gather_eq_of_resolves {α : Type} {give : Path → Option (List α)}
    {input : Path → HashInput} {left right : List Path}
    {values : List InputValue}
    (determined : ∀ first ∈ left, ∀ second ∈ right, ∀ value,
      (input first).Denotes tree value → (input second).Denotes tree value →
        give first = give second)
    (leftResolves : Resolves tree (left.map input) values)
    (rightResolves : Resolves tree (right.map input) values) :
    gather give left = gather give right := by
  refine gather_congr ?_
  induction left generalizing right values with
  | nil =>
      cases leftResolves
      cases right with
      | nil => exact .nil
      | cons _ _ => cases rightResolves
  | cons first rest inductionHypothesis =>
      cases leftResolves with
      | cons leftDenoted leftLater =>
      cases right with
      | nil => cases rightResolves
      | cons second others =>
      cases rightResolves with
      | cons rightDenoted rightLater =>
          refine .cons (determined first (by simp) second (by simp) _
            leftDenoted rightDenoted) (inductionHypothesis ?_ leftLater rightLater)
          intro item member other listed
          exact determined item (by simp [member]) other (by simp [listed])

def settingValues (settings : PatchSettings) : List InputValue :=
  [.int64 (Int64.ofNat settings.maxFuzz), .int64 (Int64.ofNat settings.strip),
    .bool settings.allowFailure, .bool settings.canonicalizeAccess]

theorem resolves_inputs_iff {settings : PatchSettings}
    {values : List InputValue} :
    Resolves tree (inputs settings tree) values ↔
      ∃ sources, Resolves tree (settings.bundles.map (bundleInput tree) ++
          settings.injections.map .directory) sources ∧
        values = sources ++ settingValues settings := by
  have plain : ∀ {values : List InputValue},
      Resolves tree [.int64 (Int64.ofNat settings.maxFuzz),
        .int64 (Int64.ofNat settings.strip), .bool settings.allowFailure,
        .bool settings.canonicalizeAccess] values ↔
        values = settingValues settings := by
    have resolves : Resolves tree [.int64 (Int64.ofNat settings.maxFuzz),
        .int64 (Int64.ofNat settings.strip), .bool settings.allowFailure,
        .bool settings.canonicalizeAccess] (settingValues settings) :=
      .cons (.int64 (Int64.ofNat settings.maxFuzz))
        (.cons (.int64 (Int64.ofNat settings.strip))
          (.cons (.bool settings.allowFailure)
            (.cons (.bool settings.canonicalizeAccess) .nil)))
    intro values
    constructor
    · intro others
      exact HashInput.resolves_unique others resolves
    · rintro rfl
      exact resolves
  unfold inputs
  rw [resolves_append_iff]
  constructor
  · rintro ⟨sources, others, resolves, given, rfl⟩
    rw [plain.1 given]
    exact ⟨sources, resolves, rfl⟩
  · rintro ⟨sources, resolves, rfl⟩
    exact ⟨sources, _, resolves, plain.2 rfl, rfl⟩

theorem length_encode (text : String) :
    (Text.encode text).length = text.utf8ByteSize :=
  rfl

theorem utf8ByteSize_child (directory : Path) (name : String) :
    name.utf8ByteSize ≤ (directory.child name).text.utf8ByteSize := by
  unfold Path.child Path.join
  split
  · exact Nat.le_refl _
  · split
    · exact Nat.le_refl _
    · split
      · simp
      · simp

/-- Paths that are opened are short. -/
theorem short_of_readBytes {path : Path} {content : Bytes}
    (read : tree.readBytes path = .ok content) :
    path.text.utf8ByteSize < FileTree.pathSizeLimit := by
  obtain ⟨location, located, _⟩ := FileTree.readBytes_eq_ok.1 read
  unfold FileTree.locate at located
  obtain ⟨_, checked, _⟩ := bind_eq_ok.1 located
  unfold FileTree.checkPath at checked
  split at checked
  · cases checked
  · split at checked
    · cases checked
    · split at checked
      · cases checked
      · omega

theorem directory_fits (formed : tree.WellFormed)
    (small : tree.nodes.length < lengthLimit) {path : Path}
    {value : InputValue}
    (denoted : (HashInput.directory path).Denotes tree value) : value.Fits := by
  cases denoted with
  | @directory _ location hashes leads opened hashed =>
      have listed : ∀ name ∈ hashes.keys, ∃ below content,
          tree.contentAt (location ++ below) = some content ∧
            name = FileTree.relativeText below := by
        intro name member
        obtain ⟨⟨_, hash⟩, bound, rfl⟩ := List.mem_map.1 member
        obtain ⟨below, content, held, same, _⟩ :=
          (hashed _ hash).1 (Dict.get?_eq_some_iff.2 bound)
        exact ⟨below, content, held, same⟩
      constructor
      · have distinct : hashes.keys.Nodup := by
          refine List.pairwise_map.2 (hashes.sorted.imp ?_)
          intro first second less
          exact String.ne_of_lt less
        have inside : hashes.keys ⊆
            (tree.filesBelow location).map fun file =>
              FileTree.relativeText file.1 := by
          intro name member
          obtain ⟨below, content, held, rfl⟩ := listed name member
          exact List.mem_map.2
            ⟨_, (FileTree.mem_filesBelow formed).2 held, rfl⟩
        have fewer := (List.subperm_of_subset distinct inside).length_le
        have files : (tree.filesBelow location).length ≤ tree.nodes.length :=
          List.length_filterMap_le _ _
        rw [Dict.keys, List.length_map, List.length_map] at fewer
        exact Nat.lt_of_le_of_lt (Nat.le_trans fewer files) small
      · intro name member
        obtain ⟨below, content, held, rfl⟩ := listed name member
        obtain ⟨_, read, file, _⟩ := opened below content held
        have short := short_of_readBytes file
        have inside := utf8ByteSize_child path (FileTree.relativeText below)
        rw [length_encode]
        unfold FileTree.pathSizeLimit at short
        unfold lengthLimit
        omega

/-- The values of bundles and directories fit, and so do settings. -/
theorem values_fit (formed : tree.WellFormed)
    (small : tree.nodes.length < lengthLimit) {settings : PatchSettings}
    {sources : List InputValue}
    (resolves : Resolves tree (settings.bundles.map (bundleInput tree) ++
      settings.injections.map .directory) sources) :
    ∀ value ∈ sources ++ settingValues settings, value.Fits := by
  have source : ∀ input value, input ∈
      settings.bundles.map (bundleInput tree) ++
        settings.injections.map .directory →
      input.Denotes tree value → value.Fits := by
    intro input value member denoted
    have kind : ∃ path, input = .directory path ∨ input = .file path := by
      rcases List.mem_append.1 member with bundle | injection
      · obtain ⟨path, _, rfl⟩ := List.mem_map.1 bundle
        unfold bundleInput
        split
        · exact ⟨path, Or.inl rfl⟩
        · exact ⟨path, Or.inr rfl⟩
      · obtain ⟨path, _, rfl⟩ := List.mem_map.1 injection
        exact ⟨path, Or.inl rfl⟩
    obtain ⟨path, rfl | rfl⟩ := kind
    · exact directory_fits formed small denoted
    · cases denoted
      trivial
  intro value member
  rcases List.mem_append.1 member with given | setting
  · obtain ⟨input, listed, denoted⟩ := exists_related resolves.flip given
    exact source input value listed denoted
  · simp only [settingValues, List.mem_cons, List.not_mem_nil, or_false]
      at setting
    rcases setting with rfl | rfl | rfl | rfl <;> trivial

theorem ofNat_injective {left right : Nat} (leftFits : left < lengthLimit)
    (rightFits : right < lengthLimit)
    (same : Int64.ofNat left = Int64.ofNat right) : left = right := by
  have words := congrArg (fun word => word.toBitVec.toNat) same
  simp only [Int64.toBitVec_ofNat', BitVec.toNat_ofNat] at words
  unfold lengthLimit at leftFits rightFits
  omega

/-- The counts of a patching stage fit into eight bytes. -/
structure Fits (settings : PatchSettings) : Prop where
  maxFuzz : settings.maxFuzz < lengthLimit
  strip : settings.strip < lengthLimit

theorem settingValues_injective {left right : PatchSettings}
    (leftFits : Fits left) (rightFits : Fits right)
    (same : settingValues left = settingValues right) :
    left.maxFuzz = right.maxFuzz ∧ left.strip = right.strip ∧
      left.allowFailure = right.allowFailure ∧
      left.canonicalizeAccess = right.canonicalizeAccess := by
  unfold settingValues at same
  simp only [List.cons.injEq, InputValue.int64.injEq, InputValue.bool.injEq,
    and_true] at same
  obtain ⟨sameFuzz, sameStrip, sameFailure, sameAccess⟩ := same
  exact ⟨ofNat_injective leftFits.maxFuzz rightFits.maxFuzz sameFuzz,
    ofNat_injective leftFits.strip rightFits.strip sameStrip, sameFailure,
    sameAccess⟩

/-! ## The digest and the effect -/

/-- Settings that are fed to the digest alike have the same options, and their
bundles and directories have the same values when both are put one after the
other.  If the bundles are as many, the same entries are injected, the same texts
are applied, and the stage gives the same output for every artifact, or none. -/
theorem sameStream_patches_alike {leftMemo rightMemo : Memo}
    (sound : tree.Sound) (small : tree.nodes.length < lengthLimit)
    (free : ExternalTool.CollisionFree tree)
    (leftFaithful : leftMemo.Faithful tree)
    (rightFaithful : rightMemo.Faithful tree) {left right : PatchSettings}
    (leftFits : Fits left) (rightFits : Fits right)
    (leftUnarchived : ∀ bundle ∈ left.bundles, Unarchived tree bundle)
    (rightUnarchived : ∀ bundle ∈ right.bundles, Unarchived tree bundle)
    {stream : Bytes}
    (leftRan : ((digestStream tree (inputs left tree)).run leftMemo).1 =
      .ok stream)
    (rightRan : ((digestStream tree (inputs right tree)).run rightMemo).1 =
      .ok stream) :
    (left.maxFuzz = right.maxFuzz ∧ left.strip = right.strip ∧
      left.allowFailure = right.allowFailure ∧
      left.canonicalizeAccess = right.canonicalizeAccess) ∧
    (∃ sources,
      Resolves tree (left.bundles.map (bundleInput tree) ++
        left.injections.map .directory) sources ∧
      Resolves tree (right.bundles.map (bundleInput tree) ++
        right.injections.map .directory) sources) ∧
    (left.bundles.length = right.bundles.length →
      injectedEntries tree left.injections =
          injectedEntries tree right.injections ∧
        patchTexts tree left.bundles = patchTexts tree right.bundles ∧
        (∀ artifact, patched left tree artifact = patched right tree artifact) ∧
        ∀ (paths : StagePaths) (log : List LogEvent),
          outputAfter? paths (runFrom (run left paths) ⟨tree, log⟩) =
            outputAfter? paths (runFrom (run right paths) ⟨tree, log⟩)) := by
  obtain ⟨_, leftResolves, leftFramed⟩ :=
    (digestStream_eq_ok sound.formed leftFaithful).1 leftRan
  obtain ⟨_, rightResolves, rightFramed⟩ :=
    (digestStream_eq_ok sound.formed rightFaithful).1 rightRan
  have leftInputs := leftResolves
  have rightInputs := rightResolves
  obtain ⟨leftSources, leftGiven, rfl⟩ := resolves_inputs_iff.1 leftInputs
  obtain ⟨rightSources, rightGiven, rfl⟩ := resolves_inputs_iff.1 rightInputs
  have sameValues := frame_values_injective leftResolves rightResolves
    (values_fit sound.formed small leftGiven)
    (values_fit sound.formed small rightGiven)
    (leftFramed.symm.trans rightFramed)
  obtain ⟨rfl, sameSettings⟩ := List.append_inj' sameValues rfl
  have options := settingValues_injective leftFits rightFits sameSettings
  refine ⟨options, ⟨leftSources, leftGiven, rightGiven⟩, ?_⟩
  intro asMany
  obtain ⟨leftBundles, leftInjections, leftFirst, leftSecond, whole⟩ :=
    resolves_append_iff.1 leftGiven
  obtain ⟨rightBundles, rightInjections, rightFirst, rightSecond, other⟩ :=
    resolves_append_iff.1 rightGiven
  have lengths : leftBundles.length = rightBundles.length := by
    have leftLength := leftFirst.length_eq
    have rightLength := rightFirst.length_eq
    rw [List.length_map] at leftLength rightLength
    omega
  obtain ⟨rfl, rfl⟩ := List.append_inj (whole.symm.trans other) lengths
  have entries : injectedEntries tree left.injections =
      injectedEntries tree right.injections :=
    gather_eq_of_resolves (fun _ _ _ _ _ first second =>
      directoryEntries_congr sound.formed free first second)
      leftSecond rightSecond
  have texts : patchTexts tree left.bundles = patchTexts tree right.bundles :=
    gather_eq_of_resolves (fun first listed second member _ denoted given =>
      bundleTexts_congr sound.formed free (leftUnarchived first listed)
        (rightUnarchived second member) denoted given)
      leftFirst rightFirst
  have same : ∀ artifact,
      patched left tree artifact = patched right tree artifact := by
    intro artifact
    obtain ⟨fuzz, strip, failure, access⟩ := options
    unfold patched patchedWith patchOptions
    rw [entries, texts, fuzz, strip, failure, access]
  refine ⟨entries, texts, same, fun paths log => ?_⟩
  exact outputAfter?_run_congr sound same paths

/-- A directory and a copy of it, beside an artifact without entries. -/
def copiedTree : FileTree :=
  { nodes := [(["in"], .directory), (["d"], .directory),
      (["d", "x"], .file [120] 0 0), (["e"], .directory),
      (["e", "x"], .file [120] 1 1)]
    clock := 2 }

def copiedPaths : StagePaths where
  input := some ⟨"in"⟩
  output := ⟨"out.jar"⟩
  scratch := ⟨"tmp"⟩

/-- Patching with a bundle and a directory of files to inject. -/
def copiedSettings (bundle injection : Path) : PatchSettings where
  bundles := [bundle]
  injections := [injection]

private theorem eq_ok_of_isSome {ε : Type} {result : Except ε Bytes}
    (some : result.toOption.isSome = true) :
    result = .ok (result.toOption.getD []) := by
  cases result with
  | error _ => cases some
  | ok _ => rfl

private theorem copiedTree_free : ExternalTool.CollisionFree copiedTree := by
  have held : ∀ path content, copiedTree.readBytes path = .ok content →
      content = [120] := by
    intro path content read
    obtain ⟨modified, identity, stands⟩ :=
      FileTree.contentAt_eq_some.1 (FileTree.contentAt_target read)
    have below : path.target ≠ [] := by
      intro top
      rw [top, FileTree.node?_nil] at stands
      cases stands
    have member := FileTree.mem_of_node? below stands
    simp [copiedTree] at member
    rcases member with ⟨_, rfl, _⟩ | ⟨_, rfl, _⟩ <;> rfl
  intro leftPath rightPath left right leftRead rightRead _
  rw [held _ _ leftRead, held _ _ rightRead]

/-- With a bundle, patching an artifact without entries gives none; with a
directory of files to inject it gives the file there.  But both are fed to the
digest alike. -/
theorem undigested_role :
    ∃ stream,
      ((digestStream copiedTree
        (inputs { bundles := [⟨"d"⟩] } copiedTree)).run {}).1 = .ok stream ∧
      ((digestStream copiedTree
        (inputs { injections := [⟨"d"⟩] } copiedTree)).run {}).1 =
          .ok stream ∧
      outputAfter? copiedPaths
          (runFrom (run { bundles := [⟨"d"⟩] } copiedPaths) ⟨copiedTree, []⟩) ≠
        outputAfter? copiedPaths
          (runFrom (run { injections := [⟨"d"⟩] } copiedPaths)
            ⟨copiedTree, []⟩) := by
  have digested : ((digestStream copiedTree
      (inputs { bundles := [⟨"d"⟩] } copiedTree)).run
        {}).1.toOption.isSome = true := by
    decide +kernel
  have bundled : (outputAfter? copiedPaths
      (runFrom (run { bundles := [⟨"d"⟩] } copiedPaths)
        ⟨copiedTree, []⟩)).bind Except.toOption =
      some (Archive.writeZip []) := by
    decide +kernel
  have injected : (outputAfter? copiedPaths
      (runFrom (run { injections := [⟨"d"⟩] } copiedPaths)
        ⟨copiedTree, []⟩)).bind Except.toOption =
      some (Archive.writeZip [("x", [120])]) := by
    decide +kernel
  refine ⟨_, eq_ok_of_isSome digested, eq_ok_of_isSome digested, ?_⟩
  intro same
  rw [same, injected] at bundled
  exact absurd bundled (by decide)

private theorem copied_digested :
    ∃ stream,
      ((digestStream copiedTree
        (inputs (copiedSettings ⟨"d"⟩ ⟨"e"⟩) copiedTree)).run {}).1 =
          .ok stream ∧
      ((digestStream copiedTree
        (inputs (copiedSettings ⟨"e"⟩ ⟨"d"⟩) copiedTree)).run {}).1 =
          .ok stream := by
  have left : ((digestStream copiedTree
      (inputs (copiedSettings ⟨"d"⟩ ⟨"e"⟩) copiedTree)).run
        {}).1.toOption.isSome = true := by
    decide +kernel
  have right : ((digestStream copiedTree
      (inputs (copiedSettings ⟨"e"⟩ ⟨"d"⟩) copiedTree)).run
        {}).1.toOption.isSome = true := by
    decide +kernel
  have same : ((digestStream copiedTree
      (inputs (copiedSettings ⟨"e"⟩ ⟨"d"⟩) copiedTree)).run {}).1.toOption =
    ((digestStream copiedTree
      (inputs (copiedSettings ⟨"d"⟩ ⟨"e"⟩) copiedTree)).run {}).1.toOption := by
    decide +kernel
  refine ⟨_, eq_ok_of_isSome left, ?_⟩
  rw [← same]
  exact eq_ok_of_isSome right

/-- A copy of a directory may take its place. -/
theorem sameStream_patches_alike_copied :
    (outputAfter? copiedPaths
        (runFrom (run (copiedSettings ⟨"d"⟩ ⟨"e"⟩) copiedPaths)
          ⟨copiedTree, []⟩)).bind Except.toOption =
        some (Archive.writeZip [("x", [120])]) ∧
      outputAfter? copiedPaths
          (runFrom (run (copiedSettings ⟨"d"⟩ ⟨"e"⟩) copiedPaths)
            ⟨copiedTree, []⟩) =
        outputAfter? copiedPaths
          (runFrom (run (copiedSettings ⟨"e"⟩ ⟨"d"⟩) copiedPaths)
            ⟨copiedTree, []⟩) := by
  have sound : copiedTree.Sound := by decide
  have small : copiedTree.nodes.length < lengthLimit := by decide
  have leftFits : Fits (copiedSettings ⟨"d"⟩ ⟨"e"⟩) :=
    ⟨by decide, by decide⟩
  have rightFits : Fits (copiedSettings ⟨"e"⟩ ⟨"d"⟩) :=
    ⟨by decide, by decide⟩
  have leftUnarchived : ∀ bundle ∈ (copiedSettings ⟨"d"⟩ ⟨"e"⟩).bundles,
      Unarchived copiedTree bundle := by
    decide
  have rightUnarchived : ∀ bundle ∈ (copiedSettings ⟨"e"⟩ ⟨"d"⟩).bundles,
      Unarchived copiedTree bundle := by
    decide
  obtain ⟨stream, leftRan, rightRan⟩ := copied_digested
  obtain ⟨_, _, alike⟩ := sameStream_patches_alike sound small copiedTree_free
    (Memo.faithful_empty _) (Memo.faithful_empty _) leftFits rightFits
    leftUnarchived rightUnarchived leftRan rightRan
  obtain ⟨_, _, _, outputs⟩ := alike rfl
  refine ⟨?_, outputs copiedPaths []⟩
  decide +kernel

end Patching

end Deobfuscate
