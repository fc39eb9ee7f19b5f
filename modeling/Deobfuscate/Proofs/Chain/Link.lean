import Deobfuscate.Chain
import Deobfuscate.Proofs.FileTree.Temporary

/-!
# What running a link alters

The stage of a link writes into a fresh directory beside the output.  Whatever
the stage does there, the directory is gone afterwards: outside the scratch
directory of the stage everything is as it was, except that directories above
the output or the scratch directory may have been made, and that a link which
succeeds has replaced its output.
-/

namespace Deobfuscate

open FileTree

/-- A place strictly below another one. -/
def Inside (above location : Location) : Prop :=
  above <+: location ∧ location ≠ above

/-- A stage can be run: the directory of its output and its scratch directory
stand, and nothing stands at the output. -/
structure StagePaths.Prepared (paths : StagePaths) (tree : FileTree) :
    Prop where
  sound : tree.Sound
  directory : tree.ReachesDirectory paths.output.directory
  fresh : tree.node? paths.output.target = none
  scratch : tree.ReachesDirectory paths.scratch

def StagePaths.Readable (paths : StagePaths) (tree : FileTree) : Prop :=
  ∀ path ∈ paths.input, ∃ content, tree.readBytes path = .ok content

/-- A stage that is run where everything is prepared alters nothing but what lies
in the directory of its output and in its scratch directory. -/
def Stage.Confined (stage : Stage) : Prop :=
  ∀ (paths : StagePaths) (before : Workspace), paths.Prepared before.tree →
    Alters (fun _ => False)
      (fun location => Inside paths.output.target.dropLast location ∨
        Inside paths.scratch.target location)
      before.tree (runFrom (stage.run paths) before).2.tree

namespace Chain

def scratchOf (scratchRoot : Path) (link : Link) : Path :=
  scratchRoot.child link.stage.name

def stagedIn (link : Link) (staging : Path) : Path :=
  staging.child (link.output.fileName.getD "output")

def stagePaths (scratchRoot : Path) (link : Link) (input : Option Path)
    (staging : Path) : StagePaths where
  input := input
  output := stagedIn link staging
  scratch := scratchOf scratchRoot link

/-- What is done before a stage runs: the directories are made, the last one
being the one that the stage writes into. -/
def prepareLink (scratchRoot : Path) (link : Link) : StageAction Path := do
  let directory := link.output.directory
  StageAction.advance directory (·.createDirectories directory)
  prepareScratch (scratchOf scratchRoot link)
  StageAction.files (FileTree.makeTemporary directory ".retro-stage-" id)
    (.files directory)

def product (scratchRoot : Path) (link : Link) (input : Option Path)
    (workspace : Workspace) : Option Bytes :=
  match runFrom (prepareLink scratchRoot link) workspace with
  | (.ok staging, prepared) =>
      let paths := stagePaths scratchRoot link input staging
      let ended := (runFrom (link.stage.run paths) prepared).2
      ended.tree.contentAt paths.output.target
  | (.error _, _) => none

theorem runLink_eq (scratchRoot : Path) (link : Link) (input : Option Path) :
    runLink scratchRoot link input = (do
      let staging ← prepareLink scratchRoot link
      StageAction.finallyDo
        (publish link input staging (scratchOf scratchRoot link))
        (·.discard staging)) := by
  simp only [runLink, prepareLink, bind_assoc]
  rfl

def stagingIn (link : Link) (number : Nat) : Path :=
  link.output.directory.child (freshName ".retro-stage-" "" number)

theorem target_stagingIn (link : Link) (number : Nat) :
    (stagingIn link number).target =
      link.output.directory.target ++ [freshName ".retro-stage-" "" number] :=
  target_child_name link.output.directory_text
    (properName_fresh number (by decide) (by decide) (by decide))

theorem text_stagingIn_ne (link : Link) (number : Nat) :
    (stagingIn link number).text ≠ "" :=
  text_child_ne (properName_fresh number (by decide) (by decide) (by decide))

theorem properName_staged (link : Link) :
    ProperName (link.output.fileName.getD "output") := by
  cases named : link.output.fileName with
  | none => decide
  | some name => exact (Path.target_of_fileName named).1

theorem target_stagedIn (link : Link) (number : Nat) :
    (stagedIn link (stagingIn link number)).target =
      (stagingIn link number).target ++
        [link.output.fileName.getD "output"] :=
  target_child_name (text_stagingIn_ne link number) (properName_staged link)

def way (link : Link) : List Location :=
  Path.passed [] (link.output.directory.pieces ++ [""])

section Staging

variable {link : Link} {number : Nat} {scratch : Location}
  {middle created ran : FileTree}
  (sound : middle.Sound)
  (made : middle.createDirectory (stagingIn link number) = .ok created)
  (avoids : link.output.Avoids scratch)

include made

theorem node?_staging : middle.node? (stagingIn link number).target = none :=
  (createDirectory_eq_ok made).1

theorem node?_created (location : Location) :
    created.node? location =
      if location = (stagingIn link number).target then some .directory
      else middle.node? location := by
  obtain ⟨_, rfl, _⟩ := createDirectory_eq_ok made
  exact node?_setNode (by simp [target_stagingIn]) _ location

theorem locateStep_staging :
    ∃ above name before,
      middle.locateStep (stagingIn link number) =
        .ok (above, .name name false) ∧
      checkName name = .ok () ∧
      (stagingIn link number).lastStep = (before, .name name false) ∧
      Path.passed [] (before ++ [""]) = way link := by
  obtain ⟨_, _, above, name, slashed, located, checked, _⟩ :=
    createDirectory_eq_ok made
  have plain : slashed = false :=
    slashed_of_child
      (properName_fresh number (by decide) (by decide) (by decide)) located
  subst plain
  obtain ⟨before, last, _⟩ := locateStep_eq_ok located
  exact ⟨above, name, before, located, checked, last,
    Path.passed_child link.output.directory_text
      (properName_fresh number (by decide) (by decide) (by decide)) last⟩

theorem way_directory {place : Location} (member : place ∈ way link) :
    middle.node? place = some .directory := by
  obtain ⟨_, _, before, located, _, last, same⟩ := locateStep_staging made
  obtain ⟨others, split, followed⟩ := locateStep_eq_ok located
  rw [last] at split
  obtain ⟨rfl, _⟩ := Prod.mk.inj split
  rw [← same] at member
  exact directory_of_passed followed member

include sound

theorem way_outside_staging {place : Location} (member : place ∈ way link) :
    ¬(stagingIn link number).target <+: place := by
  intro inside
  have nothing := sound.rooted.none_below inside (node?_staging made)
  rw [way_directory made member] at nothing
  cases nothing

/-- Discarding the directory removes it with everything in it, and nothing
else. -/
theorem node?_discard_staging {later : FileTree} (laterSound : later.Sound)
    (stands : later.node? (stagingIn link number).target = some .directory)
    (leads : ∀ place ∈ way link, later.node? place = some .directory)
    (location : Location) :
    (later.discard (stagingIn link number)).node? location =
      if (stagingIn link number).target <+: location then none
      else later.node? location := by
  obtain ⟨above, name, before, located, checked, last, same⟩ :=
    locateStep_staging made
  have laterLocated : later.locateStep (stagingIn link number) =
      .ok (above, .name name false) := by
    refine locateStep_of_passed located fun place passed => ?_
    rw [last, same] at passed
    exact leads place passed
  have gone := node?_discard_directory laterLocated checked stands (by
    intro place passed
    rw [last, same] at passed
    exact way_outside_staging sound made passed)
  obtain ⟨afterSound, kept⟩ :=
    alters_discard (fun _ => False) later (stagingIn link number) laterSound
  split
  · rename_i inside
    exact afterSound.rooted.none_below inside gone
  · rename_i outside
    exact (kept location outside).eq

variable (confined : ∀ location,
  ¬(Inside (stagingIn link number).target location ∨
    Inside scratch location) → ran.node? location = created.node? location)

include avoids confined

omit sound avoids in
theorem node?_ran_of_outside {location : Location}
    (outsideStaging : ¬(stagingIn link number).target <+: location)
    (outside : ¬Inside scratch location) :
    ran.node? location = middle.node? location := by
  rw [confined location (by
    rintro (inside | inside)
    · exact outsideStaging inside.1
    · exact outside inside)]
  rw [node?_created made, if_neg]
  intro same
  rw [same] at outsideStaging
  exact outsideStaging List.prefix_rfl

theorem ran_way {place : Location} (member : place ∈ way link) :
    ran.node? place = some .directory := by
  have outside : ¬scratch <+: place :=
    avoids.passed (Path.passed_of_directory member)
  rw [node?_ran_of_outside made confined
    (way_outside_staging sound made member) fun inside => outside inside.1]
  exact way_directory made member

omit sound in
theorem ran_staging :
    ran.node? (stagingIn link number).target = some .directory := by
  rw [confined _ (by
    rintro (inside | ⟨inside, different⟩)
    · exact inside.2 rfl
    · rw [target_stagingIn, List.prefix_concat_iff] at inside
      rcases inside with same | above
      · exact different (by rw [target_stagingIn, same])
      · exact avoids.directory.target above)]
  rw [node?_created made, if_pos rfl]

/-- When the directory is discarded, everything but what is in the scratch
directory is as it was before. -/
theorem node?_failed (ranSound : ran.Sound) {location : Location}
    (outside : ¬Inside scratch location) :
    (ran.discard (stagingIn link number)).node? location =
      middle.node? location := by
  rw [node?_discard_staging sound made ranSound
    (ran_staging made avoids confined)
    (fun place => ran_way sound made avoids confined)]
  split
  · rename_i inside
    exact (sound.rooted.none_below inside (node?_staging made)).symm
  · rename_i outsideStaging
    exact node?_ran_of_outside made confined outsideStaging outside

/-! ## Moving the file into place -/

variable {moved : FileTree} {content : Bytes} {modified identity : Nat}
  (ranSound : ran.Sound)
  (file : ran.node? (stagedIn link (stagingIn link number)).target =
    some (.file content modified identity))
  (renamed : ran.rename (stagedIn link (stagingIn link number)) link.output =
    .ok moved)

include ranSound file renamed

omit sound made avoids confined ranSound in
/-- The output is not in the directory that the stage wrote into, and no
directory. -/
theorem output_apart :
    ¬(stagingIn link number).target <+: link.output.target ∧
      ran.node? link.output.target ≠ some .directory := by
  obtain ⟨_, _, _, _, _, _, _, located, _, placed⟩ := rename_eq_ok renamed
  obtain ⟨before, last, _⟩ := locateStep_eq_ok located
  have target := Path.target_eq_directory last
  obtain ⟨_, ⟨same, _⟩ | ⟨_, apart, notDirectory, _⟩⟩ :=
    renameAt_file placed file
  · -- The two places differ in length.
    have lengths := congrArg List.length same
    rw [target_stagedIn, target_stagingIn, target] at lengths
    simp at lengths
  · refine ⟨fun inside => ?_, notDirectory⟩
    have short : link.output.target.length ≤
        (stagingIn link number).target.length := by
      rw [target, target_stagingIn]
      simp
    rw [← inside.eq_of_length_le short, target_stagedIn] at apart
    exact apart (List.prefix_append _ _)

omit sound made avoids confined in
/-- Only the file and the output are touched when the file is moved. -/
theorem node?_moved_of_ne {location : Location}
    (notStaged : location ≠ (stagedIn link (stagingIn link number)).target)
    (notOutput : location ≠ link.output.target) :
    moved.node? location = ran.node? location := by
  obtain ⟨_, kept⟩ :=
    alters_rename_file renamed file (fun _ => False) ranSound
  exact (kept location (not_or.2 ⟨notStaged, notOutput⟩)).eq

theorem moved_way {place : Location} (member : place ∈ way link) :
    moved.node? place = some .directory := by
  have directory := ran_way sound made avoids confined member
  rw [node?_moved_of_ne ranSound file renamed]
  · exact directory
  · intro same
    rw [same, file] at directory
    cases directory
  · intro same
    rw [same] at directory
    exact (output_apart file renamed).2 directory

theorem node?_discard_moved (location : Location) :
    (moved.discard (stagingIn link number)).node? location =
      if (stagingIn link number).target <+: location then none
      else moved.node? location := by
  obtain ⟨movedSound, _⟩ :=
    alters_rename_file renamed file (fun _ => False) ranSound
  refine node?_discard_staging sound made movedSound ?_
    (fun place => moved_way sound made avoids confined ranSound file renamed)
    location
  rw [node?_moved_of_ne ranSound file renamed]
  · exact ran_staging made avoids confined
  · rw [target_stagedIn]
    simp
  · intro same
    refine (output_apart file renamed).1 ?_
    simp only [same, List.prefix_rfl]

/-- When the file is moved into place and the directory discarded, everything but
the output and what is in the scratch directory is as it was before. -/
theorem node?_published {location : Location}
    (outside : ¬Inside scratch location)
    (notOutput : location ≠ link.output.target) :
    (moved.discard (stagingIn link number)).node? location =
      middle.node? location := by
  rw [node?_discard_moved sound made avoids confined ranSound file renamed]
  split
  · rename_i inside
    exact (sound.rooted.none_below inside (node?_staging made)).symm
  · rename_i outsideStaging
    rw [node?_moved_of_ne ranSound file renamed _
      notOutput]
    · exact node?_ran_of_outside made confined outsideStaging outside
    · intro same
      rw [same, target_stagedIn] at outsideStaging
      exact outsideStaging (List.prefix_append _ _)

/-- The output is found with what the stage wrote. -/
theorem find_published :
    (moved.discard (stagingIn link number)).find link.output =
      .ok (link.output.target, .file content modified identity) := by
  obtain ⟨_, _, _, above, name, slashed, _, located, checked, placed⟩ :=
    rename_eq_ok renamed
  obtain ⟨plain, _⟩ := renameAt_file placed file
  obtain ⟨_, unslashed⟩ := Bool.or_eq_false_iff.1 plain
  subst unslashed
  obtain ⟨before, last, _⟩ := locateStep_eq_ok located
  have after := node?_discard_moved sound made avoids confined ranSound file
    renamed
  have laterLocated : (moved.discard (stagingIn link number)).locateStep
      link.output = .ok (above, .name name false) := by
    refine locateStep_of_passed located fun place passed => ?_
    rw [last, ← Path.passed_directory last] at passed
    rw [after, if_neg (way_outside_staging sound made passed)]
    exact moved_way sound made avoids confined ranSound file renamed passed
  have reached := locate_of_locateStep laterLocated checked
  rw [← target_of_locateStep located] at reached
  refine find_eq_ok.2 ⟨reached, ?_⟩
  rw [after, if_neg (output_apart file renamed).1]
  exact node?_rename_file renamed file

end Staging

theorem exists_file_of_isFile {tree : FileTree} {path : Path}
    (there : tree.isFile path = true) :
    ∃ content modified identity, tree.node? path.target =
      some (.file content modified identity) := by
  unfold isFile at there
  split at there
  · rename_i location content modified identity found
    exact ⟨content, modified, identity, (node?_target found).2⟩
  · cases there

def MadeFor (scratchRoot : Path) (link : Link) (location : Location) : Prop :=
  location ∈ link.output.directory.places ∨
    location ∈ (scratchOf scratchRoot link).places

section Running

variable {scratchRoot : Path} {link : Link} {input : Option Path}
  {before after : Workspace}

/-- A scratch directory is cleared away, if it is there, and made. -/
theorem prepareScratch_steps {scratch : Path}
    {result : Except StageError Unit}
    (ran : runFrom (prepareScratch scratch) before = (result, after)) :
    (result = .ok () → after.tree.ReachesDirectory scratch) ∧
    ∃ cleared,
      (cleared = before.tree ∨
        cleared = (before.tree.removeDirectories scratch).2) ∧
      (after.tree = cleared ∨
        after.tree = (cleared.createDirectories scratch).2) := by
  have making : ∀ {workspace : Workspace},
      runFrom (StageAction.advance scratch (·.createDirectories scratch))
        workspace = (result, after) →
      (result = .ok () → after.tree.ReachesDirectory scratch) ∧
        after.tree = (workspace.tree.createDirectories scratch).2 := by
    intro workspace ran
    have reaches :=
      @reachesDirectory_of_createDirectories workspace.tree scratch
    rw [StageAction.runFrom_advance] at ran
    rcases steps : workspace.tree.createDirectories scratch with
      ⟨_ | problem, tree⟩
    · rw [steps] at ran reaches
      cases ran
      exact ⟨fun _ => reaches rfl, rfl⟩
    · rw [steps] at ran
      cases ran
      exact ⟨nofun, rfl⟩
  unfold prepareScratch at ran
  rw [runFrom_bind, runFrom_get] at ran
  dsimp only at ran
  split at ran
  · rw [runFrom_bind, StageAction.runFrom_advance] at ran
    rcases steps : before.tree.removeDirectories scratch with
      ⟨_ | problem, tree⟩
    · rw [steps] at ran
      obtain ⟨reaches, made⟩ := making ran
      exact ⟨reaches, tree, Or.inr rfl, Or.inr made⟩
    · rw [steps] at ran
      cases ran
      exact ⟨nofun, tree, Or.inr rfl, Or.inl rfl⟩
  · obtain ⟨reaches, made⟩ := making ran
    exact ⟨reaches, _, Or.inl rfl, Or.inr made⟩

/-- A file is not cleared away for a scratch directory. -/
theorem contentAt_removeDirectories (tree : FileTree) (path : Path) :
    (tree.removeDirectories path).2.contentAt path.target =
      tree.contentAt path.target := by
  unfold removeDirectories
  split
  · rfl
  · rfl
  · rename_i location found
    obtain ⟨rfl, stands⟩ := node?_target found
    have nothing : tree.contentAt path.target = none := by
      rw [contentAt, stands]
    have emptied : (tree.emptyAt path.target).contentAt path.target = none := by
      rw [contentAt, node?_emptyAt, if_neg (fun inside => inside.2 rfl), stands]
    dsimp only
    split
    · rename_i removed equal
      unfold removeEmptyDirectory at equal
      obtain ⟨⟨above, step⟩, located, result⟩ := bind_eq_ok.1 equal
      split at result
      · rename_i name slashed pair
        injection pair with same last
        subst same last
        have target := target_of_locateStep located
        cases result
        rw [← target, contentAt, node?_removeAt, if_pos ⟨List.prefix_rfl, by
          simp [target]⟩, nothing]
      all_goals cases result
    · rw [emptied, nothing]
    · rw [emptied, nothing]

/-- A change that spares everything outside scratch directories but the files
that it replaces.  A scratch directory does not take the place of a file. -/
structure ReplacesOnly (made : Location → Prop)
    (scratches replaced : List Location) (before after : FileTree) :
    Prop where
  alters : Alters made
    (fun location => (∃ scratch ∈ scratches, scratch <+: location) ∨
      location ∈ replaced) before after
  contents : before.Sound → ∀ location,
    (∀ scratch ∈ scratches, ¬Inside scratch location) →
    location ∉ replaced → after.contentAt location = before.contentAt location

namespace ReplacesOnly

variable {made more : Location → Prop} {scratches replaced : List Location}
  {first second third : FileTree}

theorem of_extends (extended : Extends made first second) :
    ReplacesOnly made scratches replaced first second where
  alters := extended.of_extends
  contents := fun sound location _ _ =>
    ((extended sound).2 location not_false).contentAt_eq

/-- A change that clears a directory away keeps a file that stands in its
place. -/
theorem of_cleared {scratch : Location}
    (alters : Alters made (scratch <+: ·) first second)
    (content : second.contentAt scratch = first.contentAt scratch) :
    ReplacesOnly made [scratch] replaced first second where
  alters := alters.mono (fun _ => id) fun _ inside => Or.inl (by simpa)
  contents := by
    intro sound location outside _
    by_cases same : location = scratch
    · rw [same, content]
    · refine ((alters sound).2 location fun inside => ?_).contentAt_eq
      exact outside scratch (by simp) ⟨inside, same⟩

/-- A change that is the same everywhere but in the scratch directories and at
the files it replaces. -/
theorem of_node? (sound : second.Sound)
    (same : ∀ location, (∀ scratch ∈ scratches, ¬Inside scratch location) →
      location ∉ replaced → second.node? location = first.node? location) :
    ReplacesOnly made scratches replaced first second where
  alters := by
    intro _
    refine ⟨sound, fun location outside => Or.inl ?_⟩
    obtain ⟨outsideScratch, notReplaced⟩ := not_or.1 outside
    refine same location (fun scratch member inside => ?_) notReplaced
    exact outsideScratch ⟨scratch, member, inside.1⟩
  contents := by
    intro _ location outside notReplaced
    rw [contentAt, same location outside notReplaced, contentAt]

theorem trans (before : ReplacesOnly made scratches replaced first second)
    (after : ReplacesOnly made scratches replaced second third) :
    ReplacesOnly made scratches replaced first third where
  alters := before.alters.trans after.alters
  contents := by
    intro sound location outside notReplaced
    rw [after.contents (before.alters sound).1 location outside notReplaced,
      before.contents sound location outside notReplaced]

theorem mono {moreScratches moreReplaced : List Location}
    (spares : ReplacesOnly made scratches replaced first second)
    (grows : ∀ location, made location → more location)
    (scratchesSubset : scratches ⊆ moreScratches)
    (replacedSubset : replaced ⊆ moreReplaced) :
    ReplacesOnly more moreScratches moreReplaced first second where
  alters := by
    refine spares.alters.mono grows fun location inside => ?_
    rcases inside with ⟨scratch, member, inside⟩ | member
    · exact Or.inl ⟨scratch, scratchesSubset member, inside⟩
    · exact Or.inr (replacedSubset member)
  contents := fun sound location outside notReplaced =>
    spares.contents sound location
      (fun scratch member => outside scratch (scratchesSubset member))
      fun member => notReplaced (replacedSubset member)

end ReplacesOnly

theorem replacesOnly_prepareScratch {scratch : Path}
    {result : Except StageError Unit}
    (ran : runFrom (prepareScratch scratch) before = (result, after)) :
    ReplacesOnly (· ∈ scratch.places) [scratch.target] [] before.tree
      after.tree := by
  obtain ⟨_, cleared, first, second⟩ := prepareScratch_steps ran
  have removed :
      ReplacesOnly (· ∈ scratch.places) [scratch.target] [] before.tree
        cleared := by
    rcases first with rfl | rfl
    · exact ReplacesOnly.of_extends (Alters.refl _ _ _)
    · exact ReplacesOnly.of_cleared (alters_removeDirectories _ _ _)
        (contentAt_removeDirectories _ _)
  rcases second with same | same
  · rw [same]
    exact removed
  · rw [same]
    exact removed.trans (.of_extends (extends_createDirectories _ _))

/-- Before the stage runs, a directory is made for it, or this has failed. -/
theorem prepareLink_cases {result : Except StageError Path}
    (ran : runFrom (prepareLink scratchRoot link) before = (result, after)) :
    ∃ middle, ReplacesOnly (MadeFor scratchRoot link)
        [(scratchOf scratchRoot link).target] [] before.tree middle ∧
      ((∃ error, result = .error error) ∧ after.tree = middle ∨
        ∃ number created, result = .ok (stagingIn link number) ∧
          middle.ReachesDirectory (scratchOf scratchRoot link) ∧
          middle.createDirectory (stagingIn link number) = .ok created ∧
          after.tree = created.tick) := by
  unfold prepareLink at ran
  rw [runFrom_bind, StageAction.runFrom_advance] at ran
  have extended : ReplacesOnly (MadeFor scratchRoot link)
      [(scratchOf scratchRoot link).target] [] before.tree
      (before.tree.createDirectories link.output.directory).2 :=
    (ReplacesOnly.of_extends (extends_createDirectories _ _)).mono
      (fun _ => Or.inl) (List.Subset.refl _) (List.Subset.refl _)
  rcases steps : before.tree.createDirectories link.output.directory with
    ⟨_ | problem, tree⟩
  · rw [steps] at ran extended
    dsimp only at ran
    rw [runFrom_bind] at ran
    rcases prepared : runFrom (prepareScratch (scratchOf scratchRoot link))
      { before with tree } with ⟨answer, later⟩
    have cleared : ReplacesOnly (MadeFor scratchRoot link)
        [(scratchOf scratchRoot link).target] [] tree later.tree :=
      (replacesOnly_prepareScratch prepared).mono (fun _ => Or.inr)
        (List.Subset.refl _) (List.Subset.refl _)
    have reaches := (prepareScratch_steps prepared).1
    refine ⟨later.tree, extended.trans cleared, ?_⟩
    rw [prepared] at ran
    cases answer with
    | error error =>
        cases ran
        exact Or.inl ⟨⟨_, rfl⟩, rfl⟩
    | ok _ =>
        dsimp only at ran
        rw [StageAction.runFrom_files] at ran
        rcases making : runFrom (FileTree.makeTemporary link.output.directory
          ".retro-stage-" id) later.tree with ⟨answer, tree⟩
        rw [making] at ran
        cases ran
        rcases makeTemporary_cases making with
          ⟨problem, rfl, rfl⟩ | ⟨number, created, rfl, made, rfl⟩
        · exact Or.inl ⟨⟨_, rfl⟩, rfl⟩
        · exact Or.inr ⟨number, created, rfl, reaches rfl, made, rfl⟩
  · rw [steps] at ran extended
    cases ran
    exact ⟨_, extended, Or.inl ⟨⟨_, rfl⟩, rfl⟩⟩

/-! ## Publishing -/

theorem publish_cases {staging scratch : Path}
    {result : Except StageError Unit} {before after : Workspace}
    (ran : runFrom (publish link input staging scratch) before =
      (result, after)) :
    ∃ answer ended,
      runFrom (link.stage.run ⟨input, stagedIn link staging, scratch⟩) before =
        (answer, ended) ∧
      ((∃ error, result = .error error) ∧ after = ended ∨
        result = .ok () ∧ answer = .ok () ∧
          ended.tree.isFile (stagedIn link staging) = true ∧
          ∃ moved, ended.tree.rename (stagedIn link staging) link.output =
              .ok moved ∧
            after = { ended with tree := moved }) := by
  unfold publish at ran
  dsimp only at ran
  rw [runFrom_bind] at ran
  rcases staged : runFrom (link.stage.run ⟨input, stagedIn link staging,
    scratch⟩) before with ⟨error | _, ended⟩
  · refine ⟨_, ended, rfl, Or.inl ?_⟩
    rw [stagedIn] at staged
    rw [staged] at ran
    cases ran
    exact ⟨⟨_, rfl⟩, rfl⟩
  · refine ⟨_, ended, rfl, ?_⟩
    rw [stagedIn] at staged
    rw [staged] at ran
    dsimp only at ran
    rw [runFrom_bind, runFrom_get] at ran
    dsimp only at ran
    by_cases there : ended.tree.isFile (stagedIn link staging) = true
    · rw [stagedIn] at there
      rw [there] at ran
      simp only [Bool.not_true, Bool.false_eq_true, if_false] at ran
      rw [StageAction.runFrom_change] at ran
      cases renamed : ended.tree.rename (stagedIn link staging) link.output with
      | error problem =>
          rw [stagedIn] at renamed
          rw [renamed] at ran
          cases ran
          exact Or.inl ⟨⟨_, rfl⟩, rfl⟩
      | ok moved =>
          refine Or.inr ?_
          rw [stagedIn] at renamed
          rw [renamed] at ran
          cases ran
          exact ⟨rfl, rfl, there, moved, rfl, rfl⟩
    · rw [stagedIn] at there
      rw [Bool.not_eq_true] at there
      rw [there] at ran
      simp only [Bool.not_false, if_true] at ran
      cases ran
      exact Or.inl ⟨⟨_, rfl⟩, rfl⟩

/-- The stage of a link is run where everything is prepared. -/
theorem prepared_stagePaths {number : Nat} {middle created : FileTree}
    (middleSound : middle.Sound)
    (reaches : middle.ReachesDirectory (scratchOf scratchRoot link))
    (made : middle.createDirectory (stagingIn link number) = .ok created) :
    (stagePaths scratchRoot link input (stagingIn link number)).Prepared
      created.tick where
  sound := by
    have extended : Extends (fun _ => True) middle created :=
      extends_createDirectory made fun _ => trivial
    exact (extended.tick middleSound).1
  directory := by
    intro place member
    rcases Path.mem_places_directory_child (text_stagingIn_ne link number)
      (properName_staged link) member with rfl | inside
    · exact node?_nil _
    · exact reachesDirectory_of_createDirectory made place inside
  fresh := by
    change created.node? (stagedIn link (stagingIn link number)).target = none
    rw [node?_created made, if_neg (by simp [target_stagedIn]),
      target_stagedIn]
    exact middleSound.rooted.none_below (List.prefix_append _ _)
      (node?_staging made)
  scratch := by
    refine reaches.mono fun location stands => ?_
    change created.node? location = some .directory
    rw [node?_created made]
    split
    · rfl
    · exact stands

/-- What a confined stage leaves as it was made for it. -/
theorem node?_of_confined {number : Nat} {created : FileTree}
    {ready ended : Workspace} {answer : Except StageError Unit}
    (confined : link.stage.Confined)
    (prepared : (stagePaths scratchRoot link input
      (stagingIn link number)).Prepared ready.tree)
    (readyTree : ready.tree = created.tick)
    (ran : runFrom (link.stage.run ⟨input, stagedIn link (stagingIn link number),
      scratchOf scratchRoot link⟩) ready = (answer, ended)) :
    ended.tree.Sound ∧ ∀ location,
      ¬(Inside (stagingIn link number).target location ∨
        Inside (scratchOf scratchRoot link).target location) →
      ended.tree.node? location = created.node? location := by
  obtain ⟨endedSound, unchanged⟩ :=
    confined ⟨input, stagedIn link (stagingIn link number),
      scratchOf scratchRoot link⟩ ready prepared prepared.sound
  rw [ran] at endedSound unchanged
  refine ⟨endedSound, fun location outside => ?_⟩
  rw [(unchanged location (by
    rwa [target_stagedIn, List.dropLast_concat])).eq, readyTree]
  rfl

/-- A link that fails alters nothing but its scratch directory.  One that
succeeds also puts at its output what its stage has written. -/
theorem runLink_cases {result : Except StageError Unit}
    (confined : link.stage.Confined)
    (avoids : link.output.Avoids (scratchOf scratchRoot link).target)
    (sound : before.tree.Sound)
    (ran : runFrom (runLink scratchRoot link input) before = (result, after)) :
    (∃ error, result = .error error) ∧
        ReplacesOnly (MadeFor scratchRoot link)
          [(scratchOf scratchRoot link).target] [] before.tree after.tree ∨
      result = .ok () ∧
        ReplacesOnly (MadeFor scratchRoot link)
          [(scratchOf scratchRoot link).target] [link.output.target]
          before.tree after.tree ∧
        ∃ content modified identity,
          product scratchRoot link input before = some content ∧
          after.tree.find link.output =
            .ok (link.output.target, .file content modified identity) := by
  rw [runLink_eq, runFrom_bind] at ran
  rcases preparing : runFrom (prepareLink scratchRoot link) before with
    ⟨prepared, ready⟩
  obtain ⟨middle, cleared, ⟨⟨error, rfl⟩, stopped⟩ |
    ⟨number, created, rfl, reaches, made, readyTree⟩⟩ :=
    prepareLink_cases preparing
  · rw [preparing] at ran
    cases ran
    rw [stopped]
    exact Or.inl ⟨⟨error, rfl⟩, cleared⟩
  · rw [preparing] at ran
    dsimp only at ran
    rw [StageAction.runFrom_finallyDo] at ran
    rcases publishing : runFrom (publish link input (stagingIn link number)
      (scratchOf scratchRoot link)) ready with ⟨answer, published⟩
    rw [publishing] at ran
    obtain ⟨rfl, whole⟩ := Prod.mk.inj ran
    have afterTree : after.tree =
        published.tree.discard (stagingIn link number) := by
      rw [← whole]
    rw [afterTree]
    have middleSound := (cleared.alters sound).1
    obtain ⟨staged, ended, staging, outcome⟩ := publish_cases publishing
    have everything : (stagePaths scratchRoot link input
        (stagingIn link number)).Prepared ready.tree := by
      rw [readyTree]
      exact prepared_stagePaths middleSound reaches made
    obtain ⟨endedSound, within⟩ :=
      node?_of_confined confined everything readyTree staging
    rcases outcome with ⟨failed, rfl⟩ | ⟨done, rfl, there, moved, renamed, rfl⟩
    · have discarded := (alters_discard (fun _ => False) published.tree
        (stagingIn link number) endedSound).1
      refine Or.inl ⟨failed, cleared.trans (.of_node? discarded ?_)⟩
      intro location outside _
      exact node?_failed middleSound made avoids within endedSound
        (outside _ (by simp))
    · obtain ⟨content, modified, identity, file⟩ := exists_file_of_isFile there
      have movedSound :=
        (alters_rename_file renamed file (fun _ => False) endedSound).1
      have discarded := (alters_discard (fun _ => False) moved
        (stagingIn link number) movedSound).1
      have found := find_published middleSound made avoids within endedSound
        file renamed
      have spared : ReplacesOnly (MadeFor scratchRoot link)
          [(scratchOf scratchRoot link).target] [link.output.target] middle
          (moved.discard (stagingIn link number)) := by
        refine .of_node? discarded fun location outside notOutput => ?_
        exact node?_published middleSound made avoids within endedSound file
          renamed (outside _ (by simp)) (by simpa using notOutput)
      refine Or.inr ⟨done, ?_, content, modified, identity, ?_, found⟩
      · exact (cleared.mono (fun _ => id) (List.Subset.refl _)
          (List.nil_subset _)).trans spared
      · have written : ended.tree.contentAt
            (stagedIn link (stagingIn link number)).target = some content := by
          rw [contentAt, file]
        unfold product
        rw [preparing]
        dsimp only [stagePaths]
        rw [staging]
        exact written

end Running

end Chain

end Deobfuscate
