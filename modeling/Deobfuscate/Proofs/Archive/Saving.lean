import Deobfuscate.Archive.Artifact
import Deobfuscate.Proofs.FileTree.Temporary

/-!
# Saving artifacts
-/

namespace Deobfuscate.Artifact

/-- What stands where an artifact was saved is the zip file of its entries, and
no name stands in it twice. -/
theorem save_eq_ok {before after : FileTree} {artifact : Artifact}
    {path : Path} (sound : before.Sound)
    (ran : runFrom (artifact.save path) before = (.ok (), after)) :
    artifact.isAmbiguous = false ∧ after.Sound ∧
      ∃ modified identity, after.find path =
        .ok (path.target,
          .file (Archive.writeZip artifact.savedEntries) modified identity) := by
  unfold save at ran
  rw [runFrom_bind, FileAction.runFrom_advance] at ran
  have made := FileTree.extends_createDirectories before path.directory
  rcases steps : before.createDirectories path.directory with
    ⟨_ | problem, middle⟩
  · rw [steps] at ran made
    obtain ⟨middleSound, _⟩ := made sound
    dsimp only at ran
    rw [runFrom_bind, FileAction.runFrom_look] at ran
    dsimp only at ran
    rw [runFrom_bind, FileAction.runFrom_change] at ran
    generalize middle.freshPath path.directory ".artifact-" ".tmp" = temporary
      at ran
    cases wrote : middle.writeBytes temporary
        (Archive.writeZip artifact.savedEntries) with
    | error problem =>
        rw [wrote] at ran
        cases ran
    | ok written =>
        obtain ⟨writtenSound, _⟩ :=
          FileTree.alters_writeBytes (fun _ => False) wrote middleSound
        obtain ⟨modified, identity, file⟩ := FileTree.node?_written wrote
        rw [wrote] at ran
        dsimp only at ran
        rw [FileAction.runFrom_onError] at ran
        cases twice : artifact.isAmbiguous with
        | true =>
            rw [twice] at ran
            cases ran
        | false =>
            simp only [twice, Bool.false_eq_true, if_false,
              FileAction.runFrom_change] at ran
            cases renamed : written.rename temporary path with
            | error problem =>
                rw [renamed] at ran
                cases ran
            | ok moved =>
                rw [renamed] at ran
                cases ran
                refine ⟨rfl, ?_, modified, identity, ?_⟩
                · exact (FileTree.alters_rename_file renamed file
                    (fun _ => False) writtenSound).1
                · exact FileTree.find_rename_file renamed file
                    writtenSound.rooted
  · rw [steps] at ran
    cases ran

/-- An artifact is written under a fresh name and renamed, or what was written is
discarded. -/
private theorem alters_written {before written : FileTree} (path : Path)
    {temporary : Path} {content : Bytes} (sound : before.Sound)
    (fresh : before.exists? temporary = false)
    (wrote : before.writeBytes temporary content = .ok written)
    (made : Location → Prop) :
    FileTree.Alters made (· = path.target) before
        (written.discard temporary) ∧
      ∀ moved, written.rename temporary path = .ok moved →
        FileTree.Alters made (· = path.target) before moved := by
  obtain ⟨_, _, above, name, located, checked, target⟩ :=
    FileTree.writeBytes_eq_ok wrote
  have nothing : before.node? temporary.target = none := by
    rw [target]
    exact FileTree.node?_of_not_exists fresh
      (FileTree.locate_of_locateStep located checked)
  refine ⟨(FileTree.extends_discard_written sound nothing wrote
    made).of_extends, fun moved renamed => ?_⟩
  by_cases same : temporary.target = path.target
  · obtain ⟨_, _, file⟩ := FileTree.node?_written wrote
    obtain ⟨_, _, _, _, _, _, _, _, _, placed⟩ :=
      FileTree.rename_eq_ok renamed
    obtain ⟨_, ⟨_, rfl⟩ | ⟨apart, _⟩⟩ := FileTree.renameAt_file placed file
    · rw [← same]
      exact FileTree.alters_writeBytes made wrote
    · exact absurd (same ▸ List.prefix_rfl) apart
  · exact FileTree.alters_moved sound nothing wrote same renamed made

/-- Saving an artifact alters the place of its path and makes the directories
above it, whether or not it succeeds. -/
theorem alters_save (artifact : Artifact) (path : Path) (before : FileTree) :
    FileTree.Alters (· ∈ path.directory.places) (· = path.target) before
      (runFrom (artifact.save path) before).2 := by
  intro sound
  have made := FileTree.extends_createDirectories before path.directory
  unfold save
  rw [runFrom_bind, FileAction.runFrom_advance]
  rcases steps : before.createDirectories path.directory with
    ⟨_ | problem, middle⟩
  · rw [steps] at made
    have middleSound := (made sound).1
    dsimp only
    rw [runFrom_bind, FileAction.runFrom_look]
    dsimp only
    rw [runFrom_bind, FileAction.runFrom_change]
    have fresh : middle.exists? (middle.freshPath path.directory ".artifact-"
        ".tmp") = false :=
      FileTree.exists?_freshPath path.directory_text fun number =>
        FileTree.properName_fresh number (by decide) (by decide) (by decide)
    generalize middle.freshPath path.directory ".artifact-" ".tmp" = temporary
      at fresh ⊢
    refine (made.of_extends.trans ?_) sound
    cases wrote : middle.writeBytes temporary
        (Archive.writeZip artifact.savedEntries) with
    | error problem => exact FileTree.Alters.refl _ _ _
    | ok written =>
        obtain ⟨discarded, moves⟩ := alters_written path middleSound fresh
          wrote (· ∈ path.directory.places)
        dsimp only
        rw [FileAction.runFrom_onError]
        cases twice : artifact.isAmbiguous with
        | true => exact discarded
        | false =>
            simp only [Bool.false_eq_true, if_false]
            rw [FileAction.runFrom_change]
            cases renamed : written.rename temporary path with
            | error problem => exact discarded
            | ok moved => exact moves moved renamed
  · rw [steps] at made
    exact made.of_extends sound

/-- What is read where an artifact was saved is the artifact. -/
theorem readBytes_saved {before after : FileTree} {artifact : Artifact}
    {path : Path} {content : Bytes} (sound : before.Sound)
    (ran : runFrom (artifact.save path) before = (.ok (), after))
    (read : after.readBytes path = .ok content) :
    content = Archive.writeZip artifact.savedEntries := by
  obtain ⟨_, _, modified, identity, found⟩ := save_eq_ok sound ran
  unfold FileTree.readBytes at read
  rw [found] at read
  exact (Except.ok.inj read).symm

end Deobfuscate.Artifact
