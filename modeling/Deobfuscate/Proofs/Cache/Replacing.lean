import Deobfuscate.Proofs.Cache.Locking
import Deobfuscate.Proofs.FileTree.Temporary

/-!
# What replacing a file leaves alone

Replacing a file neither takes nor releases a lock, and every directory stays a
directory.  So a file at another place is read as before.
-/

namespace Deobfuscate

open FileTree

section Locks

variable {ε δ α β : Type}

def KeepsLocks (action : FileAction ε α) : Prop :=
  ∀ tree, (runFrom action tree).2.locks = tree.locks

theorem KeepsLocks.bind {action : FileAction ε α} {next : α → FileAction ε β}
    (first : KeepsLocks action) (later : ∀ value, KeepsLocks (next value)) :
    KeepsLocks (action >>= next) := by
  intro tree
  have here := first tree
  rw [runFrom_bind]
  rcases ran : runFrom action tree with ⟨error | value, reached⟩
  · rwa [ran] at here
  · rw [ran] at here
    exact (later value reached).trans here

theorem keepsLocks_throw (error : ε) :
    KeepsLocks (throw error : FileAction ε α) :=
  fun _ => rfl

theorem keepsLocks_look (view : FileTree → α) :
    KeepsLocks (FileAction.look view : FileAction ε α) :=
  fun _ => rfl

theorem keepsLocks_change {step : FileTree → Except Problem FileTree}
    {wrap : Problem → ε}
    (keeps : ∀ before after, step before = .ok after →
      after.locks = before.locks) :
    KeepsLocks (FileAction.change step wrap) := by
  intro tree
  rw [FileAction.runFrom_change]
  cases made : step tree with
  | error problem => rfl
  | ok after => exact keeps tree after made

theorem KeepsLocks.mapError {action : FileAction ε α} {wrap : ε → δ}
    (keeps : KeepsLocks action) :
    KeepsLocks (FileAction.mapError wrap action) :=
  keeps

theorem keepsLocks_createDirectories (path : Path) (wrap : Problem → ε) :
    KeepsLocks (FileAction.advance (·.createDirectories path) wrap) := by
  intro tree
  have same := (sameLocks_createDirectories tree path).1
  rw [FileAction.runFrom_advance]
  rcases steps : tree.createDirectories path with ⟨_ | problem, made⟩ <;>
    rwa [steps] at same

/-- Writing a file and renaming it leaves the locks alone. -/
theorem keepsLocks_replace {first second : Problem → ε} (temporary path : Path)
    (content : Bytes) :
    KeepsLocks (do
      FileAction.change (·.writeBytes temporary content) first
      FileAction.finallyDo
        (FileAction.change (·.rename temporary path) second)
        (·.discard temporary)) := by
  have writes : KeepsLocks
      (FileAction.change (·.writeBytes temporary content) first) :=
    keepsLocks_change fun before after written => by
      obtain ⟨_, ⟨_, _, rfl⟩, _⟩ := writeBytes_eq_ok written
      rfl
  have renames : KeepsLocks
      (FileAction.change (·.rename temporary path) second) :=
    keepsLocks_change fun before after renamed => (sameLocks_rename renamed).1
  refine writes.bind fun _ tree => ?_
  rw [FileAction.runFrom_finallyDo]
  exact (sameLocks_discard _ temporary).1.trans (renames tree)

theorem Cache.keepsLocks_atomicWrite (path : Path) (content : Bytes) :
    KeepsLocks (atomicWrite path content) := by
  unfold atomicWrite
  by_cases rootless : path.parent.isNone = true
  · rw [if_pos rootless]
    exact keepsLocks_throw _
  · rw [if_neg rootless]
    refine (keepsLocks_createDirectories _ _).bind fun _ => ?_
    cases path.fileName with
    | none => exact keepsLocks_throw _
    | some name =>
        exact (keepsLocks_look _).bind fun temporary =>
          keepsLocks_replace temporary path content

end Locks

section Directories

variable {before after : FileTree} {path : Path} {content : Bytes}

/-- A file is not renamed onto a directory. -/
theorem FileTree.not_directory_of_replace {ε : Type}
    {first second : Problem → ε} {temporary : Path}
    (ran : runFrom (do
        FileAction.change (·.writeBytes temporary content) first
        FileAction.finallyDo
          (FileAction.change (·.rename temporary path) second)
          (·.discard temporary)) before = (.ok (), after)) :
    before.node? path.target ≠ some .directory := by
  intro directory
  rw [runFrom_bind, FileAction.runFrom_change] at ran
  cases written : before.writeBytes temporary content with
  | error problem =>
      rw [written] at ran
      cases ran
  | ok middle =>
      rw [written] at ran
      dsimp only at ran
      rw [FileAction.runFrom_finallyDo, FileAction.runFrom_change] at ran
      cases renamed : middle.rename temporary path with
      | error problem =>
          rw [renamed] at ran
          cases ran
      | ok moved =>
          obtain ⟨modified, identity, file⟩ := node?_written written
          obtain ⟨notDirectory, ⟨_, _, rfl⟩, _, _, _, _, target⟩ :=
            writeBytes_eq_ok written
          have below : temporary.target ≠ [] := by simp [target]
          have different : path.target ≠ temporary.target := by
            intro same
            rw [← same] at notDirectory
            exact notDirectory directory
          obtain ⟨_, _, _, _, _, _, _, _, _, placed⟩ := rename_eq_ok renamed
          obtain ⟨_, ⟨same, _⟩ | ⟨_, _, notOnto, _⟩⟩ :=
            renameAt_file placed file
          · exact different same.symm
          · refine notOnto ?_
            exact (node?_setNode below _ _).trans
              ((if_neg different).trans directory)

/-- A directory is not replaced by a file. -/
theorem Cache.not_directory_of_atomicWrite (sound : before.Sound)
    (ran : runFrom (atomicWrite path content) before = (.ok (), after)) :
    before.node? path.target ≠ some .directory := by
  unfold atomicWrite at ran
  by_cases rootless : path.parent.isNone = true
  · rw [if_pos rootless] at ran
    cases ran
  · rw [if_neg rootless, runFrom_bind, FileAction.runFrom_advance] at ran
    obtain ⟨_, kept⟩ := extends_createDirectories before path.directory sound
    rcases steps : before.createDirectories path.directory with
      ⟨_ | problem, middle⟩
    · rw [steps] at ran kept
      dsimp only at ran kept
      cases named : path.fileName with
      | none =>
          rw [named] at ran
          cases ran
      | some name =>
          rw [named] at ran
          dsimp only at ran
          rw [runFrom_bind, FileAction.runFrom_look] at ran
          intro directory
          exact not_directory_of_replace ran
            ((kept path.target not_false).stands directory)
    · rw [steps] at ran
      cases ran

/-- Directories stay directories when a file is replaced. -/
theorem Cache.directory_of_atomicWrite (sound : before.Sound)
    {result : Except CacheError Unit}
    (ran : runFrom (atomicWrite path content) before = (result, after))
    {location : Location}
    (directory : before.node? location = some .directory) :
    after.node? location = some .directory := by
  obtain ⟨_, extended⟩ | ⟨rfl, altered, _⟩ := atomicWrite_cases sound ran
  · exact ((extended sound).2 location not_false).stands directory
  · refine ((altered sound).2 location ?_).stands directory
    rintro rfl
    exact not_directory_of_atomicWrite sound ran directory

/-- A file that stays where it is is read as before, as long as directories stay
directories. -/
theorem FileTree.readText_of_kept {made : Location → Prop} {text : String}
    (stay : ∀ location, before.node? location = some .directory →
      after.node? location = some .directory)
    (kept : Kept made before after path.target)
    (read : before.readText path = .ok text) :
    after.readText path = .ok text := by
  obtain ⟨content, bytes, decoded⟩ := bind_eq_ok.1 read
  refine bind_eq_ok.2 ⟨content, ?_, decoded⟩
  obtain ⟨⟨location, node⟩, found, result⟩ := bind_eq_ok.1 bytes
  refine bind_eq_ok.2 ⟨(location, node), find_of_passed found ?_ ?_, result⟩
  · intro place passed
    exact stay place (directory_of_places (find_eq_ok.1 found).1 passed)
  · exact kept.stands (node?_target found).2

end Directories

end Deobfuscate
