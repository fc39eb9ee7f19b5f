import Deobfuscate.Cache.Lock
import Deobfuscate.Proofs.Action
import Deobfuscate.Proofs.FileTree.Change

/-!
# Taking locks

A lock is tried by opening the lock file, which is made if it is missing, and is
taken if no other lock of that file is in the way.  Nothing else that is done to
files takes or releases locks.
-/

namespace Deobfuscate

namespace FileTree

variable {tree before after : FileTree} {path : Path}

def SameLocks (before after : FileTree) : Prop :=
  after.locks = before.locks ∧ after.clock = before.clock

theorem SameLocks.refl (tree : FileTree) : SameLocks tree tree :=
  ⟨rfl, rfl⟩

theorem SameLocks.trans {later : FileTree} (first : SameLocks before after)
    (second : SameLocks after later) : SameLocks before later :=
  ⟨second.1.trans first.1, second.2.trans first.2⟩

theorem sameLocks_createDirectory
    (created : before.createDirectory path = .ok after) :
    SameLocks before after := by
  obtain ⟨_, rfl, _⟩ := createDirectory_eq_ok created
  exact ⟨rfl, rfl⟩

theorem sameLocks_createChain (tree : FileTree) (paths : List Path) :
    SameLocks tree (tree.createChain paths).2 := by
  induction paths with
  | nil => exact .refl tree
  | cons path above inductionHypothesis =>
      rw [createChain]
      split
      · exact .refl tree
      · dsimp only
        split
        · rename_i created equal
          exact sameLocks_createDirectory equal
        · split
          · rename_i problem later equal
            simpa [equal] using inductionHypothesis
          · rename_i later equal
            have reached : SameLocks tree later := by
              simpa [equal] using inductionHypothesis
            split
            · rename_i created equal
              exact reached.trans (sameLocks_createDirectory equal)
            · exact reached
        · exact .refl tree

theorem sameLocks_createDirectories (tree : FileTree) (path : Path) :
    SameLocks tree (tree.createDirectories path).2 :=
  sameLocks_createChain tree path.ancestors

theorem sameLocks_removeDirectories (tree : FileTree) (path : Path) :
    SameLocks tree (tree.removeDirectories path).2 := by
  unfold removeDirectories
  split
  · exact .refl tree
  · exact .refl tree
  · rename_i location _
    have emptied : SameLocks tree (tree.emptyAt location) := ⟨rfl, rfl⟩
    dsimp only
    split
    · rename_i removed equal
      unfold removeEmptyDirectory at equal
      obtain ⟨⟨above, step⟩, _, result⟩ := bind_eq_ok.1 equal
      split at result
      · cases result
        exact emptied
      all_goals cases result
    · exact emptied
    · exact emptied

theorem sameLocks_discard (tree : FileTree) (path : Path) :
    SameLocks tree (tree.discard path) := by
  unfold discard
  split
  · exact sameLocks_removeDirectories tree path
  · cases removed : tree.removeFile path with
    | error problem => exact .refl tree
    | ok after =>
        obtain ⟨_, rfl⟩ := removeFile_eq_ok removed
        exact ⟨rfl, rfl⟩

theorem sameLocks_rename {source target : Path}
    (renamed : before.rename source target = .ok after) :
    SameLocks before after := by
  obtain ⟨_, _, _, _, _, _, _, _, _, moved⟩ := rename_eq_ok renamed
  unfold renameAt at moved
  repeat' split at moved
  all_goals
    cases moved
  all_goals exact ⟨rfl, rfl⟩

theorem locateFile_eq_ok {location : Location}
    (located : tree.locateFile path = .ok location) :
    location = path.target ∧ ∃ above name,
      tree.locateStep path = .ok (above, .name name false) ∧
        path.target = above ++ [name] := by
  unfold locateFile at located
  obtain ⟨⟨directory, step⟩, stepped, named⟩ := bind_eq_ok.1 located
  split at named
  · rename_i above name slashed pair
    injection pair with same last
    subst same last
    cases slashed with
    | true => cases named
    | false =>
        obtain ⟨_, _, place⟩ := bind_eq_ok.1 named
        have target := target_of_locateStep stepped
        exact ⟨(Except.ok.inj place).symm.trans target.symm, _, _, stepped,
          target⟩
  · cases named

/-- A file that is opened stands where its path leads: it stood there before, or
nothing did and a new one was made. -/
theorem openOrCreate_cases {file : Nat}
    (opened : before.openOrCreate path = .ok (file, after)) :
    (∃ content modified,
        before.node? path.target = some (.file content modified file) ∧
          after = before) ∨
      before.node? path.target = none ∧ file = before.clock ∧
        after = (before.setNode path.target
          (.file [] before.clock before.clock)).tick ∧
        ∃ above name, before.locateStep path =
          .ok (above, .name name false) ∧ path.target = above ++ [name] := by
  obtain ⟨location, located, result⟩ := bind_eq_ok.1 opened
  obtain ⟨rfl, above, name, stepped, target⟩ := locateFile_eq_ok located
  cases stands : before.node? path.target with
  | none =>
      simp only [stands] at result
      obtain ⟨written, wrote, pair⟩ := bind_eq_ok.1 result
      simp only [writeAt, stands] at wrote
      cases wrote
      cases pair
      exact .inr ⟨rfl, rfl, rfl, above, name, stepped, target⟩
  | some node =>
      simp only [stands] at result
      cases node with
      | directory => cases result
      | file content modified identity =>
          cases result
          exact .inl ⟨content, modified, rfl, rfl⟩

theorem sound_openOrCreate {file : Nat} (sound : before.Sound)
    (opened : before.openOrCreate path = .ok (file, after)) :
    after.Sound := by
  obtain ⟨_, _, _, rfl⟩ | ⟨nothing, _, rfl, above, name, stepped, target⟩ :=
    openOrCreate_cases opened
  · exact sound
  · have below : path.target ≠ [] := by simp [target]
    have proper : ProperLocation path.target :=
      target ▸ properLocation_of_locateStep_name stepped
    refine ⟨(sound.formed.setNode below proper _).tick,
      sound.rooted.setNode below ?_ (.inr ?_)⟩
    · rw [target, List.dropLast_concat]
      exact sound.rooted.directory_of_locateStep stepped
    · simp [nothing]

/-- A file that is opened stands at its place, and nothing else has been
made. -/
theorem alters_openOrCreate (made : Location → Prop) {file : Nat}
    (opened : before.openOrCreate path = .ok (file, after)) :
    Alters made (· = path.target) before after := by
  intro sound
  refine ⟨sound_openOrCreate sound opened, fun location elsewhere => ?_⟩
  obtain ⟨_, _, _, rfl⟩ | ⟨_, _, rfl, _, _, _, target⟩ :=
    openOrCreate_cases opened
  · exact .inl rfl
  · have below : path.target ≠ [] := by simp [target]
    exact .inl ((node?_setNode below _ _).trans (if_neg elsewhere))

theorem node?_openOrCreate {file : Nat}
    (opened : before.openOrCreate path = .ok (file, after)) :
    ∃ content modified, after.node? path.target =
      some (.file content modified file) := by
  obtain ⟨content, modified, stands, rfl⟩ |
    ⟨_, rfl, rfl, _, _, _, target⟩ := openOrCreate_cases opened
  · exact ⟨content, modified, stands⟩
  · have below : path.target ≠ [] := by simp [target]
    exact ⟨[], before.clock, (node?_setNode below _ _).trans (if_pos rfl)⟩

theorem locks_openOrCreate {file : Nat}
    (opened : before.openOrCreate path = .ok (file, after)) :
    after.locks = before.locks := by
  obtain ⟨_, _, _, rfl⟩ | ⟨_, _, rfl, _⟩ := openOrCreate_cases opened <;> rfl

end FileTree

open FileTree

variable {before after : FileTree} {path : Path} {mode : LockMode}

def FileTree.withHeld (tree : FileTree) (held : HeldLock) : FileTree :=
  { tree with locks := held :: tree.locks }.tick

theorem FileTree.alters_withHeld (made region : Location → Prop)
    (tree : FileTree) (held : HeldLock) :
    Alters made region tree (tree.withHeld held) :=
  fun sound => ⟨⟨sound.formed.of_sublist (List.Sublist.refl _), sound.rooted⟩,
    fun _ _ => .inl rfl⟩

theorem FileTree.alters_release (made region : Location → Prop)
    (tree : FileTree) (held : HeldLock) :
    Alters made region tree (tree.release held) :=
  fun sound => ⟨⟨sound.formed.of_sublist (List.Sublist.refl _), sound.rooted⟩,
    fun _ _ => .inl rfl⟩

def lockOpened (path : Path) (mode : LockMode) :
    FileAction CacheError (Option HeldLock) := do
  let (file, tree) ← FileAction.read (·.openOrCreate path) .files
  set tree
  modifyGet fun tree => tree.lockFile file mode

theorem lockOpened_cases {result : Except CacheError (Option HeldLock)}
    (ran : runFrom (lockOpened path mode) before = (result, after)) :
    (∃ error, result = .error error) ∧ after = before ∨
      ∃ file opened, before.openOrCreate path = .ok (file, opened) ∧
        (result = .ok none ∧ after = opened ∨
          opened.isLockable file mode = true ∧
          result = .ok (some ⟨file, mode, opened.clock⟩) ∧
          after = opened.withHeld ⟨file, mode, opened.clock⟩) := by
  unfold lockOpened FileAction.read at ran
  simp only [runFrom_bind, runFrom_get] at ran
  cases opening : before.openOrCreate path with
  | error problem =>
      simp only [opening, runFrom_throw] at ran
      cases ran
      exact .inl ⟨⟨_, rfl⟩, rfl⟩
  | ok pair =>
      obtain ⟨file, opened⟩ := pair
      simp only [opening, runFrom_pure] at ran
      have locked : (.ok (opened.lockFile file mode).1,
          (opened.lockFile file mode).2) = (result, after) := ran
      refine .inr ⟨file, opened, rfl, ?_⟩
      unfold FileTree.lockFile at locked
      split at locked
      · rename_i free
        cases locked
        exact .inr ⟨free, rfl, rfl⟩
      · cases locked
        exact .inl ⟨rfl, rfl⟩

/-- After the directories above the lock file have been made, the file cannot be
opened, or another lock is in the way, or the lock is taken. -/
theorem tryLock_cases {result : Except CacheError (Option HeldLock)}
    (ran : runFrom (tryLock path mode) before = (result, after)) :
    ∃ made, (made = before ∨ ∃ parent, path.parent = some parent ∧
        made = (before.createDirectories parent).2) ∧
      ((∃ error, result = .error error) ∧ after = made ∨
        ∃ file opened, made.openOrCreate path = .ok (file, opened) ∧
          (result = .ok none ∧ after = opened ∨
            opened.isLockable file mode = true ∧
            result = .ok (some ⟨file, mode, opened.clock⟩) ∧
            after = opened.withHeld ⟨file, mode, opened.clock⟩)) := by
  cases above : path.parent with
  | none =>
      have split : tryLock path mode = lockOpened path mode := by
        unfold tryLock
        rw [above]
        rfl
      rw [split] at ran
      exact ⟨before, .inl rfl, lockOpened_cases ran⟩
  | some parent =>
      have split : tryLock path mode =
          (FileAction.advance (·.createDirectories parent) .files >>=
            fun _ => lockOpened path mode) := by
        unfold tryLock
        rw [above]
        rfl
      rw [split, runFrom_bind, FileAction.runFrom_advance] at ran
      refine ⟨(before.createDirectories parent).2,
        .inr ⟨parent, rfl, rfl⟩, ?_⟩
      rcases steps : before.createDirectories parent with ⟨_ | problem, made⟩
      · rw [steps] at ran
        exact lockOpened_cases ran
      · rw [steps] at ran
        cases ran
        exact .inl ⟨⟨_, rfl⟩, rfl⟩

theorem mode_of_tryLock {held : HeldLock}
    (ran : runFrom (tryLock path mode) before = (.ok (some held), after)) :
    held.mode = mode := by
  obtain ⟨_, _, ⟨⟨_, failed⟩, _⟩ | ⟨_, _, _, ⟨missed, _⟩ |
    ⟨_, taken, _⟩⟩⟩ := tryLock_cases ran
  · cases failed
  · cases missed
  · cases taken
    rfl

/-- Trying to take a lock makes the lock file and the directories above it, as
far as they are missing, and nothing else. -/
theorem alters_tryLock {result : Except CacheError (Option HeldLock)}
    (ran : runFrom (tryLock path mode) before = (result, after)) :
    Alters (fun _ => True) (· = path.target) before after := by
  obtain ⟨made, way, outcome⟩ := tryLock_cases ran
  have first : Alters (fun _ => True) (· = path.target) before made := by
    obtain rfl | ⟨parent, _, rfl⟩ := way
    · exact .refl _ _ _
    · exact (extends_createDirectories before parent).of_extends.mono
        (fun _ _ => trivial) fun _ => id
  obtain ⟨_, rfl⟩ | ⟨file, opened, opening, ⟨_, rfl⟩ | ⟨_, _, rfl⟩⟩ := outcome
  · exact first
  · exact first.trans (alters_openOrCreate _ opening)
  · exact (first.trans (alters_openOrCreate _ opening)).trans
      (alters_withHeld _ _ opened _)

/-- A lock that has been taken is held on the file at its path. -/
theorem held_of_tryLock {held : HeldLock}
    (ran : runFrom (tryLock path mode) before = (.ok (some held), after)) :
    held ∈ after.locks ∧ ∃ content modified,
      after.node? path.target = some (.file content modified held.file) := by
  obtain ⟨_, _, ⟨⟨_, failed⟩, _⟩ | ⟨file, opened, opening, ⟨missed, _⟩ |
    ⟨_, taken, rfl⟩⟩⟩ := tryLock_cases ran
  · cases failed
  · cases missed
  · cases taken
    obtain ⟨content, modified, stands⟩ := node?_openOrCreate opening
    exact ⟨List.mem_cons_self, content, modified, stands⟩

/-- While a file is locked exclusively, no other lock of it can be taken. -/
theorem not_tryLock_of_exclusive {held other : HeldLock} {content : Bytes}
    {modified : Nat} (sound : before.Sound)
    (stands : before.node? path.target =
      some (.file content modified held.file))
    (taken : held ∈ before.locks) (exclusive : held.mode = .exclusive) :
    runFrom (tryLock path mode) before ≠ (.ok (some other), after) := by
  intro ran
  obtain ⟨made, way, ⟨⟨_, failed⟩, _⟩ | ⟨file, opened, opening, ⟨missed, _⟩ |
    ⟨free, _⟩⟩⟩ := tryLock_cases ran
  · cases failed
  · cases missed
  · have still : made.node? path.target =
        some (.file content modified held.file) ∧
        made.locks = before.locks := by
      obtain rfl | ⟨parent, _, rfl⟩ := way
      · exact ⟨stands, rfl⟩
      · obtain ⟨_, kept⟩ := extends_createDirectories before parent sound
        exact ⟨(kept _ not_false).stands stands,
          (sameLocks_createDirectories before parent).1⟩
    have same : file = held.file := by
      obtain ⟨_, _, file, _⟩ | ⟨nothing, _⟩ := openOrCreate_cases opening
      · rw [still.1] at file
        cases file
        rfl
      · rw [still.1] at nothing
        cases nothing
    rw [isLockable, List.all_eq_true] at free
    have allowed := free held
      (by rw [locks_openOrCreate opening, still.2]; exact taken)
    simp [same, exclusive, LockMode.conflicts] at allowed

/-! ## Holding a lock -/

section Holding

variable {ε α : Type} {wrap : CacheError → ε} {middle : FileTree}
  (action : FileAction ε α)

theorem runFrom_withLock_of_lock {held : HeldLock}
    (ran : runFrom (tryLock path mode) before = (.ok (some held), middle)) :
    runFrom (withLock path mode wrap action) before =
      ((runFrom action middle).1, (runFrom action middle).2.release held) := by
  have acquired : runFrom (FileAction.mapError wrap (acquireLock path mode))
      before = (.ok held, middle) := by
    have locked : runFrom (acquireLock path mode) before =
        (.ok held, middle) := by
      rw [acquireLock, runFrom_bind, ran]
      rfl
    exact congrArg (fun ran => (ran.1.mapError wrap, ran.2)) locked
  rw [withLock, runFrom_bind, acquired]
  rfl

theorem runFrom_withLock_of_contend
    (ran : runFrom (tryLock path mode) before = (.ok none, middle)) :
    runFrom (withLock path mode wrap action) before =
      (.error (wrap (.lockTimeout path)), middle) := by
  have acquired : runFrom (FileAction.mapError wrap (acquireLock path mode))
      before = (.error (wrap (.lockTimeout path)), middle) := by
    have contended : runFrom (acquireLock path mode) before =
        (.error (.lockTimeout path), middle) := by
      rw [acquireLock, runFrom_bind, ran]
      rfl
    exact congrArg (fun ran => (ran.1.mapError wrap, ran.2)) contended
  rw [withLock, runFrom_bind, acquired]

theorem runFrom_withLock_of_error {error : CacheError}
    (ran : runFrom (tryLock path mode) before = (.error error, middle)) :
    runFrom (withLock path mode wrap action) before =
      (.error (wrap error), middle) := by
  have acquired : runFrom (FileAction.mapError wrap (acquireLock path mode))
      before = (.error (wrap error), middle) := by
    have failed : runFrom (acquireLock path mode) before =
        (.error error, middle) := by
      rw [acquireLock, runFrom_bind, ran]
    exact congrArg (fun ran => (ran.1.mapError wrap, ran.2)) failed
  rw [withLock, runFrom_bind, acquired]

end Holding

end Deobfuscate
