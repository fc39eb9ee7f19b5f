import Deobfuscate.Cache.Service
import Deobfuscate.Proofs.Cache.Locking
import Deobfuscate.Proofs.FileTree.Temporary

/-!
# Where the cache keeps its files

The lock file and the directories of namespaces stand in the root of a cache,
entries and the directories that become entries in those of namespaces.  This
module says where each of these is, and what opening the lock file, making a
fresh directory, renaming it and discarding it do to everything in the cache.
-/

namespace Deobfuscate

open FileTree

namespace Path

variable {path parent : Path} {name : String} {place : Location}

/-- The directories that lead into a name in a directory are those that lead
into the directory, and the name. -/
theorem passed_into_child (written : path.text ≠ "")
    (proper : ProperName name) :
    passed [] ((path.child name).pieces ++ [""]) =
      passed [] (path.pieces ++ [""]) ++ [path.target ++ [name]] := by
  obtain ⟨notEmpty, notCurrent, notParent, _⟩ := proper
  have reached : reach [] (steps path.pieces) = path.target := by
    rw [reach_steps, target_eq_reach]
  have last : passed path.target [name, ""] = [path.target ++ [name]] := by
    simp [passed, notEmpty, notCurrent, notParent]
  rw [← passed_steps, steps_child written ⟨notEmpty, notCurrent, notParent,
    ‹_›⟩, List.append_assoc, passed_append [] _ (by simp), passed_steps]
  exact congrArg (_ ++ ·) ((congrArg (passed · [name, ""]) reached).trans last)

theorem steps_parent_child (written : path.text ≠ "")
    (proper : ProperName name) (above : (path.child name).parent = some parent) :
    steps parent.pieces = steps path.pieces := by
  obtain ⟨piece, whole, alone⟩ := steps_of_parent above
  rw [steps_child written proper] at whole
  by_cases nothing : steps [piece] = []
  · rw [alone nothing, nothing] at whole
    simp at whole
  · have kept : ¬(piece = "" ∨ piece = ".") := fun skipped =>
      nothing (steps_cons_of_skipped skipped [])
    rw [steps_cons_of_kept kept] at whole
    exact (List.concat_inj.1 (by simpa using whole)).1.symm

end Path

namespace FileTree

variable {before after : FileTree}

theorem node?_of_extends {made : Location → Prop} (sound : before.Sound)
    (extended : Extends made before after)
    (stands : ∀ place, made place → before.node? place ≠ none)
    (place : Location) : after.node? place = before.node? place := by
  obtain same | ⟨allowed, nothing, _⟩ := (extended sound).2 place not_false
  · exact same
  · exact absurd nothing (stands place allowed)

end FileTree

namespace Cache

variable {ε : Type} {cache : Cache} {space key : String}
  {tree before after : FileTree}

theorem isValidName_iff {name : String} :
    isValidName name = true ↔ ∃ first rest, name.toList = first :: rest ∧
      first ≠ '.' ∧ isForbidden first = false ∧
      rest.any isForbidden = false := by
  unfold isValidName
  cases spelled : name.toList with
  | nil => simp
  | cons first rest => simp [and_assoc]

theorem properName_of_valid {name : String}
    (valid : isValidName name = true) : ProperName name := by
  obtain ⟨first, rest, spelled, notDot, firstAllowed, restAllowed⟩ :=
    isValidName_iff.1 valid
  refine ⟨?_, ?_, ?_, ?_⟩
  · rintro rfl
    cases spelled
  · rintro rfl
    exact notDot (List.cons.inj spelled).1.symm
  · rintro rfl
    exact notDot (List.cons.inj spelled).1.symm
  · intro cut
    have allowed : isForbidden '/' = false := by
      rw [spelled] at cut
      rcases List.mem_cons.1 cut with rfl | later
      · exact firstAllowed
      · simpa using List.any_eq_false.1 restAllowed _ later
    exact absurd allowed (by decide)

/-- The name of a directory that is to become an entry. -/
def stagingName (number : Nat) : String :=
  freshName ".retro-dl-" "" number

theorem properName_staging (number : Nat) : ProperName (stagingName number) :=
  properName_fresh number (by decide) (by decide) (by decide)

/-- No entry is called like a directory that is to become one. -/
theorem not_valid_of_dotted {name : String}
    (dotted : ".retro-dl-".toList <+: name.toList) :
    isValidName name = false := by
  rw [← Bool.not_eq_true]
  intro valid
  obtain ⟨first, rest, spelled, notDot, _⟩ := isValidName_iff.1 valid
  obtain ⟨more, whole⟩ := dotted
  rw [spelled] at whole
  exact notDot (List.cons.inj whole).1.symm

theorem prefix_staging (number : Nat) :
    ".retro-dl-".toList <+: (stagingName number).toList := by
  unfold stagingName freshName
  rw [String.append_assoc, String.toList_append]
  exact List.prefix_append _ _

theorem properName_lockName : ProperName lockName := by
  decide

def place (cache : Cache) (names : Location) : Location :=
  cache.root.target ++ names

def directoryOf (cache : Cache) (space : String) : Path :=
  cache.root.child space

def entryAt (cache : Cache) (names : String × String) : Path :=
  (cache.directoryOf names.1).child names.2

def stagingIn (cache : Cache) (space : String) (number : Nat) : Path :=
  (cache.directoryOf space).child (stagingName number)

/-- The root, what lies in it, and the directories on the way there. -/
def Covers (cache : Cache) (place : Location) : Prop :=
  cache.root.target <+: place ∨ place ∈ cache.root.places

theorem covers_place (names : Location) : cache.Covers (cache.place names) :=
  .inl (List.prefix_append _ _)

section Targets

variable (written : cache.root.text ≠ "")

include written

theorem target_lockPath : cache.lockPath.target = cache.place [lockName] :=
  target_child_name written properName_lockName

theorem target_directoryOf (proper : ProperName space) :
    (cache.directoryOf space).target = cache.place [space] :=
  target_child_name written proper

theorem target_inDirectory (proper : ProperName space) {name : String}
    (named : ProperName name) :
    ((cache.directoryOf space).child name).target =
      cache.place [space, name] := by
  have nonempty : (cache.directoryOf space).text ≠ "" := text_child_ne proper
  rw [target_child_name nonempty named, target_directoryOf written proper,
    place, place, List.append_assoc]
  rfl

theorem target_entryAt (spaceValid : isValidName space = true)
    (keyValid : isValidName key = true) :
    (cache.entryAt (space, key)).target = cache.place [space, key] :=
  target_inDirectory written (properName_of_valid spaceValid)
    (properName_of_valid keyValid)

theorem target_stagingIn (valid : isValidName space = true) (number : Nat) :
    (cache.stagingIn space number).target =
      cache.place [space, stagingName number] :=
  target_inDirectory written (properName_of_valid valid)
    (properName_staging number)

/-- The way into the directory of a namespace leads through the root. -/
theorem passed_into_directoryOf (proper : ProperName space)
    {location : Location}
    (member : location ∈ Path.passed []
      ((cache.directoryOf space).pieces ++ [""])) :
    location ∈ cache.root.places ∨ location = cache.place [space] := by
  rw [directoryOf, Path.passed_into_child written proper] at member
  rcases List.mem_append.1 member with above | last
  · exact .inl (Path.mem_places_of_passed above)
  · exact .inr (List.mem_singleton.1 last)

/-- The way to an entry leads into the directory of its namespace. -/
theorem passed_to_entryAt (spaceValid : isValidName space = true)
    (keyValid : isValidName key = true) {location : Location}
    (member : location ∈ Path.passed []
      (cache.entryAt (space, key)).pieces) :
    location ∈ Path.passed [] ((cache.directoryOf space).pieces ++ [""]) ∨
      location = cache.place [space, key] := by
  have nonempty : (cache.directoryOf space).text ≠ "" :=
    text_child_ne (properName_of_valid spaceValid)
  have onward := Path.passed_subset_append [] _ [""] member
  rw [show cache.entryAt (space, key) = (cache.directoryOf space).child key
    from rfl, Path.passed_into_child nonempty (properName_of_valid keyValid),
    ← target_child_name nonempty (properName_of_valid keyValid)] at onward
  refine (List.mem_append.1 onward).imp_right fun last => ?_
  rw [List.mem_singleton.1 last]
  exact target_entryAt written spaceValid keyValid

end Targets

theorem place_inj {left right : Location} :
    cache.place left = cache.place right ↔ left = right :=
  List.append_right_inj _

theorem inside_place_iff {left right : Location} :
    cache.place left <+: cache.place right ↔ left <+: right :=
  List.prefix_append_right_inj _

theorem not_inside_place {other name : String} :
    ¬cache.place [space, name] <+: cache.place [other] := by
  intro inside
  rw [inside_place_iff] at inside
  simpa using inside.length_le

/-- Directories of two names below the root share nothing, unless they are the
same. -/
theorem place_pair_inj {other name : String} {location : Location}
    (inside : cache.place [space, key] <+: location)
    (shared : cache.place [other, name] <+: location) :
    space = other ∧ key = name := by
  have within : cache.place [space, key] <+: cache.place [other, name] :=
    List.prefix_of_prefix_length_le inside shared (by simp [place])
  have names := (inside_place_iff.1 within).eq_of_length rfl
  simpa only [List.cons.injEq, and_true] using names

/-! ## Usable caches -/

/-- The root of a cache can be used: it can be resolved, and its path does not
lead through what lies in it. -/
structure Ready (cache : Cache) (tree : FileTree) : Prop where
  sound : tree.Sound
  written : cache.root.text ≠ ""
  leads : ∀ location ∈ cache.root.places,
    tree.node? location = some .directory
  shallow : ∀ location ∈ cache.root.places,
    cache.root.target <+: location → location = cache.root.target

theorem Ready.of_same (ready : cache.Ready before) (sound : after.Sound)
    (same : ∀ location ∈ cache.root.places,
      after.node? location = before.node? location) :
    cache.Ready after :=
  ⟨sound, ready.written,
    fun location passed => (same location passed).trans
      (ready.leads location passed), ready.shallow⟩

theorem Ready.not_mem_places (ready : cache.Ready tree) {names : Location}
    (more : names ≠ []) {location : Location}
    (inside : cache.place names <+: location) :
    location ∉ cache.root.places := by
  intro passed
  have above : cache.root.target <+: location :=
    (List.prefix_append _ _).trans inside
  have lengths := inside.length_le
  have nonempty := List.length_pos_iff.2 more
  rw [ready.shallow location passed above, place, List.length_append] at lengths
  omega

def LockFile (cache : Cache) (tree : FileTree) (identity : Nat) : Prop :=
  ∃ content modified, tree.node? (cache.place [lockName]) =
    some (.file content modified identity)

theorem LockFile.unique {left right : Nat}
    (leftStands : cache.LockFile tree left)
    (rightStands : cache.LockFile tree right) : left = right := by
  obtain ⟨_, _, leftNode⟩ := leftStands
  obtain ⟨_, _, rightNode⟩ := rightStands
  rw [leftNode] at rightNode
  cases rightNode
  rfl

/-- At most the lock file has been made. -/
structure Opened (cache : Cache) (before after : FileTree) : Prop where
  sound : after.Sound
  locks : after.locks = before.locks
  clock : before.clock ≤ after.clock
  elsewhere : ∀ location, location ≠ cache.place [lockName] →
    after.node? location = before.node? location
  lockFile : before.node? (cache.place [lockName]) = none ∨
    after.node? (cache.place [lockName]) =
      before.node? (cache.place [lockName])

theorem Opened.keeps (made : cache.Opened before after) {identity : Nat}
    (file : cache.LockFile before identity) :
    cache.LockFile after identity := by
  obtain ⟨content, modified, stands⟩ := file
  obtain missing | same := made.lockFile
  · rw [missing] at stands
    cases stands
  · exact ⟨content, modified, same.trans stands⟩

section Root

variable (sound : before.Sound) (written : cache.root.text ≠ "")
  (leads : ∀ location ∈ cache.root.places,
    before.node? location = some .directory)

include sound written leads

/-- Making the directories above the lock file makes nothing: the root is
there. -/
theorem createDirectories_parent {parent : Path}
    (above : cache.lockPath.parent = some parent) :
    (before.createDirectories parent).2.Sound ∧
      SameLocks before (before.createDirectories parent).2 ∧
      ∀ location, (before.createDirectories parent).2.node? location =
        before.node? location := by
  have extended := extends_createDirectories before parent
  refine ⟨(extended sound).1, sameLocks_createDirectories before parent,
    node?_of_extends sound extended fun location made => ?_⟩
  obtain rfl | passed := Path.mem_passed_of_places made
  · simp
  · rw [← Path.passed_steps, Path.steps_parent_child written
      properName_lockName above, Path.passed_steps] at passed
    rw [leads location (Path.mem_places_of_passed passed)]
    simp

omit sound leads in
theorem opened_of_openOrCreate {file : Nat} {made : FileTree}
    (madeSound : made.Sound)
    (sameLocks : SameLocks before made)
    (same : ∀ location, made.node? location = before.node? location)
    (opened : made.openOrCreate cache.lockPath = .ok (file, after)) :
    cache.Opened before after ∧ cache.LockFile after file := by
  have sound := sound_openOrCreate madeSound opened
  have target := target_lockPath written
  obtain ⟨content, modified, stands, rfl⟩ |
      ⟨nothing, rfl, rfl, above, name, _, named⟩ := openOrCreate_cases opened
  · rw [target] at stands
    exact ⟨⟨sound, sameLocks.1, sameLocks.2.ge, fun location _ =>
      same location, .inr (same _)⟩, content, modified, stands⟩
  · have below : cache.lockPath.target ≠ [] := by simp [named]
    refine ⟨⟨sound, sameLocks.1, ?_, fun location different => ?_, .inl ?_⟩,
      [], made.clock, ?_⟩
    · have older := sameLocks.2
      simp only [tick, setNode]
      omega
    · rw [← target] at different
      exact ((node?_setNode below _ _).trans (if_neg different)).trans
        (same location)
    · rw [← same, ← target]
      exact nothing
    · rw [← target]
      exact (node?_setNode below _ _).trans (if_pos rfl)

/-- Trying the lock makes at most the lock file.  A lock that is taken is one of
the lock file, and no other lock of that file is in the way. -/
theorem opened_of_tryLock {mode : LockMode}
    {result : Except CacheError (Option HeldLock)}
    (ran : runFrom (tryLock cache.lockPath mode) before = (result, after)) :
    ∃ opened, cache.Opened before opened ∧
      (after = opened ∧ (∀ held, result ≠ .ok (some held)) ∨
        ∃ held, result = .ok (some held) ∧ held.mode = mode ∧
          held.holder = opened.clock ∧ cache.LockFile opened held.file ∧
          opened.isLockable held.file mode = true ∧
          after = opened.withHeld held) := by
  obtain ⟨made, way, outcome⟩ := tryLock_cases ran
  have unchanged : made.Sound ∧ SameLocks before made ∧
      ∀ location, made.node? location = before.node? location := by
    obtain rfl | ⟨parent, above, rfl⟩ := way
    · exact ⟨sound, .refl _, fun _ => rfl⟩
    · exact createDirectories_parent sound written leads above
  obtain ⟨madeSound, sameLocks, same⟩ := unchanged
  obtain ⟨⟨error, rfl⟩, rfl⟩ | ⟨file, opened, opening, outcome⟩ := outcome
  · exact ⟨_, ⟨madeSound, sameLocks.1, sameLocks.2.ge, fun location _ =>
      same location, .inr (same _)⟩, .inl ⟨rfl, fun _ => by simp⟩⟩
  · obtain ⟨made, lockFile⟩ :=
      opened_of_openOrCreate written madeSound sameLocks same opening
    obtain ⟨rfl, rfl⟩ | ⟨free, rfl, rfl⟩ := outcome
    · exact ⟨_, made, .inl ⟨rfl, fun _ => by simp⟩⟩
    · exact ⟨_, made, .inr ⟨_, rfl, rfl, rfl, lockFile, free, rfl⟩⟩

end Root

/-- Make a fresh directory in a directory that may have to be made first. -/
def stage (parent : Path) (wrap : CacheError → ε) : FileAction ε Path := do
  FileAction.advance (·.createDirectories parent) (wrap ∘ .files)
  FileTree.makeTemporary parent ".retro-dl-" (wrap ∘ .files)

def Accessible (tree : FileTree) (path : Path) : Prop :=
  ∃ above name, tree.locateStep path = .ok (above, .name name false) ∧
    checkName name = .ok ()

theorem Accessible.mono {path : Path} (accessible : Accessible before path)
    (stays : ∀ location, before.node? location = some .directory →
      after.node? location = some .directory) : Accessible after path := by
  obtain ⟨above, name, located, checked⟩ := accessible
  obtain ⟨others, last, followed⟩ := locateStep_eq_ok located
  refine ⟨above, name, locateStep_of_passed located fun location passed => ?_,
    checked⟩
  rw [last] at passed
  exact stays location (directory_of_passed followed passed)

theorem Ready.not_into (ready : cache.Ready tree)
    (valid : isValidName space = true) (name : String) {location : Location}
    (member : location ∈ Path.passed []
      ((cache.directoryOf space).pieces ++ [""])) :
    ¬cache.place [space, name] <+: location := by
  intro inside
  obtain passed | rfl := passed_into_directoryOf ready.written
    (properName_of_valid valid) member
  · exact ready.not_mem_places (List.cons_ne_nil _ _) inside passed
  · exact not_inside_place inside

/-- A name in the directory of a namespace stays accessible as long as that
directory stands. -/
theorem Accessible.of_stands (ready : cache.Ready after)
    (valid : isValidName space = true) {name : String}
    (proper : ProperName name)
    (accessible : Accessible before ((cache.directoryOf space).child name))
    (stands : after.node? (cache.place [space]) = some .directory) :
    Accessible after ((cache.directoryOf space).child name) := by
  have spaceProper := properName_of_valid valid
  obtain ⟨above, found, located, checked⟩ := accessible
  obtain ⟨others, last, _⟩ := locateStep_eq_ok located
  refine ⟨above, found, locateStep_of_passed located fun location passed => ?_,
    checked⟩
  rw [last, Path.passed_child (text_child_ne spaceProper) proper last] at passed
  obtain way | rfl :=
    passed_into_directoryOf ready.written spaceProper passed
  · exact ready.leads location way
  · exact stands

/-- When the directory of a namespace is made, nothing else is. -/
theorem Ready.kept_directoryOf (ready : cache.Ready before)
    (valid : isValidName space = true) {location : Location}
    (kept : Kept (· ∈ (cache.directoryOf space).places) before after
      location) :
    Kept (· = cache.place [space]) before after location := by
  refine kept.imp_right fun ⟨made, nothing, stands⟩ => ⟨?_, nothing, stands⟩
  obtain rfl | passed := Path.mem_passed_of_places made
  · rw [node?_nil] at nothing
    cases nothing
  · obtain way | same := passed_into_directoryOf ready.written
      (properName_of_valid valid) passed
    · rw [ready.leads location way] at nothing
      cases nothing
    · exact same

theorem created_stagingIn (written : cache.root.text ≠ "")
    (valid : isValidName space = true) {number : Nat} (sound : before.Sound)
    (created : before.createDirectory (cache.stagingIn space number) =
      .ok after) :
    after.Sound ∧ Accessible after (cache.stagingIn space number) ∧
      before.node? (cache.place [space, stagingName number]) = none ∧
      after.node? (cache.place [space, stagingName number]) =
        some .directory ∧
      ∀ location, location ≠ cache.place [space, stagingName number] →
        after.node? location = before.node? location := by
  have extended : Extends (fun _ => True) before after :=
    extends_createDirectory created fun _ => trivial
  have afterSound := (extended sound).1
  have target := target_stagingIn written valid number
  obtain ⟨nothing, rfl, above, name, slashed, located, checked, named⟩ :=
    createDirectory_eq_ok created
  have below : (cache.stagingIn space number).target ≠ [] := by simp [named]
  have plain : slashed = false :=
    slashed_of_child (properName_staging number) located
  subst plain
  have accessible : Accessible before (cache.stagingIn space number) :=
    ⟨above, name, located, checked⟩
  rw [target] at nothing below afterSound ⊢
  refine ⟨afterSound, accessible.mono fun location stands => ?_, nothing,
    (node?_setNode below _ _).trans (if_pos rfl), fun location different =>
      (node?_setNode below _ _).trans (if_neg different)⟩
  rw [node?_setNode below]
  split
  · rfl
  · exact stands

/-- The directory of a namespace is made if it is missing, and a fresh directory
in it, unless that fails. -/
theorem Ready.stage (ready : cache.Ready before)
    (valid : isValidName space = true) {wrap : CacheError → ε}
    {result : Except ε Path}
    (ran : runFrom (Cache.stage (cache.directoryOf space) wrap) before =
      (result, after)) :
    after.Sound ∧ after.locks = before.locks ∧ before.clock ≤ after.clock ∧
      ((∃ error, result = .error error) ∧
          (∀ location,
            Kept (· = cache.place [space]) before after location) ∨
        ∃ number, result = .ok (cache.stagingIn space number) ∧
          Accessible after (cache.stagingIn space number) ∧
          before.node? (cache.place [space, stagingName number]) = none ∧
          after.node? (cache.place [space, stagingName number]) =
            some .directory ∧
          ∀ location, location ≠ cache.place [space, stagingName number] →
            Kept (· = cache.place [space]) before after location) := by
  have extended := extends_createDirectories before (cache.directoryOf space)
  have sameLocks := sameLocks_createDirectories before (cache.directoryOf space)
  unfold Cache.stage at ran
  rw [runFrom_bind, FileAction.runFrom_advance] at ran
  rcases steps : before.createDirectories (cache.directoryOf space) with
    ⟨_ | problem, middle⟩
  · rw [steps] at ran extended sameLocks
    dsimp only at ran extended sameLocks
    obtain ⟨middleSound, keptPlaces⟩ := extended ready.sound
    have kept : ∀ location,
        Kept (· = cache.place [space]) before middle location :=
      fun location => ready.kept_directoryOf valid
        (keptPlaces location not_false)
    obtain ⟨problem, rfl, rfl⟩ | ⟨number, made, rfl, created, rfl⟩ :=
      makeTemporary_cases ran
    · exact ⟨middleSound, sameLocks.1, sameLocks.2.ge,
        .inl ⟨⟨_, rfl⟩, kept⟩⟩
    · change middle.createDirectory (cache.stagingIn space number) =
        .ok made at created
      obtain ⟨madeSound, accessible, nothing, stands, same⟩ :=
        created_stagingIn ready.written valid middleSound created
      have madeLocks := sameLocks.trans (sameLocks_createDirectory created)
      refine ⟨⟨madeSound.formed.tick, madeSound.rooted⟩, madeLocks.1, ?_,
        .inr ⟨number, rfl, accessible.mono fun _ stays => stays, ?_, stands,
          fun location different => ?_⟩⟩
      · have older := madeLocks.2
        simp only [tick]
        omega
      · by_contra something
        obtain ⟨node, stood⟩ := Option.ne_none_iff_exists'.1 something
        rw [(kept _).stands stood] at nothing
        cases nothing
      · exact (kept location).trans (.inl (same location different))
  · rw [steps] at ran extended sameLocks
    cases ran
    obtain ⟨afterSound, keptPlaces⟩ := extended ready.sound
    exact ⟨afterSound, sameLocks.1, sameLocks.2.ge, .inl ⟨⟨_, rfl⟩,
      fun location => ready.kept_directoryOf valid
        (keptPlaces location not_false)⟩⟩

/-! ## Discarding the directory -/

/-- Discarding removes the directory with everything in it, and nothing else. -/
theorem Ready.discard (ready : cache.Ready tree)
    (valid : isValidName space = true) {number : Nat}
    (accessible : Accessible tree (cache.stagingIn space number))
    (stands : tree.node? (cache.place [space, stagingName number]) =
      some .directory) :
    (tree.discard (cache.stagingIn space number)).Sound ∧
      ∀ location, (tree.discard (cache.stagingIn space number)).node? location =
        if cache.place [space, stagingName number] <+: location then none
        else tree.node? location := by
  have target := target_stagingIn ready.written valid number
  obtain ⟨above, name, located, checked⟩ := accessible
  obtain ⟨others, last, _⟩ := locateStep_eq_ok located
  rw [← target] at stands
  have gone := node?_discard_directory located checked stands (by
    intro location passed
    rw [last, Path.passed_child (text_child_ne (properName_of_valid valid))
      (properName_staging number) last] at passed
    rw [target]
    exact ready.not_into valid _ passed)
  obtain ⟨sound, kept⟩ := alters_discard (fun _ => False) tree
    (cache.stagingIn space number) ready.sound
  refine ⟨sound, fun location => ?_⟩
  rw [← target]
  split
  · rename_i inside
    exact sound.rooted.none_below inside gone
  · rename_i outside
    exact (kept location outside).eq

/-- The directory that becomes an entry is moved as a whole, and nothing else
is. -/
theorem Ready.rename (ready : cache.Ready before)
    (spaceValid : isValidName space = true)
    (keyValid : isValidName key = true) {number : Nat}
    (stands : before.node? (cache.place [space, stagingName number]) =
      some .directory)
    (nothing : before.node? (cache.place [space, key]) = none)
    (renamed : before.rename (cache.stagingIn space number)
      (cache.entryAt (space, key)) = .ok after) :
    after.Sound ∧ after.isDirectory (cache.entryAt (space, key)) = true ∧
      ∀ location, after.node? location =
        if cache.place [space, key] <+: location then
          before.node? (cache.place [space, stagingName number] ++
            location.drop (cache.place [space, key]).length)
        else if cache.place [space, stagingName number] <+: location then none
        else before.node? location := by
  have source := target_stagingIn ready.written spaceValid number
  have target := target_entryAt ready.written spaceValid keyValid
  obtain ⟨_, _, _, above, name, slashed, _, located, checked, moved⟩ :=
    rename_eq_ok renamed
  have sourceBelow : cache.place [space, stagingName number] ≠ [] := by
    simp [place]
  have below : cache.place [space, key] ≠ [] := by
    simp [place]
  rw [source, target] at moved
  have different : cache.place [space, stagingName number] ≠
      cache.place [space, key] := by
    intro same
    rw [same, nothing] at stands
    cases stands
  have apart : ¬cache.place [space, stagingName number] <+:
      cache.place [space, key] := by
    intro inside
    exact different (inside.eq_of_length (by simp [place]))
  have movedAt : after = before.moveAt
      (cache.place [space, stagingName number]) (cache.place [space, key]) := by
    unfold renameAt at moved
    simp only [stands, nothing, different, if_false] at moved
    repeat' split at moved
    all_goals
      cases moved
    rfl
  subst movedAt
  have plain : slashed = false := slashed_of_child (properName_of_valid keyValid) located
  subst plain
  have nodes := @node?_moveAt before _ _ sourceBelow below
  have parent : before.node? (cache.place [space, key]).dropLast =
      some .directory := by
    rw [← target, target_of_locateStep located, List.dropLast_concat]
    exact ready.sound.rooted.directory_of_locateStep located
  have sound : (before.moveAt (cache.place [space, stagingName number])
      (cache.place [space, key])).Sound :=
    ⟨ready.sound.formed.rename renamed,
      ready.sound.rooted.moveAt sourceBelow below apart parent⟩
  refine ⟨sound, ?_, nodes⟩
  -- The entry can be looked up: nothing that is passed on the way is moved.
  have reached := locate_of_locateStep located checked
  rw [← target_of_locateStep located] at reached
  have found : (before.moveAt (cache.place [space, stagingName number])
      (cache.place [space, key])).find (cache.entryAt (space, key)) =
        .ok ((cache.entryAt (space, key)).target, .directory) := by
    refine find_eq_ok.2 ⟨locate_of_passed reached fun location passed => ?_, ?_⟩
    · have directory := directory_of_places reached passed
      have notEntry : ¬cache.place [space, key] <+: location := by
        intro inside
        rw [ready.sound.rooted.none_below inside nothing] at directory
        cases directory
      have into := (passed_to_entryAt ready.written spaceValid keyValid
        passed).resolve_right fun last => notEntry (last ▸ List.prefix_rfl)
      rw [nodes, if_neg notEntry,
        if_neg (ready.not_into spaceValid _ into)]
      exact directory
    · rw [target, nodes, if_pos List.prefix_rfl, List.drop_length,
        List.append_nil]
      exact stands
  unfold isDirectory
  rw [found]

theorem Ready.isDirectory_entryAt (ready : cache.Ready after)
    (spaceValid : isValidName space = true)
    (keyValid : isValidName key = true)
    (present : before.isDirectory (cache.entryAt (space, key)) = true)
    (stands : after.node? (cache.place [space, key]) = some .directory) :
    after.isDirectory (cache.entryAt (space, key)) = true := by
  obtain ⟨location, found⟩ : ∃ location,
      before.find (cache.entryAt (space, key)) = .ok (location, .directory) := by
    unfold isDirectory at present
    split at present
    · exact ⟨_, ‹_›⟩
    · cases present
  have namespaceStands : after.node? (cache.place [space]) =
      some .directory := by
    have above := ready.sound.rooted _ _ stands
    simpa [place, List.dropLast_append_of_ne_nil] using above
  have again : after.find (cache.entryAt (space, key)) =
      .ok (location, .directory) := by
    refine find_of_passed found (fun place passed => ?_) ?_
    · obtain into | rfl :=
        passed_to_entryAt ready.written spaceValid keyValid passed
      · obtain way | rfl := passed_into_directoryOf ready.written
          (properName_of_valid spaceValid) into
        · exact ready.leads place way
        · exact namespaceStands
      · exact stands
    · rw [target_entryAt ready.written spaceValid keyValid]
      exact stands
  unfold isDirectory
  rw [again]

theorem node?_of_isDirectory {path : Path}
    (present : tree.isDirectory path = true) :
    tree.node? path.target = some .directory := by
  unfold isDirectory at present
  split at present
  · rename_i found
    exact (node?_target found).2
  · cases present

end Cache

end Deobfuscate
