import Deobfuscate.Proofs.Archive.Extraction
import Deobfuscate.Proofs.Cache.Interleaving

/-!
# Entries that hold what archives hold

An entry that is missing is filled in a fresh directory beside its place, while
everything that stood before stays where it was.  Archives extracted into it one
after another are the archives that were there at first, so that the directory
lists the entries of all of them, a later archive going first.
-/

namespace Deobfuscate

open FileTree

namespace FileTree

variable {before after later : FileTree} {path : Path}

def Stays (before after : FileTree) : Prop :=
  ∀ location node, before.node? location = some node →
    after.node? location = some node

theorem Stays.trans (first : Stays before after) (second : Stays after later) :
    Stays before later :=
  fun location node stands => second location node (first location node stands)

theorem Stays.find (stays : Stays before after) {location : Location}
    {node : Node} (found : before.find path = .ok (location, node)) :
    after.find path = .ok (location, node) :=
  find_of_passed found
    (fun place passed => stays place _
      (directory_of_places (find_eq_ok.1 found).1 passed))
    (stays _ _ (node?_target found).2)

theorem Stays.of_extends {made : Location → Prop} (sound : before.Sound)
    (extended : Extends made before after) : Stays before after :=
  fun location _ stands => ((extended sound).2 location not_false).stands stands

theorem isDirectory_of_stands
    (stays : ∀ place, before.node? place = some .directory →
      after.node? place = some .directory)
    (present : before.isDirectory path = true) :
    after.isDirectory path = true := by
  obtain ⟨location, found⟩ := isDirectory_iff.1 present
  exact isDirectory_iff.2 ⟨location, find_of_passed found
    (fun place passed => stays place
      (directory_of_places (find_eq_ok.1 found).1 passed))
    (stays _ (node?_target found).2)⟩

/-- Where nothing stood nothing stands below, and what stood elsewhere stays
when the place is filled. -/
theorem Stays.fills {location : Location} {initial : FileTree}
    (rooted : initial.Rooted) (apart : initial.node? location = none)
    (stays : Stays initial before)
    (fills : Archive.Fills location before after) : Stays initial after := by
  intro place node stands
  rw [fills.outside place]
  · exact stays place node stands
  · intro inside
    rw [rooted.none_below inside apart] at stands
    cases stands

/-- Something is moved away from a place that is neither above nor below the
place it is moved to. -/
theorem renameAt_eq_ok {old new : Location} {slashed : Bool}
    (renamed : before.renameAt old new slashed = .ok after)
    (different : old ≠ new) :
    ¬old <+: new ∧ ¬new <+: old ∧ after = before.moveAt old new := by
  unfold renameAt at renamed
  split at renamed
  · cases renamed
  · split at renamed
    · cases renamed
    · split at renamed
      · cases renamed
      · rename_i notAbove
        split at renamed
        · cases renamed
        · rename_i notBelow
          rw [List.isPrefixOf_iff_prefix] at notAbove notBelow
          refine ⟨notAbove, notBelow, ?_⟩
          repeat' split at renamed
          all_goals
            cases renamed
          all_goals rfl

/-- What is renamed stands with everything below it at its new place, and
nothing is left at the old one. -/
theorem below_rename {source target : Path}
    (renamed : before.rename source target = .ok after)
    (different : source.target ≠ target.target) :
    after.below target = before.below source ∧
      after.node? source.target = none := by
  obtain ⟨_, _, _, _, _, _, locatedSource, located, _, moved⟩ :=
    rename_eq_ok renamed
  have sourceBelow : source.target ≠ [] := by
    simp [target_of_locateStep locatedSource]
  have targetBelow : target.target ≠ [] := by
    simp [target_of_locateStep located]
  obtain ⟨notAbove, notBelow, rfl⟩ := renameAt_eq_ok moved different
  have nodes := @node?_moveAt before _ _ sourceBelow targetBelow
  constructor
  · funext names
    unfold below
    rw [nodes, if_pos (List.prefix_append _ _), List.drop_left]
  · rw [nodes, if_neg notBelow, if_pos List.prefix_rfl]

end FileTree

theorem Archive.openZip_of_stays {before after : FileTree} {archive : Path}
    {zipped : List Archive.ZipEntry} (stays : Stays before after)
    (opened : Archive.openZip before archive = .ok zipped) :
    Archive.openZip after archive = .ok zipped := by
  unfold Archive.openZip at opened ⊢
  cases found : before.find archive with
  | error problem =>
      rw [found] at opened
      cases opened
  | ok leads =>
      rw [found] at opened
      rw [stays.find found]
      exact opened

namespace Cache

variable {ε α : Type} {cache : Cache} {space key : String}
  {before after : FileTree} {directory : Path} {location : Location}
  {wrap : CacheError → ε}

theorem Opened.stays (made : cache.Opened before after) :
    Stays before after := by
  intro location node stands
  by_cases lock : location = cache.place [lockName]
  · obtain missing | same := made.lockFile
    · rw [lock, missing] at stands
      cases stands
    · rw [lock] at stands ⊢
      rw [same, stands]
  · rw [made.elsewhere location lock, stands]

/-- No directory appears when the lock file is opened. -/
theorem Opened.stood (made : cache.Opened before after) {identity : Nat}
    (file : cache.LockFile after identity)
    (stands : after.node? location = some .directory) :
    before.node? location = some .directory := by
  rw [← made.elsewhere location]
  · exact stands
  · rintro rfl
    obtain ⟨_, _, lock⟩ := file
    rw [lock] at stands
    cases stands

/-- What is done under the lock of a cache that has its root is done while
everything stands that stood before, and no other directory. -/
theorem withLock_eq_ok (sound : before.Sound)
    (root : before.isDirectory cache.root = true) {mode : LockMode}
    {action : FileAction ε α} {value : α}
    (ran : runFrom (withLock cache.lockPath mode wrap action) before =
      (.ok value, after)) :
    ∃ held locked later, locked.Sound ∧ Stays before locked ∧
      (∀ path, locked.isDirectory path = true →
        before.isDirectory path = true) ∧
      runFrom action locked = (.ok value, later) ∧
      after = later.release held := by
  obtain ⟨location, leads⟩ := isDirectory_iff.1 root
  obtain ⟨located, _⟩ := find_eq_ok.1 leads
  rcases tried : runFrom (tryLock cache.lockPath mode) before with
    ⟨error | _ | held, locked⟩
  · rw [runFrom_withLock_of_error _ tried] at ran
    cases ran
  · rw [runFrom_withLock_of_contend _ tried] at ran
    cases ran
  · rw [runFrom_withLock_of_lock _ tried] at ran
    obtain ⟨opened, made, ⟨_, missed⟩ | ⟨lock, taken, _, _, file, _, rfl⟩⟩ :=
      opened_of_tryLock sound (locate_eq_ok located).1
        (fun _ => directory_of_find leads) tried
    · exact absurd rfl (missed held)
    · cases taken
      have still : ∀ place, (opened.withHeld held).node? place =
          opened.node? place := fun _ => rfl
      injection ran with acted released
      exact ⟨held, opened.withHeld held, _,
        (alters_withHeld (fun _ => False) (fun _ => False) opened held
          made.sound).1, made.stays,
        fun path => isDirectory_of_stands fun place stands =>
          made.stood file ((still place).symm.trans stands),
        Prod.ext acted rfl, released.symm⟩

/-- An entry that is missing and made is published, while everything stands that
stood before. -/
theorem accessEntry_eq_ok (sound : before.Sound)
    (root : before.isDirectory cache.root = true)
    (missing : before.isDirectory (cache.entryAt (space, key)) = false)
    {populate : Path → FileAction ε Unit} {path : Path}
    (ran : runFrom (cache.accessEntry space key wrap populate) before =
      (.ok path, after)) :
    isValidName space = true ∧ isValidName key = true ∧
      path = cache.entryAt (space, key) ∧
      ∃ locked published, locked.Sound ∧ Stays before locked ∧
        runFrom (publish (cache.directoryOf space) path wrap populate) locked =
          (.ok (), published) ∧
        after.below = published.below := by
  unfold accessEntry at ran
  cases valid : cache.entryPath space key with
  | error error =>
      rw [valid] at ran
      cases ran
  | ok target =>
      obtain ⟨spaceValid, keyValid, rfl⟩ := entryPath_eq_ok valid
      rw [valid] at ran
      obtain ⟨found, checked, looked, ran⟩ := runFrom_bind_eq_ok.1 ran
      obtain ⟨shared, first, _, firstSound, firstStays, firstFewer, saw, rfl⟩ :=
        withLock_eq_ok sound root looked
      rw [FileAction.runFrom_look] at saw
      cases saw
      have absent : first.isDirectory (cache.entryAt (space, key)) = false := by
        rw [← Bool.not_eq_true] at missing ⊢
        exact fun present => missing (firstFewer _ present)
      rw [absent] at ran
      -- Releasing the shared lock changes nothing that stands.
      have stood : ∀ place, (first.release shared).node? place =
          first.node? place := fun _ => rfl
      have releasedSound := (alters_release (fun _ => False)
        (fun _ => False) first shared firstSound).1
      have releasedRoot : (first.release shared).isDirectory cache.root =
          true :=
        isDirectory_of_stands (fun place => firstStays place _) root
      obtain ⟨exclusive, second, later, secondSound, secondStays, secondFewer,
        acted, rfl⟩ := withLock_eq_ok releasedSound releasedRoot ran
      have absentAgain : second.isDirectory (cache.entryAt (space, key)) =
          false := by
        rw [← Bool.not_eq_true] at absent ⊢
        exact fun present => absent (isDirectory_of_stands
          (fun place stands => (stood place).symm.trans stands)
          (secondFewer _ present))
      rw [runFrom_bind, FileAction.runFrom_look] at acted
      dsimp only at acted
      rw [absentAgain] at acted
      obtain ⟨_, published, filled, result⟩ := runFrom_bind_eq_ok.1 acted
      cases result
      exact ⟨spaceValid, keyValid, rfl, second, later, secondSound,
        firstStays.trans secondStays, filled, rfl⟩

/-! ## Publishing a fresh directory -/

/-- A directory that is made under a name in another one can be looked up and
has nothing in it. -/
theorem created_child (sound : before.Sound) {name : String}
    (proper : ProperName name)
    (created : before.createDirectory (directory.child name) = .ok after) :
    after.Sound ∧ Stays before after ∧
      before.node? (directory.child name).target = none ∧
      after.find (directory.child name) =
        .ok ((directory.child name).target, .directory) ∧
      ∀ names, names ≠ [] →
        after.node? ((directory.child name).target ++ names) = none := by
  have extended : Extends (fun _ => True) before after :=
    extends_createDirectory created fun _ => trivial
  have stays := Stays.of_extends sound extended
  obtain ⟨nothing, rfl, above, found, slashed, located, checked, target⟩ :=
    createDirectory_eq_ok created
  have below : (directory.child name).target ≠ [] := by simp [target]
  have plain : slashed = false := slashed_of_child proper located
  subst plain
  have reached := locate_of_locateStep located checked
  rw [← target] at reached
  refine ⟨(extended sound).1, stays, nothing, find_eq_ok.2
    ⟨locate_of_passed reached fun place passed => stays place _
      (directory_of_places reached passed), ?_⟩, fun names more => ?_⟩
  · rw [node?_setNode below, if_pos rfl]
  · rw [node?_setNode below, if_neg (by simpa using more)]
    exact sound.rooted.none_below (List.prefix_append _ _) nothing

theorem target_stagingIn_ne_entryAt {number : Nat}
    (spaceValid : isValidName space = true)
    (keyValid : isValidName key = true) :
    (cache.stagingIn space number).target ≠
      (cache.entryAt (space, key)).target := by
  have written : (cache.directoryOf space).text ≠ "" :=
    text_child_ne (properName_of_valid spaceValid)
  have dotted := not_valid_of_dotted (prefix_staging number)
  rw [stagingIn, target_child_name written (properName_staging number),
    entryAt, target_child_name written (properName_of_valid keyValid)]
  intro same
  have names : stagingName number = key := by simpa using same
  rw [names, keyValid] at dotted
  cases dotted

/-- The directory that is published is fresh and empty when it is filled, and
stands with everything below it at the place of the entry afterwards. -/
theorem publish_eq_ok (sound : before.Sound)
    (spaceValid : isValidName space = true) (keyValid : isValidName key = true)
    {populate : Path → FileAction ε Unit}
    (ran : runFrom (publish (cache.directoryOf space)
      (cache.entryAt (space, key)) wrap populate) before = (.ok (), after)) :
    ∃ staging made prepared, made.Sound ∧ Stays before made ∧
      before.node? staging.target = none ∧
      made.find staging = .ok (staging.target, .directory) ∧
      (∀ names, names ≠ [] → made.node? (staging.target ++ names) = none) ∧
      runFrom (populate staging) made = (.ok (), prepared) ∧
      after.below (cache.entryAt (space, key)) = prepared.below staging := by
  unfold publish at ran
  rw [runFrom_bind, FileAction.runFrom_advance] at ran
  have extended := extends_createDirectories before (cache.directoryOf space)
  rcases steps : before.createDirectories (cache.directoryOf space) with
    ⟨_ | problem, middle⟩
  · rw [steps] at ran extended
    obtain ⟨middleSound, _⟩ := extended sound
    have middleStays := Stays.of_extends sound extended
    dsimp only at ran
    rw [runFrom_bind] at ran
    rcases fresh : runFrom (makeTemporary (cache.directoryOf space)
      ".retro-dl-" (wrap ∘ .files)) middle with ⟨result, made⟩
    rw [fresh] at ran
    obtain ⟨_, rfl, _⟩ | ⟨number, created, rfl, creating, rfl⟩ :=
      makeTemporary_cases fresh
    · cases ran
    · change middle.createDirectory (cache.stagingIn space number) =
        .ok created at creating
      change runFrom (FileAction.finallyDo (do
          populate (cache.stagingIn space number)
          FileAction.change
            (·.rename (cache.stagingIn space number)
              (cache.entryAt (space, key))) (wrap ∘ .files))
          (·.discard (cache.stagingIn space number))) created.tick = _ at ran
      obtain ⟨createdSound, createdStays, nothing, leads, empty⟩ :=
        created_child middleSound (properName_staging number) creating
      have ticked : Stays created created.tick := fun _ _ stands => stands
      obtain ⟨later, acted, discarded⟩ := FileAction.finallyDo_eq_ok ran
      obtain ⟨_, prepared, populated, moving⟩ := runFrom_bind_eq_ok.1 acted
      rw [FileAction.runFrom_change] at moving
      cases renamed : prepared.rename (cache.stagingIn space number)
          (cache.entryAt (space, key)) with
      | error problem =>
          rw [renamed] at moving
          cases moving
      | ok moved =>
          rw [renamed] at moving
          cases moving
          obtain ⟨below, gone⟩ := below_rename renamed
            (target_stagingIn_ne_entryAt spaceValid keyValid)
          rw [discard_of_none gone] at discarded
          rw [discarded]
          refine ⟨cache.stagingIn space number, created.tick, prepared,
            ⟨createdSound.formed.tick, createdSound.rooted⟩,
            (middleStays.trans createdStays).trans ticked, ?_,
            ticked.find leads, empty, populated, below⟩
          by_contra something
          obtain ⟨node, stands⟩ := Option.ne_none_iff_exists'.1 something
          change middle.node? (cache.stagingIn space number).target = none
            at nothing
          rw [middleStays _ _ stands] at nothing
          cases nothing
  · rw [steps] at ran
    cases ran

theorem entries_eq_of_plainZip {initial : FileTree} {archive : Path}
    (stays : Stays initial before)
    (plain : Archive.IsPlainZip initial archive) :
    Archive.IsPlainZip before archive ∧
      Archive.entries before archive = Archive.entries initial archive := by
  obtain ⟨zipped, opened, names⟩ := plain
  have openedLater := Archive.openZip_of_stays stays opened
  refine ⟨⟨zipped, openedLater, names⟩, ?_⟩
  rw [Archive.entries_of_openZip opened,
    Archive.entries_of_openZip openedLater]

/-- The archives that were there before the directory was made are extracted:
what it lists in the end is what it listed and their entries, the last archive
that has a name giving the entry of that name. -/
theorem lists_extractAll {initial : FileTree} (rooted : initial.Rooted)
    (apart : initial.node? location = none) {archives : List Path}
    {files : Dict Bytes} (stays : Stays initial before) (sound : before.Sound)
    (leads : before.find directory = .ok (location, .directory))
    (lists : Archive.Lists before directory files)
    (plain : ∀ archive ∈ archives, Archive.IsPlainZip initial archive)
    (ran : runFrom (extractAll directory archives) before = (.ok (), after)) :
    ∃ extracted all,
      archives.mapM (Archive.entries initial) = .ok extracted ∧
      Archive.entries after directory = .ok all ∧
      ∀ name, all.get? name =
        (extracted.reverse.findSome? fun entries => entries.get? name).or
          (files.get? name) := by
  induction archives generalizing before files with
  | nil =>
      cases ran
      exact ⟨[], files, rfl,
        (Archive.entries_directory_iff sound.formed leads).2 lists,
        fun _ => rfl⟩
  | cons archive rest inductionHypothesis =>
      obtain ⟨here, later⟩ := List.forall_mem_cons.1 plain
      rw [extractAll, runFrom_bind, FileAction.runFrom_mapError] at ran
      rcases first : runFrom (Archive.extract archive directory) before with
        ⟨error | count, middle⟩
      · rw [first] at ran
        cases ran
      · rw [first] at ran
        obtain ⟨plainNow, same⟩ := entries_eq_of_plainZip stays here
        obtain ⟨fills, entries, listed, listsMiddle, _⟩ :=
          Archive.lists_extract sound leads lists plainNow first
        obtain ⟨extracted, all, mapped, final, held⟩ := inductionHypothesis
          (stays.fills rooted apart fills) fills.sound
          (fills.find_directory leads) listsMiddle later ran
        rw [same] at listed
        refine ⟨entries :: extracted, all, ?_, final, fun name => ?_⟩
        · rw [List.mapM_cons]
          exact bind_eq_ok.2 ⟨entries, listed,
            bind_eq_ok.2 ⟨extracted, mapped, rfl⟩⟩
        · have last : [entries].findSome? (fun entries => entries.get? name) =
              entries.get? name := by
            cases bound : entries.get? name <;> simp [bound]
          rw [held, Dict.get?_insertAll entries.nodup_keys, List.reverse_cons,
            List.findSome?_append, Option.or_assoc, last]
          rfl

/-- An entry that is missing and is made of archives is published as the
directory that preparing it has left.  Before it was prepared, it listed the
entries of the archives, a later archive going first. -/
theorem accessExtracted_eq_ok (sound : before.Sound)
    (root : before.isDirectory cache.root = true)
    (missing : before.isDirectory (cache.entryAt (space, key)) = false)
    {archives : List Path}
    (plain : ∀ archive ∈ archives, Archive.IsPlainZip before archive)
    {prepare : Path → FileAction CacheError Unit} {path : Path}
    (ran : runFrom (cache.accessExtracted space key archives prepare) before =
      (.ok path, after)) :
    cache.entryPath space key = .ok path ∧
      ∃ staging filled prepared extracted all,
        archives.mapM (Archive.entries before) = .ok extracted ∧
        Archive.entries filled staging = .ok all ∧
        (∀ name, all.get? name =
          extracted.reverse.findSome? fun entries => entries.get? name) ∧
        runFrom (prepare staging) filled = (.ok (), prepared) ∧
        after.below path = prepared.below staging := by
  obtain ⟨spaceValid, keyValid, rfl, locked, published, lockedSound,
    lockedStays, publishing, below⟩ := accessEntry_eq_ok sound root missing ran
  obtain ⟨staging, made, prepared, madeSound, madeStays, nothing, leads, empty,
    populated, moved⟩ :=
    publish_eq_ok lockedSound spaceValid keyValid publishing
  obtain ⟨_, filled, extracting, preparing⟩ := runFrom_bind_eq_ok.1 populated
  have apart : before.node? staging.target = none := by
    by_contra something
    obtain ⟨node, stands⟩ := Option.ne_none_iff_exists'.1 something
    rw [lockedStays _ _ stands] at nothing
    cases nothing
  obtain ⟨extracted, all, mapped, listed, held⟩ :=
    lists_extractAll sound.rooted apart (lockedStays.trans madeStays) madeSound
      leads (Archive.lists_empty empty) plain extracting
  refine ⟨?_, staging, filled, prepared, extracted, all, mapped, listed,
    fun name => ?_, preparing, ?_⟩
  · unfold entryPath
    rw [spaceValid, keyValid]
    rfl
  · rw [held, Dict.get?_empty, Option.or_none]
  · rw [below, moved]

/-- What is extracted into an empty directory is listed there as it is in the
zip file, and as many files are counted.  So an entry that is made of archives
is published after it has held the entries of all of them, a later archive going
first, and has been prepared. -/
theorem extracted_as_listed :
    (∀ (before after : FileTree) (archive directory : Path)
      (location : Location) (count : Nat), before.Sound →
      before.find directory = .ok (location, .directory) →
      before.isEmptyAt location = true →
      Archive.IsPlainZip before archive →
      runFrom (Archive.extract archive directory) before =
        (.ok count, after) →
      ∃ extracted, Archive.entries before archive = .ok extracted ∧
        Archive.entries after directory = .ok extracted ∧
        count = extracted.size) ∧
    ∀ (cache : Cache) (before after : FileTree) (space key : String)
      (archives : List Path) (prepare : Path → FileAction CacheError Unit)
      (path : Path), before.Sound →
      before.isDirectory cache.root = true →
      before.isDirectory (cache.entryAt (space, key)) = false →
      (∀ archive ∈ archives, Archive.IsPlainZip before archive) →
      runFrom (cache.accessExtracted space key archives prepare) before =
        (.ok path, after) →
      cache.entryPath space key = .ok path ∧
        ∃ staging filled prepared extracted all,
          archives.mapM (Archive.entries before) = .ok extracted ∧
          Archive.entries filled staging = .ok all ∧
          (∀ name, all.get? name =
            extracted.reverse.findSome? fun entries => entries.get? name) ∧
          runFrom (prepare staging) filled = (.ok (), prepared) ∧
          after.below path = prepared.below staging := by
  constructor
  · intro before after archive directory location count sound leads empty plain
      ran
    exact Archive.entries_extract sound leads empty plain ran
  · intro cache before after space key archives prepare path sound root missing
      plain ran
    exact accessExtracted_eq_ok sound root missing plain ran

/-- A cache, an empty directory and two archives, the first of which has a
directory entry and a file that the second one has too. -/
def archivesTree : FileTree where
  nodes := [(["cache"], .directory), (["out"], .directory),
    (["first.zip"], .file (Archive.writeZip
      [("a", [1]), ("d/", []), ("d/b", [2])]) 0 0),
    (["second.zip"], .file (Archive.writeZip [("a", [3])]) 1 1)]
  clock := 2

def markPrepared (directory : Path) : FileAction CacheError Unit :=
  FileAction.change (·.writeBytes (directory.child "prepared") []) .files

def soloRun : Except ArchiveError Nat × FileTree :=
  runFrom (Archive.extract ⟨"first.zip"⟩ ⟨"out"⟩) archivesTree

def jointRun : Except CacheError Path × FileTree :=
  runFrom (Cache.accessExtracted ⟨⟨"cache"⟩⟩ "mcp" "snapshot"
    [⟨"first.zip"⟩, ⟨"second.zip"⟩] markPrepared) archivesTree

theorem extracted_as_listed_twice :
    (∃ extracted,
      Archive.entries archivesTree ⟨"first.zip"⟩ = .ok extracted ∧
        Archive.entries soloRun.2 ⟨"out"⟩ = .ok extracted ∧
        extracted.get? "d/b" = some [2] ∧ extracted.size = 2) ∧
      ∃ filled staging all, Archive.entries filled staging = .ok all ∧
        all.get? "a" = some [3] ∧
        all.get? "d/b" = some [2] ∧
        all.get? "prepared" = none := by
  have sound : archivesTree.Sound := by decide
  have plain : ∀ archive ∈ [(⟨"first.zip"⟩ : Path), ⟨"second.zip"⟩],
      Archive.IsPlainZip archivesTree archive := by decide +kernel
  constructor
  · have written : soloRun = (.ok 2, soloRun.2) :=
      Prod.fst_eq_iff.1 (by decide +kernel)
    obtain ⟨extracted, listed, again, counted⟩ := extracted_as_listed.1
      archivesTree soloRun.2 ⟨"first.zip"⟩ ⟨"out"⟩ ["out"] 2 sound
      (by decide) (by decide) (plain _ (by decide)) written
    have known : Archive.entries archivesTree ⟨"first.zip"⟩ =
        .ok (.ofList [("a", [1]), ("d/b", [2])]) := by
      decide +kernel
    refine ⟨extracted, listed, again, ?_, counted.symm⟩
    rw [known] at listed
    rw [← Except.ok.inj listed]
    decide
  · have published : jointRun =
        (.ok ⟨"cache/mcp/snapshot"⟩, jointRun.2) :=
      Prod.fst_eq_iff.1 (by decide +kernel)
    obtain ⟨_, staging, filled, _, extracted, all, mapped, listed, held, _⟩ :=
      extracted_as_listed.2 ⟨⟨"cache"⟩⟩ archivesTree jointRun.2 "mcp"
        "snapshot" [⟨"first.zip"⟩, ⟨"second.zip"⟩] markPrepared
        ⟨"cache/mcp/snapshot"⟩ sound (by decide) (by decide)
        plain published
    have known : [(⟨"first.zip"⟩ : Path), ⟨"second.zip"⟩].mapM
        (Archive.entries archivesTree) =
          .ok [.ofList [("a", [1]), ("d/b", [2])],
            .ofList [("a", [3])]] := by decide +kernel
    rw [known] at mapped
    rw [← Except.ok.inj mapped] at held
    refine ⟨filled, staging, all, listed, ?_, ?_, ?_⟩
    · rw [held]
      decide
    · rw [held]
      decide
    · rw [held]
      decide

end Cache

end Deobfuscate
