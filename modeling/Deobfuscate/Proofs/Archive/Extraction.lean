import Deobfuscate.Proofs.Action
import Deobfuscate.Proofs.Archive.Listing
import Deobfuscate.Proofs.FileTree.Change

/-!
# Extracting a zip file and listing what was extracted

Names that may be extracted lead to places below the directory they are extracted
into.  So extraction alters nothing else, and a file entry with a plain name adds
itself to what the directory lists.  After all entries the directory lists what
it listed before and the file entries of the zip file, which go first.
-/

namespace Deobfuscate.Archive

open FileTree

variable {tree before after later : FileTree} {archive directory path : Path}
  {location place : Location} {files : Dict Bytes} {text : String}

/-- Pieces that stay below some depth lead to places below the location that is
as many names above as the depth says. -/
theorem prefix_of_staysInside {root below : Location} {pieces : List String}
    (stays : staysInside below.length
      (pieces.filterMap Path.innerComponent) = true) :
    (∀ place ∈ Path.passed (root ++ below) (pieces ++ [""]),
      root <+: place) ∧ root <+: Path.reach (root ++ below) pieces := by
  induction pieces generalizing below with
  | nil =>
      simp [Path.passed, Path.reach]
  | cons piece rest inductionHypothesis =>
      have split : Path.reach (root ++ below) (piece :: rest) =
          Path.reach (Path.reach (root ++ below) [piece]) rest :=
        Path.reach_append _ [piece] rest
      rw [List.cons_append, Path.passed, split]
      by_cases skipped : piece = "" ∨ piece = "."
      · have inner : Path.innerComponent piece = none := by
          simp [Path.innerComponent, skipped]
        rw [List.filterMap_cons, inner] at stays
        rw [if_pos skipped]
        simpa [Path.reach, inner] using inductionHypothesis stays
      · rw [if_neg skipped]
        by_cases upward : piece = ".."
        · have inner : Path.innerComponent piece = some .parent := by
            simp [Path.innerComponent, upward]
          rw [List.filterMap_cons, inner] at stays
          -- There is a name to go up from, so that the root is not left.
          have deep : below ≠ [] := by
            rintro rfl
            cases stays
          have higher : staysInside below.dropLast.length
              (rest.filterMap Path.innerComponent) = true := by
            rw [List.length_dropLast]
            exact (Bool.and_eq_true_iff.1 stays).2
          rw [if_pos upward, List.dropLast_append_of_ne_nil deep]
          simpa [Path.reach, inner, Component.step,
            List.dropLast_append_of_ne_nil deep]
            using inductionHypothesis higher
        · have inner : Path.innerComponent piece = some (.name piece) := by
            simp [Path.innerComponent, skipped, upward]
          rw [List.filterMap_cons, inner] at stays
          have deeper : staysInside (below ++ [piece]).length
              (rest.filterMap Path.innerComponent) = true := by
            rw [List.length_append]
            exact stays
          have onward := inductionHypothesis deeper
          rw [if_neg upward, if_neg (by simp)]
          simpa [Path.reach, inner, Component.step] using onward

theorem pieces_of_isAbsolute (absolute : path.isAbsolute = true) :
    ∃ rest, path.pieces = "" :: rest := by
  obtain ⟨rest, spelled⟩ := List.isPrefixOf_iff_prefix.1 absolute
  refine ⟨(Text.splitOn '/' rest).map String.ofList, ?_⟩
  unfold Path.pieces
  rw [← spelled]
  simp [Text.splitOn]

/-- What may be extracted is relative, and its pieces stay inside. -/
theorem staysInside_of_isEnclosed (enclosed : isEnclosed text = true) :
    (⟨text⟩ : Path).isAbsolute = false ∧
      staysInside 0 ((⟨text⟩ : Path).pieces.filterMap Path.innerComponent) =
        true := by
  have stays : staysInside 0 (⟨text⟩ : Path).components = true :=
    (Bool.and_eq_true_iff.1 enclosed).2
  have relative : (∀ rest, (⟨text⟩ : Path).pieces ≠ "" :: rest) →
      (⟨text⟩ : Path).isAbsolute = false := by
    intro unstarted
    rw [← Bool.not_eq_true]
    intro absolute
    obtain ⟨rest, cut⟩ := pieces_of_isAbsolute absolute
    exact unstarted rest cut
  unfold Path.components at stays
  split at stays
  · rename_i cut
    exact absurd cut (namesOf_ne_nil text)
  · rename_i rest cut
    cases absolute : (⟨text⟩ : Path).isAbsolute with
    | true =>
        rw [absolute] at stays
        cases stays
    | false =>
        rw [absolute] at stays
        rw [cut]
        exact ⟨rfl, stays⟩
  · rename_i rest cut
    refine ⟨relative fun other same => ?_, ?_⟩
    · rw [cut] at same
      exact absurd (List.cons.inj same).1 (by decide)
    · rw [cut]
      exact stays
  · rename_i unstarted _
    exact ⟨relative unstarted, stays⟩

/-- A name that may be extracted leads through the directory it is extracted
into and places below that. -/
theorem mem_places_of_isEnclosed (written : directory.text ≠ "")
    (enclosed : isEnclosed text = true)
    (member : place ∈ (directory.child text).places) :
    place ∈ directory.places ∨ directory.target <+: place := by
  obtain ⟨relative, stays⟩ := staysInside_of_isEnclosed enclosed
  have steps := Path.steps_child_text written relative
  have below : staysInside ([] : Location).length
      ((Path.textSteps text.toList).filterMap Path.innerComponent) = true := by
    rw [Path.textSteps, Path.filterMap_steps]
    exact stays
  obtain ⟨passes, reaches⟩ := @prefix_of_staysInside directory.target _ _ below
  rw [List.append_nil] at passes reaches
  have reached : Path.reach [] (Path.steps directory.pieces) =
      directory.target := by
    rw [Path.reach_steps, Path.target_eq_reach]
  rcases List.mem_append.1 member with earlier | last
  · have onward := Path.passed_subset_append [] _ [""] earlier
    rw [← Path.passed_steps, steps, List.append_assoc,
      Path.passed_append [] _ (by simp), Path.passed_steps] at onward
    refine (List.mem_append.1 onward).imp Path.mem_places_of_passed ?_
    intro later
    exact passes place (reached ▸ later)
  · rw [List.mem_singleton.1 last, Path.target_eq_reach, ← Path.reach_steps,
      steps, Path.reach_append, reached]
    exact Or.inr reaches

/-- A change that keeps all directories, and everything outside of a
location. -/
structure Fills (location : Location) (before after : FileTree) : Prop where
  sound : after.Sound
  directories : ∀ place, before.node? place = some .directory →
    after.node? place = some .directory
  outside : ∀ place, ¬location <+: place →
    after.node? place = before.node? place

namespace Fills

theorem refl (sound : tree.Sound) : Fills location tree tree :=
  ⟨sound, fun _ stands => stands, fun _ _ => rfl⟩

theorem trans (first : Fills location before after)
    (second : Fills location after later) : Fills location before later :=
  ⟨second.sound, fun place stands =>
    second.directories place (first.directories place stands),
    fun place beyond =>
      (second.outside place beyond).trans (first.outside place beyond)⟩

theorem locate (fills : Fills location before after) {found : Location}
    (located : before.locate path = .ok found) :
    after.locate path = .ok found :=
  locate_of_passed located fun place passed =>
    fills.directories place (directory_of_places located passed)

theorem find_directory (fills : Fills location before after)
    {found : Location} (leads : before.find path = .ok (found, .directory)) :
    after.find path = .ok (found, .directory) := by
  obtain ⟨located, stands⟩ := find_eq_ok.1 leads
  exact find_eq_ok.2 ⟨fills.locate located, fills.directories _ stands⟩

/-- A directory lists what it listed if the contents of all files are as they
were. -/
theorem lists (fills : Fills location before after)
    (lists : Lists before directory files)
    (same : ∀ place, after.contentAt place = before.contentAt place) :
    Lists after directory files := by
  refine ⟨fun name => ?_, fun name content held => ?_⟩
  · rw [lists.held, same]
  · obtain ⟨found, located, stands⟩ :=
      readBytes_eq_ok.1 (lists.opened name content held)
    exact readBytes_eq_ok.2 ⟨found, fills.locate located,
      (same found).trans stands⟩

/-- A directory lists one file more, or with other content, if that file has
been written and the contents of all others are as they were. -/
theorem lists_insert (fills : Fills location before after)
    (lists : Lists before directory files) (written : directory.text ≠ "")
    {name : String} {bytes : Bytes} (plain : IsPlain name)
    (opened : after.readBytes (directory.child name) = .ok bytes)
    (elsewhere : ∀ place, place ≠ directory.target ++ namesOf name →
      after.contentAt place = before.contentAt place) :
    Lists after directory (files.insert name bytes) := by
  have here := contentAt_target opened
  rw [target_child_of_isPlain written plain] at here
  have apart : ∀ other, name ≠ other →
      directory.target ++ namesOf other ≠ directory.target ++ namesOf name := by
    intro other different same
    have names := congrArg relativeText (List.append_cancel_left same)
    rw [relativeText_namesOf, relativeText_namesOf] at names
    exact different names.symm
  constructor
  · intro other
    rw [Dict.get?_insert]
    split
    · rename_i same
      rw [← same, if_pos plain, here]
    · rename_i different
      rw [lists.held, elsewhere _ (apart other different)]
  · intro other content held
    rw [Dict.get?_insert] at held
    split at held
    · rename_i same
      cases held
      rw [← same]
      exact opened
    · rename_i different
      obtain ⟨found, located, stands⟩ :=
        readBytes_eq_ok.1 (lists.opened other content held)
      rw [lists.held] at held
      split at held
      · rename_i otherPlain
        have target := target_child_of_isPlain written otherPlain
        rw [← (locate_eq_ok located).2] at target
        refine readBytes_eq_ok.2 ⟨found, fills.locate located, ?_⟩
        rw [target, elsewhere _ (apart other different)]
        exact held
      · cases held

end Fills

/-- Making directories below a location only fills it, and leaves all files as
they are. -/
theorem fills_createDirectories (sound : before.Sound)
    (inside : ∀ place ∈ path.places,
      before.node? place = some .directory ∨ location <+: place) :
    Fills location before (before.createDirectories path).2 ∧
      ∀ place, (before.createDirectories path).2.contentAt place =
        before.contentAt place := by
  obtain ⟨afterSound, kept⟩ := extends_createDirectories before path sound
  refine ⟨⟨afterSound, fun place stands => (kept place not_false).stands stands,
    fun place beyond => ?_⟩, fun place => (kept place not_false).contentAt_eq⟩
  obtain same | ⟨made, nothing, _⟩ := kept place not_false
  · exact same
  · obtain stands | within := inside place made
    · rw [nothing] at stands
      cases stands
    · exact absurd within beyond

/-- Writing a file below a location only fills it, and the file can be read. -/
theorem fills_writeBytes (sound : before.Sound) {bytes : Bytes}
    (wrote : before.writeBytes path bytes = .ok after)
    (inside : location <+: path.target) :
    Fills location before after ∧ after.readBytes path = .ok bytes ∧
      ∀ place, place ≠ path.target →
        after.contentAt place = before.contentAt place := by
  obtain ⟨afterSound, _⟩ := alters_writeBytes (fun _ => False) wrote sound
  obtain ⟨notDirectory, ⟨modified, identity, rfl⟩, above, name, located,
    checked, target⟩ := writeBytes_eq_ok wrote
  have below : path.target ≠ [] := by simp [target]
  have nodes : ∀ place, (before.setNode path.target
      (.file bytes modified identity)).tick.node? place =
        if place = path.target then some (.file bytes modified identity)
        else before.node? place := node?_setNode below _
  have fills : Fills location before (before.setNode path.target
      (.file bytes modified identity)).tick := by
    refine ⟨afterSound, fun place stands => ?_, fun place beyond => ?_⟩
    · rw [nodes, if_neg]
      · exact stands
      · rintro rfl
        exact notDirectory stands
    · rw [nodes, if_neg]
      rintro rfl
      exact beyond inside
  refine ⟨fills, ?_, fun place elsewhere => ?_⟩
  · have reached := locate_of_locateStep located checked
    rw [← target] at reached
    exact readBytes_eq_ok.2 ⟨_, fills.locate reached,
      contentAt_eq_some.2 ⟨modified, identity, by rw [nodes, if_pos rfl]⟩⟩
  · unfold contentAt
    rw [nodes, if_neg elsewhere]

/-! ## Extracting entries -/

theorem extractFile_eq_ok {entry : ZipEntry}
    (ran : runFrom (extractFile entry path) before = (.ok (), after)) :
    entry.content.2 = true ∧ ∃ made,
      (made = before ∨ ∃ parent, path.parent = some parent ∧
        made = (before.createDirectories parent).2) ∧
      made.writeBytes path entry.content.1 = .ok after := by
  have finish : ∀ made, runFrom (do
      FileAction.change (·.writeBytes path entry.content.1) fun _ =>
        ArchiveError.cannotCreate path
      if !entry.content.2 then throw (.cannotExtract path)) made =
        (.ok (), after) →
      entry.content.2 = true ∧
        made.writeBytes path entry.content.1 = .ok after := by
    intro made finished
    rw [runFrom_bind, FileAction.runFrom_change] at finished
    cases wrote : made.writeBytes path entry.content.1 with
    | error problem =>
        rw [wrote] at finished
        cases finished
    | ok written =>
        rw [wrote] at finished
        cases complete : entry.content.2 with
        | false =>
            rw [complete] at finished
            cases finished
        | true =>
            rw [complete] at finished
            cases finished
            exact ⟨rfl, rfl⟩
  unfold extractFile at ran
  cases above : path.parent with
  | none =>
      rw [above] at ran
      obtain ⟨complete, wrote⟩ := finish before ran
      exact ⟨complete, before, .inl rfl, wrote⟩
  | some parent =>
      rw [above] at ran
      dsimp only at ran
      rw [runFrom_bind, FileAction.runFrom_advance] at ran
      rcases steps : before.createDirectories parent with ⟨_ | problem, made⟩
      · rw [steps] at ran
        obtain ⟨complete, wrote⟩ := finish made ran
        exact ⟨complete, made, .inr ⟨parent, rfl, by rw [steps]⟩, wrote⟩
      · rw [steps] at ran
        cases ran

section Entries

variable (sound : before.Sound)
  (leads : before.find directory = .ok (location, .directory))
  (lists : Lists before directory files)

include sound leads

/-- Making directories on the way to a name that may be extracted fills the
directory it is extracted into. -/
theorem fills_createDirectories_child (enclosed : isEnclosed text = true)
    (way : ∀ place ∈ path.places,
      place = [] ∨ place ∈ (directory.child text).places) :
    Fills location before (before.createDirectories path).2 ∧
      ∀ place, (before.createDirectories path).2.contentAt place =
        before.contentAt place := by
  refine fills_createDirectories sound fun place member => ?_
  obtain ⟨located, _⟩ := find_eq_ok.1 leads
  obtain ⟨written, target⟩ := locate_eq_ok located
  obtain rfl | onWay := way place member
  · exact .inl (node?_nil before)
  · rw [target]
    exact (mem_places_of_isEnclosed written enclosed onWay).imp_left
      (directory_of_find leads)

include lists

theorem lists_extractFile {entry : ZipEntry}
    (enclosed : isEnclosed entry.name = true) (plain : IsPlain entry.name)
    (ran : runFrom (extractFile entry (directory.child entry.name)) before =
      (.ok (), after)) :
    entry.content.2 = true ∧ Fills location before after ∧
      Lists after directory (files.insert entry.name entry.content.1) := by
  obtain ⟨located, _⟩ := find_eq_ok.1 leads
  obtain ⟨written, reached⟩ := locate_eq_ok located
  have target := target_child_of_isPlain written plain
  obtain ⟨complete, made, way, wrote⟩ := extractFile_eq_ok ran
  have prepared : Fills location before made ∧
      ∀ place, made.contentAt place = before.contentAt place := by
    obtain rfl | ⟨parent, above, rfl⟩ := way
    · exact ⟨.refl sound, fun _ => rfl⟩
    · exact fills_createDirectories_child sound leads enclosed
        fun place member => (Path.mem_places_parent above member).imp_right
          (List.mem_append_left _)
  have inside : location <+: (directory.child entry.name).target := by
    rw [target, reached]
    exact List.prefix_append _ _
  obtain ⟨fills, opened, elsewhere⟩ :=
    fills_writeBytes prepared.1.sound wrote inside
  refine ⟨complete, prepared.1.trans fills,
    (prepared.1.trans fills).lists_insert lists written plain opened
      fun place apart => ?_⟩
  rw [elsewhere place (by rwa [target]), prepared.2]

/-- When all entries have been extracted, the directory lists the files among
them too. -/
theorem lists_extractEntries {zipped : List ZipEntry} {index count : Nat}
    (plain : ∀ entry ∈ zipped, entry.isDirectory = false → IsPlain entry.name)
    (ran : runFrom (extractEntries archive directory index zipped) before =
      (.ok count, after)) :
    Fills location before after ∧
      Lists after directory (files.insertAll (fileEntries zipped)) ∧
      count = (fileEntries zipped).length ∧
      ∀ entry ∈ zipped, entry.isReadable = true ∧
        (entry.isDirectory = false → entry.content.2 = true) := by
  induction zipped generalizing before files index count with
  | nil =>
      cases ran
      exact ⟨.refl sound, lists, rfl, fun _ member =>
        absurd member List.not_mem_nil⟩
  | cons entry rest inductionHypothesis =>
      obtain ⟨here, later⟩ := List.forall_mem_cons.1 plain
      rw [extractEntries] at ran
      cases readable : entry.isReadable with
      | false =>
          rw [readable] at ran
          cases ran
      | true =>
      cases enclosed : isEnclosed entry.name with
      | false =>
          rw [readable, enclosed] at ran
          cases ran
      | true =>
      rw [readable, enclosed] at ran
      simp only [Bool.not_true, Bool.false_eq_true, if_false] at ran
      rw [List.forall_mem_cons]
      cases kind : entry.isDirectory with
      | true =>
          rw [kind, if_pos rfl, runFrom_bind,
            FileAction.runFrom_advance] at ran
          have fills := fills_createDirectories_child sound leads enclosed
            fun place => Or.inr
          rcases steps : before.createDirectories
              (directory.child entry.name) with ⟨_ | problem, made⟩
          · rw [steps] at ran fills
            obtain ⟨more, listed, counted, sane⟩ := inductionHypothesis
              fills.1.sound (fills.1.find_directory leads)
              (fills.1.lists lists fills.2) later ran
            have skipped : fileEntries (entry :: rest) = fileEntries rest := by
              simp [fileEntries, kind]
            rw [skipped]
            exact ⟨fills.1.trans more, listed, counted,
              ⟨readable, fun file => by cases file⟩, sane⟩
          · rw [steps] at ran
            cases ran
      | false =>
          rw [kind, if_neg Bool.false_ne_true] at ran
          obtain ⟨_, middle, extracted, onward⟩ := runFrom_bind_eq_ok.1 ran
          obtain ⟨number, _, extractedLater, result⟩ :=
            runFrom_bind_eq_ok.1 onward
          cases result
          obtain ⟨complete, fills, listed⟩ := lists_extractFile sound leads
            lists enclosed (here kind) extracted
          obtain ⟨more, listedLater, counted, sane⟩ := inductionHypothesis
            fills.sound (fills.find_directory leads) listed later
            extractedLater
          have added : fileEntries (entry :: rest) =
              (entry.name, entry.content.1) :: fileEntries rest := by
            simp [fileEntries, kind]
          rw [added, counted]
          exact ⟨fills.trans more, listedLater, rfl,
            ⟨readable, fun _ => complete⟩, sane⟩

end Entries

/-- A zip file whose files have plain names. -/
def IsPlainZip (tree : FileTree) (archive : Path) : Prop :=
  ∃ zipped, openZip tree archive = .ok zipped ∧
    ∀ entry ∈ zipped, entry.isDirectory = false → IsPlain entry.name

instance (tree : FileTree) (archive : Path) :
    Decidable (IsPlainZip tree archive) :=
  decidable_of_iff
    (∃ zipped ∈ (openZip tree archive).toOption,
      ∀ entry ∈ zipped, entry.isDirectory = false → IsPlain entry.name) (by
    unfold IsPlainZip
    cases openZip tree archive <;> simp [Except.toOption])

theorem entries_of_openZip {zipped : List ZipEntry}
    (opened : openZip tree archive = .ok zipped) :
    entries tree archive = collectEntries archive 0 zipped .empty := by
  unfold entries
  split
  · rename_i found
    unfold openZip at opened
    rw [found] at opened
    cases opened
  · rw [opened]
    rfl

theorem extract_eq_ok {count : Nat}
    (ran : runFrom (extract archive directory) before = (.ok count, after)) :
    ∃ zipped, openZip before archive = .ok zipped ∧
      runFrom (extractEntries archive directory 0 zipped) before =
        (.ok count, after) := by
  unfold extract at ran
  rw [runFrom_bind, FileAction.runFrom_consult] at ran
  cases opened : openZip before archive with
  | error error =>
      rw [opened] at ran
      cases ran
  | ok zipped =>
      rw [opened] at ran
      exact ⟨zipped, rfl, ran⟩

/-- A directory into which a zip file has been extracted lists what it listed
before and the entries of the zip file, which go first. -/
theorem lists_extract {count : Nat} (sound : before.Sound)
    (leads : before.find directory = .ok (location, .directory))
    (lists : Lists before directory files)
    (plain : IsPlainZip before archive)
    (ran : runFrom (extract archive directory) before = (.ok count, after)) :
    Fills location before after ∧
      ∃ extracted, entries before archive = .ok extracted ∧
        Lists after directory (files.insertAll extracted.toList) ∧
        count = extracted.size := by
  obtain ⟨zipped, opened, names⟩ := plain
  obtain ⟨again, openedAgain, ran⟩ := extract_eq_ok ran
  rw [opened] at openedAgain
  cases openedAgain
  obtain ⟨fills, listed, counted, sane⟩ :=
    lists_extractEntries sound leads lists names ran
  have distinct := nodup_fileEntries (nodup_names_of_openZip opened)
  have perm := Dict.toList_ofList_perm distinct
  refine ⟨fills, Dict.ofList (fileEntries zipped), ?_, ?_, ?_⟩
  · rw [entries_of_openZip opened]
    exact collectEntries_eq_ok.2 ⟨sane, rfl⟩
  · have same : files.insertAll (Dict.ofList (fileEntries zipped)).toList =
        files.insertAll (fileEntries zipped) := by
      refine Dict.ext_get? fun name => ?_
      rw [Dict.get?_insertAll ((perm.map Prod.fst).nodup_iff.2 distinct),
        Dict.get?_insertAll distinct, ← Dict.get?_ofList distinct]
      rfl
    rw [same]
    exact listed
  · rw [counted, Dict.size, perm.length_eq]

/-! ## Empty directories -/

/-- A directory with nothing below it lists nothing. -/
theorem lists_empty
    (nothing : ∀ names, names ≠ [] →
      tree.node? (directory.target ++ names) = none) :
    Lists tree directory .empty := by
  refine ⟨fun name => ?_, fun name bytes held => ?_⟩
  · rw [Dict.get?_empty]
    split
    · unfold contentAt
      rw [nothing _ (namesOf_ne_nil name)]
    · rfl
  · cases held

theorem node?_of_isEmptyAt (empty : tree.isEmptyAt location = true)
    {names : Location} (more : names ≠ []) :
    tree.node? (location ++ names) = none := by
  by_contra something
  obtain ⟨node, stands⟩ := Option.ne_none_iff_exists'.1 something
  have member := mem_of_node? (by simp [more]) stands
  have outside := List.all_eq_true.1 empty _ member
  have inside := List.isPrefixOf_iff_prefix.2
    (List.prefix_append location names)
  simp [more, inside] at outside

/-- What is extracted into an empty directory is listed there as it is in the
zip file. -/
theorem entries_extract {count : Nat} (sound : before.Sound)
    (leads : before.find directory = .ok (location, .directory))
    (empty : before.isEmptyAt location = true)
    (plain : IsPlainZip before archive)
    (ran : runFrom (extract archive directory) before = (.ok count, after)) :
    ∃ extracted, entries before archive = .ok extracted ∧
      entries after directory = .ok extracted ∧ count = extracted.size := by
  have nothing : ∀ names, names ≠ [] →
      before.node? (directory.target ++ names) = none := by
    obtain ⟨rfl, _⟩ := node?_target leads
    exact fun names more => node?_of_isEmptyAt empty more
  obtain ⟨fills, extracted, listed, lists, counted⟩ :=
    lists_extract sound leads (lists_empty nothing) plain ran
  refine ⟨extracted, listed, ?_, counted⟩
  have whole : Dict.empty.insertAll extracted.toList = extracted := by
    refine Dict.ext_get? fun name => ?_
    rw [Dict.get?_insertAll extracted.nodup_keys, Dict.get?_empty,
      Option.or_none]
    rfl
  rw [entries_directory_iff fills.sound.formed (fills.find_directory leads),
    ← whole]
  exact lists

end Deobfuscate.Archive
