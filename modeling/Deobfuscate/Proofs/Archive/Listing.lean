import Deobfuscate.Archive.Basic
import Deobfuscate.Proofs.Archive.Separate
import Deobfuscate.Proofs.Digest.Walk

/-!
# Entries that are listed and entries that are read

The entries of a directory are the files to which plain names lead from it: names
without `.`, `..` and empty pieces.  The entries of a zip file are those that are
not directories.  What is read under a name is the entry of that name, unless the
name is a stray one, under which something is read although no entry has it.
-/

namespace Deobfuscate.Archive

open FileTree

variable {tree : FileTree} {archive : Path} {files : Dict Bytes}

def namesOf (text : String) : Location :=
  (⟨text⟩ : Path).pieces

def IsPlain (text : String) : Prop :=
  ProperLocation (namesOf text)

instance (text : String) : Decidable (IsPlain text) :=
  inferInstanceAs (Decidable (ProperLocation _))

theorem namesOf_ne_nil (text : String) : namesOf text ≠ [] := by
  unfold namesOf Path.pieces
  rw [Text.splitOn_eq_splitOn]
  simp [List.splitOn_ne_nil]

@[simp]
theorem relativeText_namesOf (text : String) :
    relativeText (namesOf text) = text := by
  apply String.toList_injective
  unfold relativeText namesOf Path.pieces
  rw [String.toList_intercalate, List.map_map, Text.splitOn_eq_splitOn]
  have spelled : String.toList ∘ String.ofList = id := by
    funext chars
    exact String.toList_ofList
  rw [spelled, List.map_id]
  exact List.intercalate_splitOn '/'

theorem namesOf_relativeText {below : Location} (nonempty : below ≠ [])
    (proper : ProperLocation below) : namesOf (relativeText below) = below :=
  splitOn_relativeText nonempty proper

/-- A plain name leads from a directory to the place of its names below it. -/
theorem target_child_of_isPlain {text : String} (written : archive.text ≠ "")
    (plain : IsPlain text) :
    (archive.child text).target = archive.target ++ namesOf text := by
  have target := Path.target_child written (namesOf_ne_nil text) plain
  rwa [relativeText_namesOf] at target

/-- The files that a directory lists: those to which plain names lead, each of
which is opened through its name. -/
structure Lists (tree : FileTree) (directory : Path) (files : Dict Bytes) :
    Prop where
  held : ∀ name, files.get? name =
    if IsPlain name then tree.contentAt (directory.target ++ namesOf name)
    else none
  opened : ∀ name bytes, files.get? name = some bytes →
    tree.readBytes (directory.child name) = .ok bytes

theorem readBelow_eq_ok {below : Location} {bytes : Bytes} :
    readBelow tree archive below = .ok bytes ↔
      tree.readBytes (archive.child (relativeText below)) = .ok bytes := by
  unfold readBelow
  dsimp only
  cases tree.readBytes (archive.child (relativeText below)) <;>
    simp [Except.mapError]

/-- Files are collected when all of them can be opened. -/
theorem collectFiles_eq_ok {found : List (Location × Bytes)}
    (held : ∀ file ∈ found, ∀ bytes,
      tree.readBytes (archive.child (relativeText file.1)) = .ok bytes →
        bytes = file.2)
    {base : Dict Bytes} :
    collectFiles tree archive (found.map Prod.fst) base = .ok files ↔
      (∀ file ∈ found,
        tree.readBytes (archive.child (relativeText file.1)) = .ok file.2) ∧
      files = base.insertAll
        (found.map fun file => (relativeText file.1, file.2)) := by
  induction found generalizing base with
  | nil =>
      constructor
      · intro same
        exact ⟨fun _ member => absurd member List.not_mem_nil,
          (Except.ok.inj same).symm⟩
      · rintro ⟨_, rfl⟩
        rfl
  | cons file rest inductionHypothesis =>
      have here := held file List.mem_cons_self
      rw [List.map_cons, collectFiles, bind_eq_ok, List.forall_mem_cons]
      have later := @inductionHypothesis
        fun other member => held other (List.mem_cons_of_mem _ member)
      constructor
      · rintro ⟨bytes, read, collected⟩
        rw [readBelow_eq_ok] at read
        obtain rfl := here bytes read
        obtain ⟨opened, rfl⟩ := later.1 collected
        exact ⟨⟨read, opened⟩, rfl⟩
      · rintro ⟨⟨read, opened⟩, rfl⟩
        exact ⟨_, readBelow_eq_ok.2 read, later.2 ⟨opened, rfl⟩⟩

section Directory

variable {location : Location} (formed : tree.WellFormed)
  (leads : tree.find archive = .ok (location, .directory))

include formed leads

theorem get?_filesBelow (name : String) :
    (Dict.ofList ((tree.filesBelow location).map fun file =>
        (relativeText file.1, file.2))).get? name =
      if IsPlain name then tree.contentAt (archive.target ++ namesOf name)
      else none := by
  obtain ⟨rfl, directory⟩ := node?_target leads
  have distinct : (((tree.filesBelow archive.target).map fun file =>
      (relativeText file.1, file.2)).map Prod.fst).Nodup := by
    rw [List.map_map]
    exact relativeText_distinct formed directory
  apply Option.ext
  intro bytes
  rw [Dict.get?_ofList distinct, Bindings.get?_eq_some_iff_of_nodup distinct,
    List.mem_map]
  constructor
  · rintro ⟨⟨below, content⟩, member, pair⟩
    cases pair
    have held := (mem_filesBelow formed).1 member
    have proper := properLocation_of_contentAt formed held
    have names := namesOf_relativeText (ne_nil_of_contentAt directory held)
      proper
    have plain : IsPlain (relativeText below) := by
      unfold IsPlain
      rwa [names]
    rw [if_pos plain, names]
    exact held
  · intro held
    split at held
    · refine ⟨(namesOf name, bytes), (mem_filesBelow formed).2 held, ?_⟩
      rw [relativeText_namesOf]
    · cases held

/-- A directory is listed when all that it lists can be opened. -/
theorem entries_directory_iff :
    entries tree archive = .ok files ↔ Lists tree archive files := by
  have below := get?_filesBelow formed leads
  obtain ⟨rfl, directory⟩ := node?_target leads
  unfold entries
  rw [leads]
  dsimp only
  rw [collectFiles_eq_ok]
  · constructor
    · rintro ⟨opened, rfl⟩
      refine ⟨below, fun name bytes held => ?_⟩
      change Dict.get? (Dict.ofList _) name = _ at held
      rw [below] at held
      split at held
      · have read := opened (namesOf name, bytes)
          ((mem_filesBelow formed).2 held)
        rwa [relativeText_namesOf] at read
      · cases held
    · intro lists
      have same : files = Dict.ofList ((tree.filesBelow archive.target).map
          fun file => (relativeText file.1, file.2)) := by
        refine Dict.ext_get? fun name => ?_
        rw [below, lists.held]
      refine ⟨fun file member => lists.opened _ _ ?_, same⟩
      have held := (mem_filesBelow formed).1 member
      have proper := properLocation_of_contentAt formed held
      have names := namesOf_relativeText (ne_nil_of_contentAt directory held)
        proper
      have plain : IsPlain (relativeText file.1) := by
        unfold IsPlain
        rwa [names]
      rw [lists.held, if_pos plain, names, held]
  · intro file member bytes read
    exact readBytes_child formed directory leads
      ((mem_filesBelow formed).1 member) read

end Directory

def fileEntries (zipped : List ZipEntry) : List (String × Bytes) :=
  (zipped.filter fun entry => !entry.isDirectory).map fun entry =>
    (entry.name, entry.content.1)

/-- A zip file is listed when all entries are readable and all of its files are
whole. -/
theorem collectEntries_eq_ok {zipped : List ZipEntry} {index : Nat}
    {base : Dict Bytes} :
    collectEntries archive index zipped base = .ok files ↔
      (∀ entry ∈ zipped, entry.isReadable = true ∧
        (entry.isDirectory = false → entry.content.2 = true)) ∧
      files = base.insertAll (fileEntries zipped) := by
  induction zipped generalizing index base with
  | nil =>
      constructor
      · intro same
        exact ⟨fun _ member => absurd member List.not_mem_nil,
          (Except.ok.inj same).symm⟩
      · rintro ⟨_, rfl⟩
        rfl
  | cons entry rest inductionHypothesis =>
      rw [collectEntries, List.forall_mem_cons]
      cases readable : entry.isReadable with
      | false => simp
      | true =>
          cases directory : entry.isDirectory with
          | true =>
              simp [fileEntries, directory, inductionHypothesis]
          | false =>
              unfold readEntryData
              rcases content : entry.content with ⟨bytes, _ | _⟩
              · simp [bind, Except.bind]
              · simp [bind, Except.bind, inductionHypothesis, fileEntries,
                  directory, content, Dict.insertAll]

theorem nodup_foldl_addEntry (added : List ZipEntry) {zipped : List ZipEntry}
    (distinct : (zipped.map ZipEntry.name).Nodup) :
    ((added.foldl addEntry zipped).map ZipEntry.name).Nodup := by
  induction added generalizing zipped with
  | nil => exact distinct
  | cons entry rest inductionHypothesis =>
      refine inductionHypothesis ?_
      unfold addEntry
      split
      · -- The names stay: what is replaced has the same one.
        rw [List.map_map]
        have kept : zipped.map (ZipEntry.name ∘ fun other =>
            if other.name == entry.name then entry else other) =
            zipped.map ZipEntry.name := by
          refine List.map_congr_left fun other _ => ?_
          by_cases same : other.name = entry.name
          · simp [same]
          · simp [same]
        rw [kept]
        exact distinct
      · rename_i absent
        rw [List.map_append, List.nodup_append_comm]
        refine List.nodup_cons.2 ⟨fun member => ?_, distinct⟩
        obtain ⟨other, listed, same⟩ := List.mem_map.1 member
        exact absent (List.any_eq_true.2 ⟨other, listed, beq_iff_eq.2 same⟩)

/-- No two entries of a zip file have the same name. -/
theorem nodup_names_of_openZip {zipped : List ZipEntry}
    (opened : openZip tree archive = .ok zipped) :
    (zipped.map ZipEntry.name).Nodup := by
  unfold openZip readZip at opened
  split at opened
  · cases opened
  · cases opened
  · split at opened
    · rename_i read
      obtain ⟨listed, _, whole⟩ := Option.bind_eq_some_iff.1 read
      cases opened
      cases whole
      exact nodup_foldl_addEntry listed List.nodup_nil
    · cases opened

/-! ## Reading entries -/

/-- A name under which something is read although no entry has it. -/
inductive IsStray (tree : FileTree) (archive : Path) (name : String) : Prop
  /-- A name that is not plain leads from a directory to a file. -/
  | outside (directory : tree.isDirectory archive = true)
      (file : tree.isFile (archive.child name) = true)
      (crooked : ¬IsPlain name)
  /-- A zip file has the name for a directory. -/
  | folder {zipped : List ZipEntry} {entry : ZipEntry}
      (opened : openZip tree archive = .ok zipped) (member : entry ∈ zipped)
      (directory : entry.isDirectory = true) (named : entry.name = name)

theorem readFromDirectory_eq_some {name : String} {bytes : Bytes} :
    readFromDirectory tree archive name = some bytes ↔
      tree.readBytes (archive.child name) = .ok bytes := by
  unfold readFromDirectory readBytes
  rcases tree.find (archive.child name) with _ | ⟨_, _ | ⟨content, _, _⟩⟩
  · simp [bind, Except.bind]
  · simp [bind, Except.bind]
  · simp [bind, Except.bind, pure, Except.pure]

/-- In a directory, what is read under a plain name is the entry. -/
theorem readFromDirectory_of_isPlain (lists : Lists tree archive files)
    (written : archive.text ≠ "") {name : String} (plain : IsPlain name) :
    readFromDirectory tree archive name = files.get? name := by
  apply Option.ext
  intro bytes
  rw [readFromDirectory_eq_some]
  constructor
  · intro read
    rw [lists.held, if_pos plain, ← target_child_of_isPlain written plain]
    exact contentAt_target read
  · exact lists.opened name bytes

/-- An entry of a directory is read, and what else is read is stray. -/
theorem read_directory_iff (formed : tree.WellFormed)
    (directory : tree.isDirectory archive = true)
    (listed : entries tree archive = .ok files) (name : String) :
    read tree archive name = .ok (files.get? name) ↔
      ¬IsStray tree archive name := by
  obtain ⟨location, leads⟩ := isDirectory_iff.1 directory
  have lists := (entries_directory_iff formed leads).1 listed
  obtain ⟨located, _⟩ := find_eq_ok.1 leads
  obtain ⟨written, _⟩ := locate_eq_ok located
  have unopened : ∀ zipped, openZip tree archive ≠ .ok zipped := by
    intro zipped opened
    unfold openZip at opened
    rw [leads] at opened
    cases opened
  unfold read
  rw [if_pos directory, Except.ok.injEq]
  by_cases plain : IsPlain name
  · refine iff_of_true (readFromDirectory_of_isPlain lists written plain) ?_
    rintro (⟨_, _, crooked⟩ | ⟨opened, _, _, _⟩)
    · exact crooked plain
    · exact unopened _ opened
  · rw [lists.held, if_neg plain]
    constructor
    · rintro nothing (⟨_, file, _⟩ | ⟨opened, _, _, _⟩)
      · obtain ⟨bytes, opened⟩ := isFile_iff.1 file
        rw [readFromDirectory_eq_some.2 opened] at nothing
        cases nothing
      · exact unopened _ opened
    · intro tame
      by_contra something
      obtain ⟨bytes, found⟩ := Option.ne_none_iff_exists'.1 something
      exact tame (.outside directory
        (isFile_iff.2 ⟨bytes, readFromDirectory_eq_some.1 found⟩) plain)

theorem nodup_fileEntries {zipped : List ZipEntry}
    (distinct : (zipped.map ZipEntry.name).Nodup) :
    ((fileEntries zipped).map Prod.fst).Nodup := by
  unfold fileEntries
  rw [List.map_map]
  exact distinct.sublist (List.filter_sublist.map ZipEntry.name)

theorem get?_fileEntries {zipped : List ZipEntry}
    (distinct : (zipped.map ZipEntry.name).Nodup) {name : String}
    {bytes : Bytes} :
    (Dict.ofList (fileEntries zipped)).get? name = some bytes ↔
      ∃ entry ∈ zipped, entry.isDirectory = false ∧ entry.name = name ∧
        entry.content.1 = bytes := by
  have names := nodup_fileEntries distinct
  rw [Dict.get?_ofList names, Bindings.get?_eq_some_iff_of_nodup names]
  simp [fileEntries, and_assoc]

theorem isDirectory_of_name {left right : ZipEntry}
    (same : left.name = right.name) : left.isDirectory = right.isDirectory := by
  unfold ZipEntry.isDirectory
  rw [same]

/-- A name is not listed if a zip file has it only for a directory. -/
theorem get?_fileEntries_eq_none {zipped : List ZipEntry}
    (distinct : (zipped.map ZipEntry.name).Nodup) {name : String}
    (folders : ∀ entry ∈ zipped, entry.name = name →
      entry.isDirectory = true) :
    (Dict.ofList (fileEntries zipped)).get? name = none := by
  by_contra something
  obtain ⟨bytes, held⟩ := Option.ne_none_iff_exists'.1 something
  obtain ⟨entry, member, file, named, _⟩ :=
    (get?_fileEntries distinct).1 held
  rw [folders entry member named] at file
  cases file

/-- What is not a directory is listed as a zip file. -/
theorem entries_zip_eq_ok (file : tree.isDirectory archive = false)
    (listed : entries tree archive = .ok files) :
    ∃ zipped, openZip tree archive = .ok zipped ∧
      (∀ entry ∈ zipped, entry.isReadable = true ∧
        (entry.isDirectory = false → entry.content.2 = true)) ∧
      files = Dict.ofList (fileEntries zipped) := by
  have collected : (do collectEntries archive 0 (← openZip tree archive) .empty)
      = Except.ok files := by
    unfold entries at listed
    split at listed
    · rename_i found
      unfold isDirectory at file
      rw [found] at file
      cases file
    · exact listed
  obtain ⟨zipped, opened, result⟩ := bind_eq_ok.1 collected
  exact ⟨zipped, opened, collectEntries_eq_ok.1 result⟩

/-- What is found in a zip file under a name is stray if it is a directory. -/
theorem isStray_zip_iff (file : tree.isDirectory archive = false)
    {zipped : List ZipEntry} (opened : openZip tree archive = .ok zipped)
    {name : String} :
    IsStray tree archive name ↔
      ∃ entry ∈ zipped, entry.isDirectory = true ∧ entry.name = name := by
  constructor
  · rintro (⟨directory, _, _⟩ | ⟨again, member, directory, named⟩)
    · rw [file] at directory
      cases directory
    · rw [opened] at again
      cases again
      exact ⟨_, member, directory, named⟩
  · rintro ⟨entry, member, directory, named⟩
    exact .folder opened member directory named

/-- An entry of a zip file is read, and what else is found in it is stray. -/
theorem read_zip_iff (file : tree.isDirectory archive = false)
    (listed : entries tree archive = .ok files) (name : String) :
    read tree archive name = .ok (files.get? name) ↔
      ¬IsStray tree archive name := by
  obtain ⟨zipped, opened, sound, rfl⟩ := entries_zip_eq_ok file listed
  have distinct := nodup_names_of_openZip opened
  rw [isStray_zip_iff file opened]
  unfold read
  rw [file, if_neg Bool.false_ne_true, opened]
  dsimp only [bind, Except.bind]
  cases found : zipped.find? fun entry => entry.name == name with
  | none =>
      have absent : ∀ entry ∈ zipped, entry.name ≠ name := by
        simpa using List.find?_eq_none.1 found
      rw [get?_fileEntries_eq_none distinct fun entry member named =>
        absurd named (absent entry member)]
      refine iff_of_true rfl ?_
      rintro ⟨entry, member, _, named⟩
      exact absent entry member named
  | some entry =>
      have member := List.mem_of_find?_eq_some found
      have named : entry.name = name := by
        simpa using List.find?_some found
      obtain ⟨readable, whole⟩ := sound entry member
      dsimp only
      rw [readable, if_pos rfl]
      unfold readEntryData
      -- The kind of an entry depends on its name alone.
      cases kind : entry.isDirectory with
      | true =>
          rw [get?_fileEntries_eq_none distinct fun other _ same =>
            (isDirectory_of_name (same.trans named.symm)).trans kind]
          refine iff_of_false ?_ fun tame => tame ⟨entry, member, kind, named⟩
          rcases entry.content with ⟨bytes, _ | _⟩
          · simp
          · simp [pure, Except.pure]
      | false =>
          rw [(get?_fileEntries distinct).2 ⟨entry, member, kind, named, rfl⟩]
          have complete := whole kind
          refine iff_of_true ?_ ?_
          · generalize entry.content = content at complete
            obtain ⟨bytes, whole⟩ := content
            rw [show whole = true from complete]
            rfl
          · rintro ⟨other, _, folder, same⟩
            rw [isDirectory_of_name (same.trans named.symm), kind] at folder
            cases folder

/-- What is listed is not stray. -/
theorem not_isStray_of_held (formed : tree.WellFormed)
    (listed : entries tree archive = .ok files) {name : String} {bytes : Bytes}
    (held : files.get? name = some bytes) : ¬IsStray tree archive name := by
  cases directory : tree.isDirectory archive with
  | true =>
      obtain ⟨location, leads⟩ := isDirectory_iff.1 directory
      have lists := (entries_directory_iff formed leads).1 listed
      rw [← read_directory_iff formed directory listed, held]
      unfold read
      rw [if_pos directory, readFromDirectory_eq_some.2 (lists.opened _ _ held)]
  | false =>
      obtain ⟨zipped, opened, _, rfl⟩ := entries_zip_eq_ok directory listed
      obtain ⟨entry, _, file, named, _⟩ :=
        (get?_fileEntries (nodup_names_of_openZip opened)).1 held
      rw [isStray_zip_iff directory opened]
      rintro ⟨other, _, folder, same⟩
      rw [isDirectory_of_name (same.trans named.symm), file] at folder
      cases folder

/-- What is listed is read under its name.  What is read under any name is what
is listed under it, if the name is not a stray one. -/
theorem read_eq_listed_iff (formed : tree.WellFormed)
    (listed : entries tree archive = .ok files) (name : String) :
    (∀ bytes, files.get? name = some bytes →
      read tree archive name = .ok (some bytes)) ∧
    (read tree archive name = .ok (files.get? name) ↔
      ¬IsStray tree archive name) := by
  have agrees : read tree archive name = .ok (files.get? name) ↔
      ¬IsStray tree archive name := by
    cases directory : tree.isDirectory archive with
    | true => exact read_directory_iff formed directory listed name
    | false => exact read_zip_iff directory listed name
  refine ⟨fun bytes held => ?_, agrees⟩
  rw [← held]
  exact agrees.2 (not_isStray_of_held formed listed held)

/-- A directory beside a file, and a zip file with a directory entry. -/
def mixedTree : FileTree where
  nodes := [(["t"], .directory), (["t", "d"], .directory),
    (["t", "d", "b.txt"], .file [98] 0 0), (["secret.txt"], .file [115] 1 1),
    (["z.zip"], .file (writeZip [("d/", []), ("d/b.txt", [98])]) 2 2)]
  clock := 3

theorem read_below_and_beside :
    ∃ files, entries mixedTree ⟨"t"⟩ = .ok files ∧
      files.get? "d/b.txt" = some [98] ∧
      read mixedTree ⟨"t"⟩ "d/b.txt" = .ok (some [98]) ∧
      read mixedTree ⟨"t"⟩ "d/c.txt" = .ok none ∧
      read mixedTree ⟨"t"⟩ "../secret.txt" ≠
        .ok (files.get? "../secret.txt") := by
  have formed : mixedTree.WellFormed := by decide
  have listed : entries mixedTree ⟨"t"⟩ =
      .ok (.ofList [("d/b.txt", [98])]) := by decide +kernel
  have held : (Dict.ofList [("d/b.txt", [98])] : Dict Bytes).get? "d/b.txt" =
      some [98] := by decide
  have tame : ¬IsStray mixedTree ⟨"t"⟩ "d/c.txt" := by
    rintro (⟨_, file, _⟩ | ⟨opened, _, _, _⟩)
    · revert file
      decide
    · cases opened
  have stray : IsStray mixedTree ⟨"t"⟩ "../secret.txt" :=
    .outside (by decide) (by decide) (by decide)
  refine ⟨_, listed, held,
    (read_eq_listed_iff formed listed "d/b.txt").1 _ held, ?_, ?_⟩
  · exact (read_eq_listed_iff formed listed "d/c.txt").2.2 tame
  · intro same
    exact (read_eq_listed_iff formed listed "../secret.txt").2.1 same stray

/-- Names that no entry has are read: a file outside a directory and a directory
of a zip file. -/
theorem unlisted_names_read :
    (∃ files, entries mixedTree ⟨"t"⟩ = .ok files ∧
      files.get? "../secret.txt" = none ∧
      read mixedTree ⟨"t"⟩ "../secret.txt" = .ok (some [115])) ∧
    ∃ files, entries mixedTree ⟨"z.zip"⟩ = .ok files ∧
      files.get? "d/" = none ∧
      read mixedTree ⟨"z.zip"⟩ "d/" = .ok (some []) :=
  ⟨⟨.ofList [("d/b.txt", [98])], by decide +kernel⟩,
    ⟨.ofList [("d/b.txt", [98])], by decide +kernel⟩⟩

end Deobfuscate.Archive
