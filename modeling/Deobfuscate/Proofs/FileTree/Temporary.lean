import Deobfuscate.Cache.Replace
import Deobfuscate.Proofs.Action
import Deobfuscate.Proofs.FileTree.Change
import Mathlib.Data.List.Nodup
import Mathlib.Data.List.Perm.Subperm

/-!
# Writing beside a place and renaming

A fresh name has nothing standing at it.  So a file that is written under a fresh
name and then renamed alters nothing but the place it is renamed to, and if it
cannot be renamed it alters nothing at all.  A fresh directory that is discarded
is gone.
-/

namespace Deobfuscate

namespace FileTree

variable {tree before after : FileTree} {path directory : Path}

theorem sixDigits_injective {left right : Nat}
    (same : sixDigits left = sixDigits right) : left = right := by
  have value : ∀ (count : Nat) (digits : List Char),
      Nat.ofDigitChars 10 (List.replicate count '0' ++ digits) 0 =
        Nat.ofDigitChars 10 digits 0 := by
    intro count digits
    induction count with
    | zero => rfl
    | succ count inductionHypothesis =>
        rw [List.replicate_succ, List.cons_append, Nat.ofDigitChars_cons]
        exact inductionHypothesis
  have read : ∀ number, Nat.ofDigitChars 10 (sixDigits number).toList 0 =
      number := by
    intro number
    unfold sixDigits
    rw [String.toList_ofList, value, Nat.repr_eq_ofList_toDigits,
      String.toList_ofList]
    exact Nat.ofDigitChars_toDigits (by decide) (by decide)
  rw [← read left, same, read right]

theorem mem_sixDigits {number : Nat} {char : Char}
    (member : char ∈ (sixDigits number).toList) : char.isDigit = true := by
  unfold sixDigits at member
  rw [String.toList_ofList, Nat.repr_eq_ofList_toDigits,
    String.toList_ofList] at member
  rcases List.mem_append.1 member with padding | digit
  · rw [List.eq_of_mem_replicate padding]
    rfl
  · exact Nat.isDigit_of_mem_toDigits (by decide) (by decide) digit

/-- A name of more than two characters without separators is proper. -/
theorem properName_of_long {name : String} (long : 2 < name.length)
    (uncut : '/' ∉ name.toList) : ProperName name := by
  refine ⟨?_, ?_, ?_, uncut⟩
  · rintro rfl
    exact absurd long (by decide)
  · rintro rfl
    exact absurd long (by decide)
  · rintro rfl
    exact absurd long (by decide)

/-- A number between two texts without separators is a proper name. -/
theorem properName_fresh {start ending : String} (number : Nat)
    (long : 2 < start.length) (startCut : '/' ∉ start.toList)
    (endingCut : '/' ∉ ending.toList) :
    ProperName (freshName start ending number) := by
  refine properName_of_long ?_ ?_
  · simp only [freshName, String.length_append]
    omega
  · simp only [freshName, String.toList_append, List.mem_append, not_or]
    refine ⟨⟨startCut, ?_⟩, endingCut⟩
    intro member
    exact absurd (mem_sixDigits member) (by decide)

/-- The path of a name in a directory leads to that name. -/
theorem target_child_name {name : String} (written : directory.text ≠ "")
    (proper : ProperName name) :
    (directory.child name).target = directory.target ++ [name] := by
  have single : ProperLocation [name] := by
    intro other member
    rw [List.mem_singleton.1 member]
    exact proper
  have text : relativeText [name] = name := by
    simp [relativeText]
  have reached := Path.target_child written (by simp) single
  rwa [text] at reached

section Fresh

variable {start ending : String}

theorem freshPath_eq_child (tree : FileTree) (directory : Path)
    (start ending : String) :
    ∃ number, tree.freshPath directory start ending =
      directory.child (freshName start ending number) := by
  unfold freshPath
  dsimp only
  cases found : List.find? (fun path => !tree.exists? path)
      ((List.range (tree.nodes.length + 1)).map fun offset =>
        directory.child (freshName start ending (tree.clock + offset))) with
  | none => exact ⟨tree.clock, rfl⟩
  | some path =>
      obtain ⟨offset, _, same⟩ := List.mem_map.1 (List.mem_of_find?_eq_some found)
      exact ⟨tree.clock + offset, same.symm⟩

/-- There are more candidates than entries, so one of them is free. -/
theorem exists?_freshPath (written : directory.text ≠ "")
    (proper : ∀ number, ProperName (freshName start ending number)) :
    tree.exists? (tree.freshPath directory start ending) = false := by
  unfold freshPath
  dsimp only
  generalize candidates : (List.range (tree.nodes.length + 1)).map
    (fun offset => directory.child
      (freshName start ending (tree.clock + offset))) = paths
  cases found : List.find? (fun path => !tree.exists? path) paths with
  | some path => simpa using List.find?_some found
  | none =>
      exfalso
      have taken : ∀ path ∈ paths, tree.exists? path = true := by
        simpa using List.find?_eq_none.1 found
      have targets : paths.map Path.target =
          (List.range (tree.nodes.length + 1)).map fun offset =>
            directory.target ++
              [freshName start ending (tree.clock + offset)] := by
        rw [← candidates, List.map_map]
        refine List.map_congr_left fun offset _ => ?_
        exact target_child_name written (proper _)
      have distinct : (paths.map Path.target).Nodup := by
        rw [targets]
        refine List.Nodup.map ?_ List.nodup_range
        intro left right same
        have names := List.append_cancel_left same
        simp only [List.cons.injEq, and_true] at names
        have spelled := congrArg String.toList names
        simp only [freshName, String.toList_append, List.append_assoc,
          List.append_cancel_left_eq, List.append_cancel_right_eq] at spelled
        have numbers := sixDigits_injective (String.toList_injective spelled)
        omega
      have bound : paths.map Path.target ⊆ tree.nodes.map Prod.fst := by
        intro location member
        obtain ⟨path, listed, rfl⟩ := List.mem_map.1 member
        have leads := taken path listed
        unfold exists? at leads
        rcases looked : tree.find path with problem | ⟨place, node⟩
        · rw [looked] at leads
          cases leads
        · obtain ⟨_, stands⟩ := node?_target looked
          have below : path.target ≠ [] := by
            rw [← candidates] at listed
            obtain ⟨offset, _, rfl⟩ := List.mem_map.1 listed
            rw [target_child_name written (proper _)]
            simp
          exact List.mem_map.2 ⟨_, mem_of_node? below stands, rfl⟩
      have fits := (List.subperm_of_subset distinct bound).length_le
      rw [← candidates] at fits
      simp only [List.length_map, List.length_range] at fits
      omega

end Fresh

/-- Nothing stands where a path leads that leads to nothing. -/
theorem node?_of_not_exists (missing : tree.exists? path = false)
    {location : Location} (located : tree.locate path = .ok location) :
    tree.node? location = none := by
  cases stands : tree.node? location with
  | none => rfl
  | some node =>
      unfold exists? at missing
      rw [find_eq_ok.2 ⟨located, stands⟩] at missing
      cases missing

theorem alters_discard (made : Location → Prop) (tree : FileTree)
    (path : Path) :
    Alters made (path.target <+: ·) tree (tree.discard path) := by
  unfold discard
  split
  · exact alters_removeDirectories made tree path
  · cases removed : tree.removeFile path with
    | error problem => exact Alters.refl _ _ tree
    | ok after =>
        refine (alters_removeFile made removed).mono (fun _ allowed => allowed) ?_
        rintro location rfl
        exact List.prefix_rfl

theorem discard_of_none (nothing : tree.node? path.target = none) :
    tree.discard path = tree := by
  have missing : ∀ location node, tree.find path ≠ .ok (location, node) := by
    intro location node found
    rw [(node?_target found).2] at nothing
    cases nothing
  have notDirectory : tree.isDirectory path = false := by
    unfold isDirectory
    split
    · rename_i found
      exact absurd found (missing _ _)
    · rfl
  have notRemoved : (tree.removeFile path).toOption = none := by
    cases removed : tree.removeFile path with
    | error problem => rfl
    | ok after =>
        obtain ⟨⟨_, _, _, file⟩, _⟩ := removeFile_eq_ok removed
        rw [nothing] at file
        cases file
  unfold discard
  rw [notDirectory, notRemoved]
  rfl

theorem discard_file {content : Bytes} {modified identity : Nat}
    (found : tree.find path =
      .ok (path.target, .file content modified identity)) :
    tree.discard path = tree.removeAt path.target := by
  have notDirectory : tree.isDirectory path = false := by
    unfold isDirectory
    rw [found]
  unfold discard removeFile
  rw [notDirectory, found]
  rfl

/-- A directory is gone once it is discarded, if its path does not pass it. -/
theorem node?_discard_directory {above : Location} {name : String}
    (located : tree.locateStep path = .ok (above, .name name false))
    (checked : checkName name = .ok ())
    (stands : tree.node? path.target = some .directory)
    (outside : ∀ place ∈ Path.passed [] (path.lastStep.1 ++ [""]),
      ¬path.target <+: place) :
    (tree.discard path).node? path.target = none := by
  have target := target_of_locateStep located
  have below : path.target ≠ [] := by simp [target]
  have found : tree.find path = .ok (path.target, .directory) := by
    refine find_eq_ok.2 ⟨?_, stands⟩
    rw [target]
    exact locate_of_locateStep located checked
  have isDirectory : tree.isDirectory path = true := by
    unfold FileTree.isDirectory
    rw [found]
  obtain ⟨before, last, followed⟩ := locateStep_eq_ok located
  have emptied : (tree.emptyAt path.target).locateStep path =
      .ok (above, .name name false) := by
    refine locateStep_of_passed located fun place passed => ?_
    have directory : tree.node? place = some .directory := by
      rw [last] at passed
      exact directory_of_passed followed passed
    rw [node?_emptyAt, if_neg fun inside => outside place passed inside.1]
    exact directory
  have removed : (tree.emptyAt path.target).removeEmptyDirectory path =
      .ok ((tree.emptyAt path.target).removeAt path.target) := by
    unfold removeEmptyDirectory
    rw [emptied, target]
    rfl
  unfold discard removeDirectories
  rw [isDirectory, if_pos rfl, found]
  dsimp only
  rw [removed, node?_removeAt, if_pos ⟨List.prefix_rfl, below⟩]

/-! ## Making a fresh directory -/

theorem exists_text_child (directory : Path) (name : String) :
    ∃ before, (directory.child name).text.toList = before ++ name.toList := by
  unfold Path.child Path.join
  split
  · exact ⟨[], rfl⟩
  · split
    · exact ⟨[], rfl⟩
    · split
      · exact ⟨directory.text.toList, by simp⟩
      · exact ⟨directory.text.toList ++ ['/'], by simp⟩

theorem text_child_ne {name : String} (proper : ProperName name) :
    (directory.child name).text ≠ "" := by
  intro empty
  obtain ⟨before, spelled⟩ := exists_text_child directory name
  rw [empty] at spelled
  have nothing : name.toList = [] :=
    (List.append_eq_nil_iff.1 spelled.symm).2
  exact proper.1 (by simpa using nothing)

/-- The text of a path in a directory does not end with a separator if its name
is proper. -/
theorem endsWith_child {name : String} (proper : ProperName name) :
    Text.endsWith ['/'] (directory.child name).text.toList = false := by
  obtain ⟨nonempty, _, _, cut⟩ := proper
  obtain ⟨before, spelled⟩ := exists_text_child directory name
  rw [spelled, ← Bool.not_eq_true]
  intro closed
  obtain ⟨rest, whole⟩ := List.isSuffixOf_iff_suffix.1 closed
  have named : name.toList ≠ [] := by simpa using nonempty
  have last := congrArg List.getLast? whole
  rw [List.getLast?_concat, List.getLast?_append_of_ne_nil _ named] at last
  exact cut (List.mem_of_getLast? last.symm)

/-- The last step to a name in a directory is that name. -/
theorem slashed_of_child {name found : String} {above : Location}
    {slashed : Bool} (proper : ProperName name)
    (located : tree.locateStep (directory.child name) =
      .ok (above, .name found slashed)) : slashed = false := by
  obtain ⟨before, last, _⟩ := locateStep_eq_ok located
  obtain ⟨_, _, same⟩ := Path.pieces_of_lastStep last
  rw [same]
  exact endsWith_child proper

theorem makeTemporary_cases {ε : Type} {start : String}
    {wrap : Problem → ε} {result : Except ε Path}
    (ran : runFrom (makeTemporary directory start wrap) before =
      (result, after)) :
    (∃ problem, result = .error (wrap problem) ∧ after = before) ∨
      ∃ number made,
        result = .ok (directory.child (freshName start "" number)) ∧
        before.createDirectory (directory.child (freshName start "" number)) =
          .ok made ∧
        after = made.tick := by
  obtain ⟨number, fresh⟩ := freshPath_eq_child before directory start ""
  unfold makeTemporary at ran
  rw [runFrom_bind, FileAction.runFrom_look] at ran
  dsimp only at ran
  rw [fresh, runFrom_bind, FileAction.runFrom_change] at ran
  cases made : before.createDirectory
      (directory.child (freshName start "" number)) with
  | error problem =>
      rw [made] at ran
      cases ran
      exact Or.inl ⟨problem, rfl, rfl⟩
  | ok made =>
      simp only [made, runFrom_bind] at ran
      cases ran
      exact Or.inr ⟨number, _, rfl, made, rfl⟩

section Replacing

variable {middle moved : FileTree} {temporary : Path} {content : Bytes}
  (sound : before.Sound) (fresh : before.node? temporary.target = none)
  (written : before.writeBytes temporary content = .ok middle)

include written

theorem node?_written :
    ∃ modified identity, middle.node? temporary.target =
      some (.file content modified identity) := by
  obtain ⟨_, ⟨modified, identity, rfl⟩, above, name, _, _, target⟩ :=
    writeBytes_eq_ok written
  have below : temporary.target ≠ [] := by simp [target]
  refine ⟨modified, identity, ?_⟩
  exact (node?_setNode below _ _).trans (if_pos rfl)

include sound fresh

theorem find_written :
    ∃ modified identity, middle.find temporary =
      .ok (temporary.target, .file content modified identity) := by
  obtain ⟨_, _, above, name, located, checked, target⟩ :=
    writeBytes_eq_ok written
  obtain ⟨modified, identity, file⟩ := node?_written written
  obtain ⟨_, kept⟩ := alters_writeBytes (fun _ => False) written sound
  have reached := locate_of_locateStep located checked
  rw [← target] at reached
  refine ⟨modified, identity,
    find_eq_ok.2 ⟨locate_of_passed reached ?_, file⟩⟩
  intro place passed
  have directory := directory_of_places reached passed
  refine (kept place ?_).stands directory
  rintro rfl
  rw [fresh] at directory
  cases directory

/-- A file that cannot be renamed leaves nothing behind. -/
theorem extends_discard_written (made : Location → Prop) :
    Extends made before (middle.discard temporary) := by
  intro _
  obtain ⟨_, _, above, name, _, _, target⟩ := writeBytes_eq_ok written
  obtain ⟨_, _, found⟩ := find_written sound fresh written
  obtain ⟨middleSound, kept⟩ := alters_writeBytes made written sound
  rw [discard_file found]
  refine ⟨⟨middleSound.formed.removeAt _, middleSound.rooted.removeAt _⟩, ?_⟩
  intro location _
  unfold Kept
  rw [node?_removeAt]
  split
  · rename_i inside
    exact Or.inl (sound.rooted.none_below inside.1 fresh).symm
  · rename_i outside
    refine kept location ?_
    rintro rfl
    exact outside ⟨List.prefix_rfl, by simp [target]⟩

variable (different : temporary.target ≠ path.target)
  (renamed : middle.rename temporary path = .ok moved)

include different renamed

omit sound in
theorem node?_moved : moved.node? temporary.target = none := by
  obtain ⟨modified, identity, file⟩ := node?_written written
  obtain ⟨_, _, _, _, _, _, _, located, _, placed⟩ := rename_eq_ok renamed
  obtain ⟨_, ⟨same, _⟩ | ⟨_, notBelow, _, rfl⟩⟩ := renameAt_file placed file
  · exact absurd same different
  · have below : temporary.target ≠ [] := by
      intro top
      rw [top, node?_nil] at fresh
      cases fresh
    have targetBelow : path.target ≠ [] := by
      simp [target_of_locateStep located]
    rw [node?_moveAt below targetBelow, if_neg notBelow,
      if_pos List.prefix_rfl]

/-- A file that is written under a fresh name and renamed alters the place it is
renamed to. -/
theorem alters_moved (made : Location → Prop) :
    Alters made (· = path.target) before moved := by
  intro _
  obtain ⟨modified, identity, file⟩ := node?_written written
  have gone := node?_moved fresh written different renamed
  obtain ⟨middleSound, keptFirst⟩ := alters_writeBytes made written sound
  obtain ⟨movedSound, keptSecond⟩ :=
    alters_rename_file renamed file made middleSound
  refine ⟨movedSound, fun location outside => ?_⟩
  by_cases same : location = temporary.target
  · rw [same]
    exact Or.inl (gone.trans fresh.symm)
  · exact (keptFirst location same).trans
      (keptSecond location (not_or.2 ⟨same, outside⟩))

theorem find_discard_moved :
    ∃ modified identity, (moved.discard temporary).find path =
      .ok (path.target, .file content modified identity) := by
  obtain ⟨modified, identity, file⟩ := node?_written written
  obtain ⟨middleSound, _⟩ :=
    alters_writeBytes (fun _ => False) written sound
  rw [discard_of_none (node?_moved fresh written different renamed)]
  exact ⟨modified, identity, find_rename_file renamed file middleSound.rooted⟩

end Replacing

/-- A file is written under a name that leads to nothing and renamed: either this
fails and nothing is altered, or the file is found at its place. -/
theorem replaceVia_cases (made : Location → Prop) {ε : Type}
    {first second : Problem → ε} {temporary : Path} {content : Bytes} {result : Except ε Unit}
    (sound : before.Sound) (fresh : before.exists? temporary = false)
    (different : temporary.target ≠ path.target)
    (ran : runFrom (do
        FileAction.change (·.writeBytes temporary content) first
        FileAction.finallyDo
          (FileAction.change (·.rename temporary path) second)
          (·.discard temporary)) before = (result, after)) :
    (∃ error, result = .error error) ∧ Extends made before after ∨
      result = .ok () ∧ Alters made (· = path.target) before after ∧
        ∃ modified identity, after.find path =
          .ok (path.target, .file content modified identity) := by
  rw [runFrom_bind, FileAction.runFrom_change] at ran
  cases written : before.writeBytes temporary content with
  | error problem =>
      rw [written] at ran
      cases ran
      exact Or.inl ⟨⟨_, rfl⟩, Alters.refl _ _ before⟩
  | ok middle =>
      obtain ⟨_, _, above, name, located, checked, target⟩ :=
        writeBytes_eq_ok written
      have nothing : before.node? temporary.target = none := by
        rw [target]
        exact node?_of_not_exists fresh (locate_of_locateStep located checked)
      rw [written] at ran
      dsimp only at ran
      rw [FileAction.runFrom_finallyDo, FileAction.runFrom_change] at ran
      cases renamed : middle.rename temporary path with
      | error problem =>
          rw [renamed] at ran
          cases ran
          exact Or.inl ⟨⟨_, rfl⟩,
            extends_discard_written sound nothing written made⟩
      | ok moved =>
          rw [renamed] at ran
          cases ran
          have gone := discard_of_none
            (node?_moved nothing written different renamed)
          refine Or.inr ⟨rfl, ?_,
            find_discard_moved sound nothing written different renamed⟩
          rw [gone]
          exact alters_moved sound nothing written different renamed made

end FileTree

namespace Path

/-- New files are made in a directory that is written somehow. -/
theorem directory_text (path : Path) : path.directory.text ≠ "" := by
  unfold directory
  split
  · split
    · decide
    · assumption
  · decide

/-- The last component of a path is where it leads, if it is a name. -/
theorem target_of_fileName {path : Path} {name : String}
    (named : path.fileName = some name) :
    ProperName name ∧ ∃ above, path.target = above ++ [name] := by
  unfold fileName at named
  split at named
  · rename_i text last
    cases named
    obtain ⟨before, whole⟩ := List.getLast?_eq_some_iff.1 last
    constructor
    · have member : Component.name name ∈ path.components := by simp [whole]
      have inner : ∀ rest : List String, (∀ piece ∈ rest, piece ∈ path.pieces) →
          Component.name name ∈ rest.filterMap innerComponent →
          ProperName name := by
        intro rest cut listed
        obtain ⟨piece, inside, same⟩ := List.mem_filterMap.1 listed
        unfold innerComponent at same
        split at same
        · cases same
        · rename_i kept
          split at same
          · cases same
          · rename_i notParent
            cases same
            exact ⟨fun empty => kept (Or.inl empty),
              fun current => kept (Or.inr current), notParent,
              not_mem_of_mem_pieces (cut _ inside)⟩
      unfold components at member
      split at member
      · exact absurd member List.not_mem_nil
      · rename_i rest cut
        rcases List.mem_append.1 member with first | later
        · split at first <;> simp at first
        · exact inner rest (fun piece inside => by simp [cut, inside]) later
      · rename_i rest cut
        rcases List.mem_cons.1 member with first | later
        · cases first
        · exact inner rest (fun piece inside => by simp [cut, inside]) later
      · exact inner _ (fun piece inside => inside) member
    · refine ⟨before.foldl Component.step [], ?_⟩
      rw [target, whole, List.foldl_append]
      rfl
  · cases named

end Path

namespace Cache

open FileTree

/-- A file is replaced as a whole, or nothing is altered. -/
theorem atomicWrite_cases {before after : FileTree} {path : Path}
    {content : Bytes} {result : Except CacheError Unit}
    (sound : before.Sound)
    (ran : runFrom (atomicWrite path content) before = (result, after)) :
    (∃ error, result = .error error) ∧
        Extends (· ∈ path.directory.places) before after ∨
      result = .ok () ∧
        Alters (· ∈ path.directory.places) (· = path.target) before after ∧
        ∃ modified identity, after.find path =
          .ok (path.target, .file content modified identity) := by
  unfold atomicWrite at ran
  by_cases rootless : path.parent.isNone = true
  · rw [if_pos rootless] at ran
    cases ran
    exact Or.inl ⟨⟨_, rfl⟩, Alters.refl _ _ before⟩
  · rw [if_neg rootless, runFrom_bind, FileAction.runFrom_advance] at ran
    have made := extends_createDirectories before path.directory
    rcases steps : before.createDirectories path.directory with
      ⟨_ | problem, middle⟩
    · rw [steps] at ran made
      obtain ⟨middleSound, _⟩ := made sound
      cases named : path.fileName with
      | none =>
          rw [named] at ran
          cases ran
          exact Or.inl ⟨⟨_, rfl⟩, made⟩
      | some name =>
          obtain ⟨proper, above, target⟩ := Path.target_of_fileName named
          have fresh : ∀ number,
              ProperName (freshName (name ++ ".tmp.") "" number) := by
            intro number
            refine properName_fresh number ?_ ?_ (by simp)
            · have size : ".tmp.".length = 5 := by decide
              rw [String.length_append]
              omega
            · simpa using proper.2.2.2
          have written := path.directory_text
          obtain ⟨number, candidate⟩ :=
            freshPath_eq_child middle path.directory (name ++ ".tmp.") ""
          have different : (temporaryPath middle path.directory name).target ≠
              path.target := by
            unfold temporaryPath
            rw [candidate, target_child_name written (fresh number), target]
            intro same
            have lengths := congrArg String.length
              (List.concat_inj.1 (by simpa using same)).2
            have size : ".tmp.".length = 5 := by decide
            simp only [freshName, String.length_append] at lengths
            omega
          rw [named] at ran
          dsimp only at ran
          rw [runFrom_bind, FileAction.runFrom_look] at ran
          rcases replaceVia_cases (· ∈ path.directory.places) middleSound
            (exists?_freshPath written fresh) different ran with
            ⟨failed, extended⟩ | ⟨done, altered, found⟩
          · exact Or.inl ⟨failed, made.trans extended⟩
          · exact Or.inr ⟨done, made.of_extends.trans altered, found⟩
    · rw [steps] at ran made
      cases ran
      exact Or.inl ⟨⟨_, rfl⟩, made⟩

end Cache

end Deobfuscate
