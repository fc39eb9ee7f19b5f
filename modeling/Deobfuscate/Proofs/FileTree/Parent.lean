import Deobfuscate.Proofs.FileTree.Places
import Mathlib.Data.List.Basic

/-!
# The directory of a path

The directory of a path is found by cutting off the end of its text.  It passes
no more directories than the path itself, and a path that ends with a name leads
from its directory to that name.
-/

namespace Deobfuscate.Path

variable {path parent : Path} {location place : Location}

def steps (pieces : List String) : List String :=
  pieces.filter fun piece => piece ≠ "" ∧ piece ≠ "."

@[simp]
theorem steps_nil : steps [] = [] :=
  rfl

@[simp]
theorem steps_empty : steps [""] = [] :=
  rfl

@[simp]
theorem steps_current : steps ["."] = [] :=
  rfl

theorem steps_append (before after : List String) :
    steps (before ++ after) = steps before ++ steps after :=
  List.filter_append ..

theorem steps_cons_of_skipped {piece : String}
    (skipped : piece = "" ∨ piece = ".") (rest : List String) :
    steps (piece :: rest) = steps rest := by
  rcases skipped with rfl | rfl <;> rfl

theorem steps_cons_of_kept {piece : String}
    (kept : ¬(piece = "" ∨ piece = ".")) (rest : List String) :
    steps (piece :: rest) = piece :: steps rest := by
  rw [not_or] at kept
  simp [steps, kept.1, kept.2]

theorem filterMap_steps (pieces : List String) :
    (steps pieces).filterMap innerComponent =
      pieces.filterMap innerComponent := by
  induction pieces with
  | nil =>
      rfl
  | cons piece rest inductionHypothesis =>
      by_cases skipped : piece = "" ∨ piece = "."
      · have nothing : innerComponent piece = none := by
          simp [innerComponent, skipped]
        rw [steps_cons_of_skipped skipped, inductionHypothesis,
          List.filterMap_cons, nothing]
      · rw [steps_cons_of_kept skipped, List.filterMap_cons,
          List.filterMap_cons, inductionHypothesis]

theorem steps_eq_nil {pieces : List String}
    (nothing : pieces.filterMap innerComponent = []) : steps pieces = [] := by
  refine List.filter_eq_nil_iff.2 fun piece member kept => ?_
  have skipped := List.filterMap_eq_nil_iff.1 nothing piece member
  have named : piece ≠ "" ∧ piece ≠ "." := by simpa using kept
  unfold innerComponent at skipped
  rw [if_neg (not_or.2 named)] at skipped
  split at skipped <;> cases skipped

def reach (location : Location) (pieces : List String) : Location :=
  (pieces.filterMap innerComponent).foldl Component.step location

theorem reach_append (location : Location) (before after : List String) :
    reach location (before ++ after) = reach (reach location before) after := by
  simp only [reach, List.filterMap_append, List.foldl_append]

theorem reach_steps (location : Location) (pieces : List String) :
    reach location (steps pieces) = reach location pieces := by
  rw [reach, filterMap_steps, reach]

theorem target_eq_reach (path : Path) : path.target = reach [] path.pieces :=
  target_eq path

theorem passed_subset_append (location : Location)
    (before rest : List String) :
    passed location before ⊆ passed location (before ++ rest) := by
  induction before generalizing location with
  | nil =>
      simp [passed]
  | cons piece others inductionHypothesis =>
      simp only [List.cons_append, passed]
      by_cases skipped : piece = "" ∨ piece = "."
      · simp only [skipped, if_true]
        exact inductionHypothesis location
      · by_cases upward : piece = ".."
        · simp only [upward, if_true]
          exact inductionHypothesis location.dropLast
        · by_cases last : others = []
          · simp [skipped, upward, last]
          · simp only [skipped, upward, last, if_false,
              List.append_eq_nil_iff, false_and]
            exact List.cons_subset_cons _ (inductionHypothesis _)

theorem passed_steps_subset (location : Location) (pieces : List String) :
    passed location (steps pieces) ⊆ passed location pieces := by
  induction pieces generalizing location with
  | nil =>
      simp
  | cons piece rest inductionHypothesis =>
      by_cases skipped : piece = "" ∨ piece = "."
      · rw [steps_cons_of_skipped skipped, passed, if_pos skipped]
        exact inductionHypothesis location
      · rw [steps_cons_of_kept skipped, passed, passed, if_neg skipped,
          if_neg skipped]
        split
        · exact inductionHypothesis location.dropLast
        · split
          · exact List.nil_subset _
          · rename_i more
            have rest_ne : rest ≠ [] := by
              rintro rfl
              exact more rfl
            rw [if_neg rest_ne]
            exact List.cons_subset_cons _ (inductionHypothesis _)

theorem passed_steps (location : Location) (pieces : List String) :
    passed location (steps pieces ++ [""]) =
      passed location (pieces ++ [""]) := by
  induction pieces generalizing location with
  | nil =>
      rfl
  | cons piece rest inductionHypothesis =>
      by_cases skipped : piece = "" ∨ piece = "."
      · rw [steps_cons_of_skipped skipped, List.cons_append, passed,
          if_pos skipped]
        exact inductionHypothesis location
      · rw [steps_cons_of_kept skipped, List.cons_append, List.cons_append,
          passed, passed, if_neg skipped, if_neg skipped]
        split
        · exact inductionHypothesis location.dropLast
        · rw [if_neg (by simp), if_neg (by simp), inductionHypothesis]

/-- Pieces that are followed by more pass every place above the one they lead
to. -/
theorem passed_of_prefix (pieces : List String)
    (above : place <+: reach [] pieces) :
    place = [] ∨ place ∈ passed [] (pieces ++ [""]) := by
  induction pieces using List.reverseRecOn generalizing place with
  | nil =>
      exact Or.inl (List.prefix_nil.1 above)
  | append_singleton others piece inductionHypothesis =>
      have earlier : place <+: reach [] others →
          place = [] ∨ place ∈ passed [] (others ++ [piece] ++ [""]) := by
        intro before
        refine (inductionHypothesis before).imp_right fun member => ?_
        rw [List.append_assoc, passed_append [] others (by simp)]
        exact List.mem_append_left _ member
      rw [reach_append] at above
      by_cases skipped : piece = "" ∨ piece = "."
      · have still : reach (reach [] others) [piece] = reach [] others := by
          simp [reach, innerComponent, skipped]
        rw [still] at above
        exact earlier above
      · by_cases upward : piece = ".."
        · have back : reach (reach [] others) [piece] =
              (reach [] others).dropLast := by
            simp [reach, innerComponent, upward, Component.step]
          rw [back] at above
          exact earlier (above.trans (List.dropLast_prefix _))
        · have onward : reach (reach [] others) [piece] =
              reach [] others ++ [piece] := by
            simp [reach, innerComponent, skipped, upward, Component.step]
          rw [onward, List.prefix_concat_iff] at above
          rcases above with rfl | before
          · refine Or.inr ?_
            rw [List.append_assoc, passed_append [] others (by simp)]
            refine List.mem_append_right _ ?_
            simp [passed, skipped, upward, reach]
          · exact earlier before

def textSteps (chars : List Char) : List String :=
  steps ((Text.splitOn '/' chars).map String.ofList)

theorem textSteps_append_cons (before after : List Char) :
    textSteps (before ++ '/' :: after) =
      textSteps before ++ textSteps after := by
  rw [textSteps, Text.splitOn_append_cons, List.map_append, steps_append]
  rfl

theorem textSteps_trimReversed (reversed : List Char) :
    textSteps (trimReversed reversed).reverse = textSteps reversed.reverse := by
  fun_induction trimReversed reversed with
  | case1 rest last =>
      simp [List.isEmpty_iff.1 last]
  | case2 rest more inductionHypothesis =>
      rw [inductionHypothesis, List.reverse_cons, textSteps_append_cons]
      exact (List.append_nil _).symm
  | case3 rest last =>
      simp [List.isEmpty_iff.1 last]
      rfl
  | case4 rest more inductionHypothesis =>
      rw [inductionHypothesis, List.reverse_cons, List.reverse_cons,
        List.append_assoc, List.cons_append, List.nil_append,
        textSteps_append_cons]
      exact (List.append_nil _).symm
  | case5 chars => rfl

/-- A trimmed text has no pieces at its end that do not count. -/
theorem trimReversed_cases (reversed : List Char) :
    trimReversed reversed = ['/'] ∨
      (∀ rest, trimReversed reversed ≠ '/' :: rest) ∧
        ∀ rest, trimReversed reversed ≠ '.' :: '/' :: rest := by
  fun_induction trimReversed reversed with
  | case1 rest last => exact Or.inl rfl
  | case2 rest more inductionHypothesis => exact inductionHypothesis
  | case3 rest last => exact Or.inl rfl
  | case4 rest more inductionHypothesis => exact inductionHypothesis
  | case5 chars noSlash noDot =>
      exact Or.inr ⟨fun rest same => noSlash rest same,
        fun rest same => noDot rest same⟩

theorem textSteps_of_uncut {chars : List Char} (uncut : '/' ∉ chars) :
    textSteps chars = steps [String.ofList chars] := by
  rw [textSteps, Text.splitOn_eq_splitOn, List.splitOn_eq_singleton uncut]
  rfl

theorem textSteps_cut {name left : List Char} (uncut : '/' ∉ name)
    (cut : left = [] ∨ ∃ rest, left = '/' :: rest) :
    textSteps (name ++ left).reverse =
      textSteps left.reverse ++ steps [String.ofList name.reverse] := by
  have named : textSteps name.reverse = _ :=
    textSteps_of_uncut (by simpa using uncut)
  rcases cut with rfl | ⟨rest, rfl⟩
  · rw [List.append_nil, named]
    rfl
  · rw [List.reverse_append, List.reverse_cons, List.append_assoc,
      List.singleton_append, textSteps_append_cons, textSteps_append_cons, named]
    simp [textSteps, Text.splitOn]

/-- What a trimmed text consists of does not count only if nothing else
does. -/
theorem textSteps_cut_eq_nil {name left : List Char}
    (trimmed : name ++ left = ['/'] ∨ (∀ rest, name ++ left ≠ '/' :: rest) ∧
      ∀ rest, name ++ left ≠ '.' :: '/' :: rest)
    (uncut : '/' ∉ name) (cut : left = [] ∨ ∃ rest, left = '/' :: rest)
    (nothing : steps [String.ofList name.reverse] = []) :
    textSteps left.reverse = [] := by
  have skipped : name = [] ∨ name = ['.'] := by
    by_cases known : String.ofList name.reverse = "" ∨
        String.ofList name.reverse = "."
    · rcases known with empty | dot
      · left
        simpa using empty
      · right
        have spelled := congrArg String.toList dot
        rw [String.toList_ofList] at spelled
        simpa using congrArg List.reverse spelled
    · rw [steps_cons_of_kept known] at nothing
      cases nothing
  rcases cut with rfl | ⟨rest, rfl⟩
  · rfl
  · rcases trimmed with root | ⟨noSlash, noDot⟩
    · rcases skipped with rfl | rfl
      · cases root
        rfl
      · cases root
    · rcases skipped with rfl | rfl
      · exact absurd rfl (noSlash rest)
      · exact absurd rfl (noDot rest)

theorem steps_of_parent (above : path.parent = some parent) :
    ∃ piece, steps path.pieces = steps parent.pieces ++ steps [piece] ∧
      (steps [piece] = [] → steps parent.pieces = []) := by
  unfold Path.parent at above
  generalize trimmed : trimReversed path.text.toList.reverse = reversed at above
  have shape := trimReversed_cases path.text.toList.reverse
  have same := textSteps_trimReversed path.text.toList.reverse
  rw [trimmed] at shape same
  rw [List.reverse_reverse] at same
  have uncut : '/' ∉ reversed.takeWhile (· != '/') := by
    intro member
    simpa using List.mem_takeWhile_imp member
  have cut : reversed.dropWhile (· != '/') = [] ∨
      ∃ rest, reversed.dropWhile (· != '/') = '/' :: rest := by
    cases left : reversed.dropWhile (· != '/') with
    | nil => exact Or.inl rfl
    | cons char rest =>
        have stopped := List.head_dropWhile_not (p := (· != '/'))
          (l := reversed) (by simp [left])
        have slash : char = '/' := by simpa [left] using stopped
        exact Or.inr ⟨rest, by rw [slash]⟩
  have whole := List.takeWhile_append_dropWhile
    (p := (· != '/')) (l := reversed)
  have parentSteps : ∀ chars,
      parent = ⟨String.ofList (trimReversed chars).reverse⟩ →
      steps parent.pieces = textSteps chars.reverse := by
    rintro chars rfl
    rw [← textSteps_trimReversed, textSteps, pieces, String.toList_ofList]
  have result : parent = ⟨String.ofList (trimReversed
      (reversed.dropWhile (· != '/'))).reverse⟩ := by
    split at above
    · cases above
    · cases above
    · exact (Option.some.inj above).symm
  have cutSteps := textSteps_cut uncut cut
  rw [whole] at cutSteps
  refine ⟨String.ofList (reversed.takeWhile (· != '/')).reverse, ?_, ?_⟩
  · rw [parentSteps _ result, ← cutSteps, same]
    rfl
  · rw [parentSteps _ result]
    intro nothing
    exact textSteps_cut_eq_nil (by rwa [whole]) uncut cut nothing

/-- Only a path without pieces that count has no parent. -/
theorem steps_of_parent_none (top : path.parent = none) :
    steps path.pieces = [] := by
  have inner : ∀ pieces : List String,
      (pieces.filterMap innerComponent).getLast? ≠ some .root := by
    intro pieces last
    obtain ⟨piece, _, same⟩ :=
      List.mem_filterMap.1 (List.mem_of_getLast? last)
    unfold innerComponent at same
    split at same
    · cases same
    · split at same <;> cases same
  have ending : path.components.getLast? = none ∨
      path.components.getLast? = some .root := by
    unfold Path.parent at top
    split at top
    · rename_i last
      exact Or.inl last
    · rename_i last
      exact Or.inr last
    · cases top
  refine steps_eq_nil ?_
  unfold components at ending
  split at ending
  · rename_i cut
    simp [cut]
  · rename_i rest cut
    rw [cut, List.filterMap_cons]
    by_cases nothing : rest.filterMap innerComponent = []
    · exact nothing
    · rw [List.getLast?_append_of_ne_nil _ nothing] at ending
      rcases ending with none | root
      · exact absurd (List.getLast?_eq_none_iff.1 none) nothing
      · exact absurd root (inner rest)
  · rename_i rest cut
    rw [cut, List.filterMap_cons]
    by_cases nothing : rest.filterMap innerComponent = []
    · exact nothing
    · rw [← List.singleton_append,
        List.getLast?_append_of_ne_nil _ nothing] at ending
      rcases ending with none | root
      · exact absurd (List.getLast?_eq_none_iff.1 none) nothing
      · exact absurd root (inner rest)
  · rcases ending with none | root
    · exact List.getLast?_eq_none_iff.1 none
    · exact absurd root (inner _)

/-! ## The directory -/

/-- What is passed on the way to a parent and down from it is passed on the way
to the path. -/
theorem passed_of_parent (above : path.parent = some parent)
    (member : place ∈ passed [] (parent.pieces ++ [""])) :
    place ∈ passed [] path.pieces := by
  rw [← passed_steps] at member
  obtain ⟨piece, whole, alone⟩ := steps_of_parent above
  by_cases nothing : steps [piece] = []
  · rw [alone nothing] at member
    cases member
  · refine passed_steps_subset [] _ ?_
    rw [whole, passed_append [] _ nothing]
    exact List.mem_append_left _ member

/-- A path that is followed further passes the place it leads to. -/
theorem mem_passed_of_places (member : place ∈ path.places) :
    place = [] ∨ place ∈ passed [] (path.pieces ++ [""]) := by
  rcases List.mem_append.1 member with earlier | last
  · exact Or.inr (passed_subset_append [] _ _ earlier)
  · rw [List.mem_singleton.1 last, target_eq_reach]
    exact passed_of_prefix _ List.prefix_rfl

theorem mem_places_parent (above : path.parent = some parent)
    (member : place ∈ parent.places) :
    place = [] ∨ place ∈ passed [] path.pieces :=
  (mem_passed_of_places member).imp_right (passed_of_parent above)

/-- The directories that lead to the directory of a path. -/
theorem passed_of_directory
    (member : place ∈ passed [] (path.directory.pieces ++ [""])) :
    place ∈ passed [] path.pieces := by
  have current : place ∉ passed [] ((⟨"."⟩ : Path).pieces ++ [""]) := by
    simp [passed, pieces, Text.splitOn]
  unfold directory at member
  split at member
  · rename_i parent above
    split at member
    · exact absurd member current
    · exact passed_of_parent above member
  · exact absurd member current

theorem mem_places_directory (member : place ∈ path.directory.places) :
    place = [] ∨ place ∈ passed [] path.pieces :=
  (mem_passed_of_places member).imp_right passed_of_directory

/-- What a path avoids, its directory avoids. -/
theorem Avoids.directory (avoids : path.Avoids location) :
    path.directory.Avoids location := by
  intro place member inside
  rcases mem_places_directory member with rfl | passed
  · rw [List.prefix_nil.1 inside] at avoids
    exact avoids.target List.nil_prefix
  · exact avoids.passed passed inside

section LastName

variable {before : List String} {name : String} {slashed : Bool}
  (last : path.lastStep = (before, .name name slashed))

include last

theorem steps_of_lastStep : steps path.pieces = steps before ++ [name] := by
  obtain ⟨count, cut, _⟩ := pieces_of_lastStep last
  have proper : ProperName name := properName_of_lastStep (by rw [last])
  have closing : steps (List.replicate count "") = [] := by
    simp [steps]
  rw [cut, steps_append,
    steps_cons_of_kept (not_or.2 ⟨proper.1, proper.2.1⟩), closing]

/-- The directory of a path that ends with a name is what comes before the
name. -/
theorem steps_directory : steps path.directory.pieces = steps before := by
  have counted := steps_of_lastStep last
  unfold directory
  split
  · rename_i parent above
    obtain ⟨piece, whole, alone⟩ := steps_of_parent above
    have same : steps parent.pieces = steps before := by
      by_cases nothing : steps [piece] = []
      · rw [nothing, alone nothing, counted] at whole
        simp at whole
      · have kept : ¬(piece = "" ∨ piece = ".") := by
          intro skipped
          exact nothing (steps_cons_of_skipped skipped [])
        rw [counted, steps_cons_of_kept kept] at whole
        exact (List.concat_inj.1 (by simpa using whole)).1.symm
    split
    · rename_i empty
      rw [← same, pieces, pieces, empty]
      rfl
    · exact same
  · rename_i top
    rw [steps_of_parent_none top] at counted
    simp at counted

theorem passed_directory :
    passed [] (path.directory.pieces ++ [""]) = passed [] (before ++ [""]) := by
  rw [← passed_steps, steps_directory last, passed_steps]

/-- A path that ends with a name leads from its directory to that name. -/
theorem target_eq_directory :
    path.target = path.directory.target ++ [name] := by
  obtain ⟨count, cut, _⟩ := pieces_of_lastStep last
  have proper : ProperName name := properName_of_lastStep (by rw [last])
  have closing : (List.replicate count "").filterMap innerComponent = [] := by
    refine List.filterMap_eq_nil_iff.2 fun piece member => ?_
    simp [List.eq_of_mem_replicate member, innerComponent]
  rw [target_eq_reach, target_eq_reach, cut, reach_append,
    ← reach_steps [] path.directory.pieces, steps_directory last, reach_steps]
  simp [reach, innerComponent_of_proper proper, closing, Component.step]

/-- A path that ends with a name passes the directories before the name, and the
place of the name if separators follow. -/
theorem mem_passed_of_lastStep (member : place ∈ passed [] path.pieces) :
    place ∈ passed [] (before ++ [""]) ∨ place = path.target := by
  have proper : ProperName name := properName_of_lastStep (by rw [last])
  have kept : ¬(name = "" ∨ name = ".") := not_or.2 ⟨proper.1, proper.2.1⟩
  have further := passed_subset_append [] _ [""] member
  rw [← passed_steps, steps_of_lastStep last, List.append_assoc,
    passed_append [] (steps before) (by simp), passed_steps] at further
  refine (List.mem_append.1 further).imp_right fun here => ?_
  have target : reach [] (steps path.pieces) =
      reach [] (steps before) ++ [name] := by
    rw [steps_of_lastStep last, reach_append]
    simp [reach, innerComponent_of_proper proper, Component.step]
  rw [List.singleton_append, passed, if_neg kept, if_neg proper.2.2.1,
    if_neg (List.cons_ne_nil _ _)] at here
  rw [target_eq_reach, ← reach_steps, target]
  simpa [passed, reach] using here

end LastName

/-- A relative text below a directory adds its pieces. -/
theorem steps_child_text {text : String} (written : path.text ≠ "")
    (relative : (⟨text⟩ : Path).isAbsolute = false) :
    steps (path.child text).pieces =
      steps path.pieces ++ textSteps text.toList := by
  have cut : ∀ before : List Char,
      (path.child text).text.toList = before ++ '/' :: text.toList →
      textSteps before = steps path.pieces →
      steps (path.child text).pieces =
        steps path.pieces ++ textSteps text.toList := by
    intro before spelled same
    have whole : steps (path.child text).pieces =
        textSteps (before ++ '/' :: text.toList) := by
      rw [← spelled]
      rfl
    rw [whole, textSteps_append_cons, same]
  unfold child join at cut ⊢
  simp only [relative, written, Bool.false_eq_true, if_false] at cut ⊢
  by_cases slashed : Text.endsWith ['/'] path.text.toList = true
  · obtain ⟨before, spelled⟩ := List.isSuffixOf_iff_suffix.1 slashed
    refine cut before ?_ ?_
    · rw [if_pos slashed, String.toList_append, ← spelled]
      simp
    · have closed : steps path.pieces = textSteps (before ++ ['/']) := by
        rw [spelled]
        rfl
      rw [closed, textSteps_append_cons]
      exact (List.append_nil _).symm
  · refine cut path.text.toList ?_ rfl
    rw [if_neg slashed]
    simp

/-- Proper names all count. -/
theorem steps_of_proper {names : List String} (proper : ProperLocation names) :
    steps names = names := by
  refine List.filter_eq_self.2 fun name member => ?_
  obtain ⟨notEmpty, notCurrent, _⟩ := proper name member
  simp [notEmpty, notCurrent]

/-- Names below a directory add pieces. -/
theorem steps_child_names {below : Location} (written : path.text ≠ "")
    (nonempty : below ≠ []) (proper : ProperLocation below) :
    steps (path.child (FileTree.relativeText below)).pieces =
      steps path.pieces ++ below := by
  rw [steps_child_text written (FileTree.relativeText_relative nonempty proper),
    textSteps, FileTree.splitOn_relativeText nonempty proper,
    steps_of_proper proper]

/-- A name in a directory adds one piece. -/
theorem steps_child {name : String} (written : path.text ≠ "")
    (proper : ProperName name) :
    steps (path.child name).pieces = steps path.pieces ++ [name] := by
  have single : ProperLocation [name] := by
    intro other member
    rw [List.mem_singleton.1 member]
    exact proper
  have text : FileTree.relativeText [name] = name := by
    simp [FileTree.relativeText]
  have added := steps_child_names written (List.cons_ne_nil _ _) single
  rwa [text] at added

/-- The last piece of a name in a directory is that name. -/
theorem exists_pieces_child (directory : Path) {name : String}
    (proper : ProperName name) :
    ∃ before, (directory.child name).pieces = before ++ [name] := by
  have uncut : '/' ∉ name.toList := proper.2.2.2
  have single : Text.splitOn '/' name.toList = [name.toList] := by
    rw [Text.splitOn_eq_splitOn]
    exact List.splitOn_eq_singleton uncut
  have closed : ∀ (path : Path) (above : List Char),
      path.text.toList = above ++ '/' :: name.toList →
      ∃ before, path.pieces = before ++ [name] := by
    intro path above spelled
    refine ⟨(Text.splitOn '/' above).map String.ofList, ?_⟩
    rw [pieces, spelled, Text.splitOn_append_cons, single]
    simp
  unfold child join
  split
  · exact ⟨[], by simp [pieces, single]⟩
  · split
    · exact ⟨[], by simp [pieces, single]⟩
    · split
      · rename_i slashed
        obtain ⟨above, spelled⟩ := List.isSuffixOf_iff_suffix.1 slashed
        refine closed _ above ?_
        rw [String.toList_append, ← spelled]
        simp
      · exact closed _ directory.text.toList (by simp)

theorem exists_lastStep_child (directory : Path) {name : String}
    (proper : ProperName name) :
    ∃ before slashed,
      (directory.child name).lastStep = (before, .name name slashed) := by
  obtain ⟨before, cut⟩ := exists_pieces_child directory proper
  obtain ⟨notEmpty, notCurrent, notParent, _⟩ := proper
  unfold lastStep
  rw [cut, List.reverse_append, List.reverse_singleton, List.singleton_append,
    List.dropWhile_cons_of_neg (by simpa using notEmpty)]
  split
  · rename_i impossible
    cases impossible
  · rename_i same
    exact absurd (List.cons.inj same).1 notCurrent
  · rename_i same
    exact absurd (List.cons.inj same).1 notParent
  · rename_i same
    obtain ⟨rfl, rfl⟩ := List.cons.inj same
    exact ⟨_, _, rfl⟩

/-- The directories before a name in a directory are those that lead to the
directory. -/
theorem passed_child {name found : String} {slashed : Bool}
    {before : List String} (written : path.text ≠ "")
    (proper : ProperName name)
    (last : (path.child name).lastStep = (before, .name found slashed)) :
    passed [] (before ++ [""]) = passed [] (path.pieces ++ [""]) := by
  have whole := steps_child written proper
  rw [steps_of_lastStep last] at whole
  have same : steps before = steps path.pieces :=
    (List.concat_inj.1 (by simpa using whole)).1
  rw [← passed_steps, same, passed_steps]

/-- What is passed when a path is followed further is passed by it or is where
it leads. -/
theorem mem_places_of_passed
    (member : place ∈ passed [] (path.pieces ++ [""])) :
    place ∈ path.places := by
  have each : ∀ (pieces : List String) (location : Location),
      place ∈ passed location (pieces ++ [""]) →
      place ∈ passed location pieces ∨ place = reach location pieces := by
    intro pieces
    induction pieces with
    | nil =>
        intro location inside
        simp [passed] at inside
    | cons piece rest inductionHypothesis =>
        intro location inside
        rw [List.cons_append, passed] at inside
        have split : reach location (piece :: rest) =
            reach (reach location [piece]) rest := reach_append _ [piece] rest
        rw [passed, split]
        by_cases skipped : piece = "" ∨ piece = "."
        · rw [if_pos skipped] at inside ⊢
          have still : reach location [piece] = location := by
            simp [reach, innerComponent, skipped]
          rw [still]
          exact inductionHypothesis location inside
        · rw [if_neg skipped] at inside ⊢
          by_cases upward : piece = ".."
          · rw [if_pos upward] at inside ⊢
            have back : reach location [piece] = location.dropLast := by
              simp [reach, innerComponent, upward, Component.step]
            rw [back]
            exact inductionHypothesis location.dropLast inside
          · rw [if_neg upward, if_neg (by simp)] at inside
            rw [if_neg upward]
            have onward : reach location [piece] = location ++ [piece] := by
              simp [reach, innerComponent, skipped, upward, Component.step]
            rw [onward]
            by_cases last : rest = []
            · rw [if_pos last]
              subst last
              exact Or.inr (by simpa [passed, reach] using inside)
            · rw [if_neg last]
              rcases List.mem_cons.1 inside with here | later
              · exact Or.inl (by simp [here])
              · exact (inductionHypothesis _ later).imp_left
                  (List.mem_cons_of_mem _)
  rcases each path.pieces [] member with earlier | last
  · exact List.mem_append_left _ earlier
  · rw [places, target_eq_reach, last]
    simp

/-- The directory of a name in a directory is that directory. -/
theorem mem_places_directory_child {name : String} (written : path.text ≠ "")
    (proper : ProperName name)
    (member : place ∈ (path.child name).directory.places) :
    place = [] ∨ place ∈ path.places := by
  obtain ⟨before, slashed, last⟩ := exists_lastStep_child path proper
  refine (mem_passed_of_places member).imp_right fun inside => ?_
  rw [passed_directory last, passed_child written proper last] at inside
  exact mem_places_of_passed inside

theorem prefix_of_passed_names {below : Location}
    (proper : ProperLocation below)
    (member : place ∈ passed location (below ++ [""])) :
    location <+: place := by
  induction below generalizing location with
  | nil =>
      simp [passed] at member
  | cons name rest inductionHypothesis =>
      obtain ⟨notEmpty, notCurrent, notParent, _⟩ := proper name (by simp)
      rw [List.cons_append, passed, if_neg (not_or.2 ⟨notEmpty, notCurrent⟩),
        if_neg notParent, if_neg (by simp)] at member
      have onward : location <+: location ++ [name] := List.prefix_append _ _
      rcases List.mem_cons.1 member with rfl | later
      · exact onward
      · exact onward.trans (inductionHypothesis
          (fun other inside => proper other (by simp [inside])) later)

/-- The path of a file below a directory avoids what the path of the directory
avoids and what is not in the directory. -/
theorem Avoids.child {below : Location} (avoids : path.Avoids location)
    (notInside : ¬path.target <+: location) (written : path.text ≠ "")
    (nonempty : below ≠ []) (proper : ProperLocation below) :
    (path.child (FileTree.relativeText below)).Avoids location := by
  intro place member inside
  rcases mem_passed_of_places member with rfl | passed
  · rw [List.prefix_nil.1 inside] at avoids
    exact avoids.target List.nil_prefix
  · rw [← passed_steps, steps_child_names written nonempty proper,
      List.append_assoc, passed_append [] _ (by simp), passed_steps] at passed
    rcases List.mem_append.1 passed with above | beyond
    · exact avoids place (mem_places_of_passed above) inside
    · have reached := prefix_of_passed_names proper beyond
      have target : reach [] (steps path.pieces) = path.target := by
        rw [reach_steps, target_eq_reach]
      change reach [] (steps path.pieces) <+: place at reached
      rw [target] at reached
      rcases List.prefix_or_prefix_of_prefix inside reached with
        before | after
      · exact avoids.target before
      · exact notInside after

/-- The paths above a path lead to places it passes. -/
theorem mem_places_ancestors {ancestor : Path}
    (member : ancestor ∈ path.ancestors) :
    ancestor.target = [] ∨ ancestor.target ∈ path.places := by
  have each : ∀ limit (path : Path), ancestor ∈ ancestorsUpTo limit path →
      ancestor.target = [] ∨ ancestor.target ∈ path.places := by
    intro limit
    induction limit with
    | zero =>
        intro path inside
        rw [List.mem_singleton.1 inside]
        exact Or.inr (by simp [places])
    | succ limit inductionHypothesis =>
        intro path inside
        rcases List.mem_cons.1 inside with rfl | later
        · exact Or.inr (by simp [places])
        · cases above : path.parent with
          | none => simp [above] at later
          | some parent =>
              rw [above] at later
              rcases inductionHypothesis parent later with top | place
              · exact Or.inl top
              · refine (mem_places_parent above place).imp_right ?_
                intro passed
                exact List.mem_append_left _ passed
  exact each _ path member

end Deobfuscate.Path
