import Deobfuscate.Proofs.FileTree.Lookup

/-!
# Where paths lead

A path that can be resolved leads to a place that its components alone
determine: a name leads one step down and `..` one step up.  So two spellings
of a path lead to the same place, and the path of a file below a directory leads
to the place of the directory followed by the names below it.
-/

namespace Deobfuscate

namespace Text

variable {separator : Char}

theorem splitOn_eq_splitOn (chars : List Char) :
    splitOn separator chars = List.splitOn separator chars := by
  induction chars with
  | nil =>
      rfl
  | cons char rest inductionHypothesis =>
      rw [splitOn, List.splitOn_cons_eq_if_modifyHead, inductionHypothesis]
      by_cases cut : char = separator
      · simp [cut]
      · simp only [cut, if_false, beq_iff_eq]
        cases cutRest : List.splitOn separator rest with
        | nil => exact absurd cutRest (List.splitOn_ne_nil separator rest)
        | cons piece pieces => rfl

theorem splitOn_append_cons (before after : List Char) :
    splitOn separator (before ++ separator :: after) =
      splitOn separator before ++ splitOn separator after := by
  simp only [splitOn_eq_splitOn]
  exact List.splitOn_append_cons_self before after

theorem not_mem_of_mem_splitOn {piece chars : List Char}
    (member : piece ∈ splitOn separator chars) : separator ∉ piece := by
  induction chars generalizing piece with
  | nil =>
      have empty : piece = [] := by simpa [splitOn] using member
      simp [empty]
  | cons char rest inductionHypothesis =>
      rw [splitOn] at member
      split at member
      · rcases List.mem_cons.1 member with empty | later
        · simp [empty]
        · exact inductionHypothesis later
      · rename_i kept
        split at member
        · have single : piece = [char] := by simpa using member
          simp [single, Ne.symm kept]
        · rename_i first pieces cut
          rcases List.mem_cons.1 member with extended | later
          · have absent : separator ∉ first :=
              inductionHypothesis (by simp [cut])
            simp [extended, Ne.symm kept, absent]
          · exact inductionHypothesis (by simp [cut, later])

end Text

def ProperName (name : String) : Prop :=
  name ≠ "" ∧ name ≠ "." ∧ name ≠ ".." ∧ '/' ∉ name.toList

instance (name : String) : Decidable (ProperName name) :=
  inferInstanceAs (Decidable (_ ∧ _))

def ProperLocation (location : Location) : Prop :=
  ∀ name ∈ location, ProperName name

instance (location : Location) : Decidable (ProperLocation location) :=
  inferInstanceAs (Decidable (∀ name ∈ location, ProperName name))

theorem ProperLocation.append {above below : Location}
    (aboveProper : ProperLocation above) (belowProper : ProperLocation below) :
    ProperLocation (above ++ below) := by
  intro name member
  rcases List.mem_append.1 member with inside | inside
  · exact aboveProper name inside
  · exact belowProper name inside

theorem ProperLocation.of_append_right {above below : Location}
    (proper : ProperLocation (above ++ below)) : ProperLocation below :=
  fun name member => proper name (List.mem_append_right above member)

namespace Path

theorem innerComponent_of_proper {name : String} (proper : ProperName name) :
    innerComponent name = some (.name name) := by
  obtain ⟨notEmpty, notCurrent, notParent, _⟩ := proper
  simp [innerComponent, notEmpty, notCurrent, notParent]

theorem filterMap_innerComponent {names : List String}
    (proper : ProperLocation names) :
    names.filterMap innerComponent = names.map .name := by
  induction names with
  | nil =>
      rfl
  | cons name rest inductionHypothesis =>
      have first : innerComponent name = some (.name name) :=
        innerComponent_of_proper (proper name (by simp))
      have later : rest.filterMap innerComponent = rest.map .name :=
        inductionHypothesis fun other member => proper other (by simp [member])
      simp [first, later]

end Path

def Component.step (location : Location) : Component → Location
  | root => []
  | current => location
  | parent => location.dropLast
  | name text => location ++ [text]

theorem Component.foldl_step_names (location below : Location) :
    (below.map Component.name).foldl step location = location ++ below := by
  induction below generalizing location with
  | nil =>
      simp
  | cons name rest inductionHypothesis =>
      rw [List.map_cons, List.foldl_cons, inductionHypothesis]
      simp [step]

namespace Path

/-- Where the components of a path lead from the root. -/
def target (path : Path) : Location :=
  path.components.foldl Component.step []

/-- The place a path leads to does not depend on how its start is written. -/
theorem target_eq (path : Path) :
    path.target =
      (path.pieces.filterMap innerComponent).foldl Component.step [] := by
  unfold target components
  split
  · rename_i cut
    simp [cut]
  · -- A root component leads from the root to the root.
    rename_i rest cut
    have skipped : innerComponent "" = none := by simp [innerComponent]
    simp only [cut, List.filterMap_cons, skipped, List.foldl_append]
    split <;> rfl
  · rename_i rest cut
    have skipped : innerComponent "." = none := by simp [innerComponent]
    simp [cut, skipped, Component.step]
  · rfl

theorem target_eq_of_components {left right : Path}
    (same : left.components = right.components) :
    left.target = right.target := by
  rw [target, target, same]

/-- What is cut at a separator is followed one side after the other. -/
theorem target_append_separator (before after : List Char) :
    (⟨String.ofList (before ++ '/' :: after)⟩ : Path).target =
      (((Text.splitOn '/' after).map String.ofList).filterMap
        innerComponent).foldl Component.step
          (⟨String.ofList before⟩ : Path).target := by
  simp only [target_eq, pieces, String.toList_ofList]
  rw [Text.splitOn_append_cons, List.map_append, List.filterMap_append,
    List.foldl_append]

/-- Separators at the end lead nowhere. -/
theorem target_append_end (before : List Char) :
    (⟨String.ofList (before ++ ['/'])⟩ : Path).target =
      (⟨String.ofList before⟩ : Path).target := by
  rw [target_append_separator]
  simp [Text.splitOn, innerComponent]

end Path

namespace FileTree

theorem splitOn_relativeText {below : Location} (nonempty : below ≠ [])
    (proper : ProperLocation below) :
    (Text.splitOn '/' (relativeText below).toList).map String.ofList =
      below := by
  rw [Text.splitOn_eq_splitOn, relativeText, String.toList_intercalate]
  have separator : "/".toList = ['/'] := rfl
  have kept : List.splitOn '/' (['/'].intercalate (below.map String.toList)) =
      below.map String.toList := by
    apply List.splitOn_intercalate
    · intro chars member
      obtain ⟨name, inside, equal⟩ := List.mem_map.1 member
      rw [← equal]
      exact (proper name inside).2.2.2
    · simpa using nonempty
  rw [separator, kept, List.map_map]
  simp [Function.comp_def]

/-- Below a directory, files are told apart by their relative texts. -/
theorem relativeText_injective {left right : Location}
    (leftNonempty : left ≠ []) (leftProper : ProperLocation left)
    (rightNonempty : right ≠ []) (rightProper : ProperLocation right)
    (same : relativeText left = relativeText right) : left = right := by
  rw [← splitOn_relativeText leftNonempty leftProper, same,
    splitOn_relativeText rightNonempty rightProper]

theorem relativeText_relative {below : Location} (nonempty : below ≠ [])
    (proper : ProperLocation below) :
    (⟨relativeText below⟩ : Path).isAbsolute = false := by
  obtain ⟨name, rest, rfl⟩ := List.exists_cons_of_ne_nil nonempty
  obtain ⟨notEmpty, _, _, noSeparator⟩ := proper name (by simp)
  have named : name.toList ≠ [] := by simpa using notEmpty
  obtain ⟨char, chars, spelled⟩ := List.exists_cons_of_ne_nil named
  have different : '/' ≠ char := by
    intro equal
    exact noSeparator (by rw [spelled, equal]; exact List.mem_cons_self)
  have starts : ∃ more, (relativeText (name :: rest)).toList = char :: more := by
    cases rest with
    | nil => exact ⟨chars, by simp [relativeText, spelled]⟩
    | cons next others =>
        simp [relativeText, String.intercalate_cons_cons, spelled]
  obtain ⟨more, written⟩ := starts
  have other : ('/' == char) = false := by simpa using different
  simp [Path.isAbsolute, Text.startsWith, written, List.isPrefixOf, other]

end FileTree

/-- A file below a directory stands where its names lead from there. -/
theorem Path.target_child {path : Path} {below : Location}
    (written : path.text ≠ "") (nonempty : below ≠ [])
    (proper : ProperLocation below) :
    (path.child (FileTree.relativeText below)).target =
      path.target ++ below := by
  have relative := FileTree.relativeText_relative nonempty proper
  have inner := FileTree.splitOn_relativeText nonempty proper
  unfold child join
  simp only [relative, written, Bool.false_eq_true, if_false]
  split
  · rename_i slashed
    obtain ⟨before, spelled⟩ := List.isSuffixOf_iff_suffix.1 slashed
    have text : path = ⟨String.ofList (before ++ ['/'])⟩ := by
      rw [spelled, String.ofList_toList]
    have whole : path.text ++ FileTree.relativeText below =
        String.ofList
          (before ++ '/' :: (FileTree.relativeText below).toList) := by
      rw [text]
      apply String.toList_injective
      simp
    rw [whole, target_append_separator, inner, filterMap_innerComponent proper,
      Component.foldl_step_names, text, target_append_end]
  · have whole : path.text ++ "/" ++ FileTree.relativeText below =
        String.ofList
          (path.text.toList ++
            '/' :: (FileTree.relativeText below).toList) := by
      apply String.toList_injective
      simp
    rw [whole, target_append_separator, inner, filterMap_innerComponent proper,
      Component.foldl_step_names, String.ofList_toList]

/-! ## Resolving -/

namespace FileTree

variable {tree : FileTree}

/-- Pieces that can be followed lead where their components lead. -/
theorem follow_eq_ok {location found : Location} {pieces : List String}
    (followed : tree.follow location pieces = .ok found) :
    found = (pieces.filterMap Path.innerComponent).foldl Component.step
      location := by
  induction pieces generalizing location with
  | nil =>
      exact (Except.ok.inj followed).symm
  | cons piece rest inductionHypothesis =>
      rw [follow] at followed
      split at followed
      · rename_i skipped
        have inner : Path.innerComponent piece = none := by
          simp [Path.innerComponent, skipped]
        rw [List.filterMap_cons, inner]
        exact inductionHypothesis followed
      · rename_i kept
        split at followed
        · rename_i upward
          have inner : Path.innerComponent piece = some .parent := by
            simp [Path.innerComponent, upward]
          rw [List.filterMap_cons, inner]
          exact inductionHypothesis followed
        · rename_i named
          have inner : Path.innerComponent piece = some (.name piece) := by
            simp [Path.innerComponent, kept, named]
          rw [List.filterMap_cons, inner]
          obtain ⟨_, _, stepped⟩ := bind_eq_ok.1 followed
          dsimp only at stepped
          split at stepped
          · rename_i last
            rw [last]
            exact (Except.ok.inj stepped).symm
          · split at stepped
            · cases stepped
            · cases stepped
            · exact inductionHypothesis stepped

/-- A path that can be resolved is not empty and leads to its target. -/
theorem locate_eq_ok {path : Path} {location : Location}
    (located : tree.locate path = .ok location) :
    path.text ≠ "" ∧ location = path.target := by
  unfold locate checkPath at located
  split at located
  · cases located
  · split at located
    · cases located
    · rename_i written
      split at located
      · cases located
      · refine ⟨written, ?_⟩
        rw [Path.target_eq]
        exact follow_eq_ok located

/-- What a path leads to stands at its target. -/
theorem node?_target {path : Path} {location : Location} {node : Node}
    (found : tree.find path = .ok (location, node)) :
    location = path.target ∧ tree.node? path.target = some node := by
  obtain ⟨located, stands⟩ := find_eq_ok.1 found
  have leads : location = path.target := (locate_eq_ok located).2
  exact ⟨leads, leads ▸ stands⟩

end FileTree

end Deobfuscate
