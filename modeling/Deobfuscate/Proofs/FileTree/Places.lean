import Deobfuscate.Proofs.FileTree.WellFormed
import Mathlib.Data.List.Induction
import Mathlib.Data.List.TakeWhile
import Mathlib.Tactic.ByContra

/-!
# Places that paths pass

To resolve a path, every piece but the last is looked up and must be a
directory.  A path that can be resolved in a tree can be resolved in every other
tree in which the directories it passes still stand.

A tree is rooted when everything in it stands in a directory.
-/

namespace Deobfuscate

namespace Path

/-- The directories that are looked up when pieces are followed from a
location. -/
def passed : Location → List String → List Location
  | _, [] => []
  | location, piece :: rest =>
      if piece = "" ∨ piece = "." then passed location rest
      else if piece = ".." then passed location.dropLast rest
      else if rest = [] then []
      else (location ++ [piece]) :: passed (location ++ [piece]) rest

def places (path : Path) : List Location :=
  passed [] path.pieces ++ [path.target]

def Avoids (path : Path) (location : Location) : Prop :=
  ∀ place ∈ path.places, ¬location <+: place

instance (path : Path) (location : Location) :
    Decidable (path.Avoids location) :=
  inferInstanceAs (Decidable (∀ place ∈ path.places, ¬location <+: place))

theorem Avoids.target {path : Path} {location : Location}
    (avoids : path.Avoids location) : ¬location <+: path.target :=
  avoids path.target (by simp [places])

theorem Avoids.passed {path : Path} {location place : Location}
    (avoids : path.Avoids location) (member : place ∈ passed [] path.pieces) :
    ¬location <+: place :=
  avoids place (by simp [places, member])

/-- As long as something follows, it does not matter what. -/
theorem passed_append (location : Location) (before : List String)
    {rest : List String} (more : rest ≠ []) :
    passed location (before ++ rest) =
      passed location (before ++ [""]) ++
        passed ((before.filterMap innerComponent).foldl Component.step
          location) rest := by
  induction before generalizing location with
  | nil =>
      simp [passed]
  | cons piece others inductionHypothesis =>
      simp only [List.cons_append, passed]
      by_cases skipped : piece = "" ∨ piece = "."
      · have inner : innerComponent piece = none := by
          simp [innerComponent, skipped]
        rw [if_pos skipped, if_pos skipped, inductionHypothesis,
          List.filterMap_cons, inner]
      · rw [if_neg skipped, if_neg skipped]
        by_cases upward : piece = ".."
        · have inner : innerComponent piece = some .parent := by
            simp [innerComponent, upward]
          rw [if_pos upward, if_pos upward, inductionHypothesis,
            List.filterMap_cons, inner]
          rfl
        · have inner : innerComponent piece = some (.name piece) := by
            simp [innerComponent, skipped, upward]
          rw [if_neg upward, if_neg upward, if_neg (by simp [more]),
            if_neg (by simp), inductionHypothesis, List.filterMap_cons, inner]
          rfl

/-- The pieces of a path that ends with a name are those before the name, the
name, and what separators at the end leave. -/
theorem pieces_of_lastStep {path : Path} {before : List String}
    {name : String} {slashed : Bool}
    (last : path.lastStep = (before, .name name slashed)) :
    ∃ count, path.pieces = before ++ name :: List.replicate count "" ∧
      slashed = Text.endsWith ['/'] path.text.toList := by
  unfold lastStep at last
  split at last
  · cases last
  · cases last
  · cases last
  · rename_i text above _ _ left
    cases last
    have whole := List.takeWhile_append_dropWhile
      (p := (· == "")) (l := path.pieces.reverse)
    have empties : path.pieces.reverse.takeWhile (· == "") =
        List.replicate (path.pieces.reverse.takeWhile (· == "")).length "" := by
      refine List.eq_replicate_of_mem fun piece member => ?_
      simpa using List.mem_takeWhile_imp member
    rw [left, empties] at whole
    refine ⟨(path.pieces.reverse.takeWhile (· == "")).length, ?_, rfl⟩
    have backwards := congrArg List.reverse whole
    simpa using backwards.symm

end Path

namespace Text

/-- A text that does not end with a separator has a last piece. -/
theorem getLast?_splitOn {separator : Char} {chars : List Char}
    (written : chars ≠ []) (unclosed : endsWith [separator] chars = false) :
    (splitOn separator chars).getLast? ≠ some [] := by
  induction chars with
  | nil =>
      exact absurd rfl written
  | cons char rest inductionHypothesis =>
      by_cases last : rest = []
      · subst last
        have different : char ≠ separator := by
          rintro rfl
          simp [endsWith, List.isSuffixOf] at unclosed
        simp [splitOn, different]
      · have openRest : endsWith [separator] rest = false := by
          by_contra closed
          have ends : [separator] <:+ rest :=
            List.isSuffixOf_iff_suffix.1 (by simpa [endsWith] using closed)
          have whole : endsWith [separator] (char :: rest) = true :=
            List.isSuffixOf_iff_suffix.2 (ends.trans (List.suffix_cons _ _))
          rw [whole] at unclosed
          cases unclosed
        have later := inductionHypothesis last openRest
        rw [splitOn]
        split
        · cases cut : splitOn separator rest with
          | nil => simp [splitOn_eq_splitOn, List.splitOn_ne_nil] at cut
          | cons piece pieces =>
              rw [cut] at later
              simpa [List.getLast?_cons_cons] using later
        · cases cut : splitOn separator rest with
          | nil => simp
          | cons piece pieces =>
              rw [cut] at later
              cases pieces with
              | nil => simp
              | cons next others =>
                  simpa [List.getLast?_cons_cons] using later

end Text

namespace FileTree

variable {tree other : FileTree} {path : Path}

theorem directory_of_passed {location found place : Location}
    {pieces : List String}
    (followed : tree.follow location pieces = .ok found)
    (member : place ∈ Path.passed location pieces) :
    tree.node? place = some .directory := by
  induction pieces generalizing location with
  | nil =>
      exact absurd member List.not_mem_nil
  | cons piece rest inductionHypothesis =>
      rw [follow] at followed
      rw [Path.passed] at member
      split at followed
      · rename_i skipped
        rw [if_pos skipped] at member
        exact inductionHypothesis followed member
      · rename_i kept
        rw [if_neg kept] at member
        split at followed
        · rename_i upward
          rw [if_pos upward] at member
          exact inductionHypothesis followed member
        · rename_i named
          rw [if_neg named] at member
          obtain ⟨_, _, stepped⟩ := bind_eq_ok.1 followed
          dsimp only at stepped
          split at stepped
          · rename_i last
            rw [if_pos last] at member
            exact absurd member List.not_mem_nil
          · rename_i more
            rw [if_neg more] at member
            split at stepped
            · cases stepped
            · cases stepped
            · rename_i directory
              rcases List.mem_cons.1 member with rfl | later
              · exact directory
              · exact inductionHypothesis stepped later

/-- Pieces can be followed as long as the directories they pass stand. -/
theorem follow_of_passed {location found : Location} {pieces : List String}
    (followed : tree.follow location pieces = .ok found)
    (stands : ∀ place ∈ Path.passed location pieces,
      other.node? place = some .directory) :
    other.follow location pieces = .ok found := by
  induction pieces generalizing location with
  | nil =>
      exact followed
  | cons piece rest inductionHypothesis =>
      rw [follow] at followed ⊢
      rw [Path.passed] at stands
      split at followed
      · rename_i skipped
        rw [if_pos skipped] at stands ⊢
        exact inductionHypothesis followed stands
      · rename_i kept
        rw [if_neg kept] at stands ⊢
        split at followed
        · rename_i upward
          rw [if_pos upward] at stands ⊢
          exact inductionHypothesis followed stands
        · rename_i named
          rw [if_neg named] at stands ⊢
          obtain ⟨_, checked, stepped⟩ := bind_eq_ok.1 followed
          refine bind_eq_ok.2 ⟨_, checked, ?_⟩
          dsimp only at stepped ⊢
          split at stepped
          · rename_i last
            rw [if_pos last]
            exact stepped
          · rename_i more
            rw [if_neg more] at stands ⊢
            rw [stands (location ++ [piece]) (by simp)]
            split at stepped
            · cases stepped
            · cases stepped
            · exact inductionHypothesis stepped
                fun place member => stands place (by simp [member])

/-- Pieces are followed one part after the other. -/
theorem follow_append (location : Location) (before : List String)
    {rest : List String} (more : rest ≠ []) :
    tree.follow location (before ++ rest) =
      tree.follow location (before ++ [""]) >>= (tree.follow · rest) := by
  induction before generalizing location with
  | nil =>
      simp [follow, bind, Except.bind]
  | cons piece others inductionHypothesis =>
      simp only [List.cons_append, follow]
      by_cases skipped : piece = "" ∨ piece = "."
      · rw [if_pos skipped, if_pos skipped, inductionHypothesis]
      · rw [if_neg skipped, if_neg skipped]
        by_cases upward : piece = ".."
        · rw [if_pos upward, if_pos upward, inductionHypothesis]
        · rw [if_neg upward, if_neg upward, if_neg (by simp [more]),
            if_neg (by simp)]
          cases checkName piece with
          | error problem => rfl
          | ok _ =>
              simp only [bind, Except.bind]
              rcases tree.node? (location ++ [piece]) with _ | _ | _
              · rfl
              · exact inductionHypothesis (location ++ [piece])
              · rfl

/-! ## Resolving paths -/

theorem directory_of_places {location place : Location}
    (located : tree.locate path = .ok location)
    (member : place ∈ Path.passed [] path.pieces) :
    tree.node? place = some .directory := by
  obtain ⟨_, _, followed⟩ := bind_eq_ok.1 located
  exact directory_of_passed followed member

theorem locate_of_passed {location : Location}
    (located : tree.locate path = .ok location)
    (stands : ∀ place ∈ Path.passed [] path.pieces,
      other.node? place = some .directory) :
    other.locate path = .ok location := by
  obtain ⟨_, checked, followed⟩ := bind_eq_ok.1 located
  exact bind_eq_ok.2 ⟨_, checked, follow_of_passed followed stands⟩

/-- The parts of a path that ends with a name. -/
theorem locateStep_eq_ok {above : Location} {name : String} {slashed : Bool}
    (located : tree.locateStep path = .ok (above, .name name slashed)) :
    ∃ before, path.lastStep = (before, .name name slashed) ∧
      tree.follow [] (before ++ [""]) = .ok above := by
  obtain ⟨_, _, stepped⟩ := bind_eq_ok.1 located
  obtain ⟨found, followed, result⟩ := bind_eq_ok.1 stepped
  injection result with pair
  injection pair with same last
  subst same
  exact ⟨path.lastStep.1, Prod.ext rfl last, followed⟩

theorem locateStep_of_passed {above : Location} {name : String}
    {slashed : Bool}
    (located : tree.locateStep path = .ok (above, .name name slashed))
    (stands : ∀ place ∈ Path.passed [] (path.lastStep.1 ++ [""]),
      other.node? place = some .directory) :
    other.locateStep path = .ok (above, .name name slashed) := by
  obtain ⟨_, checked, stepped⟩ := bind_eq_ok.1 located
  obtain ⟨found, followed, result⟩ := bind_eq_ok.1 stepped
  refine bind_eq_ok.2 ⟨_, checked, bind_eq_ok.2 ⟨found, ?_, result⟩⟩
  exact follow_of_passed followed stands

/-- A path that ends with a name leads there from the directory before it. -/
theorem target_of_locateStep {above : Location} {name : String}
    {slashed : Bool}
    (located : tree.locateStep path = .ok (above, .name name slashed)) :
    path.target = above ++ [name] := by
  obtain ⟨before, last, followed⟩ := locateStep_eq_ok located
  obtain ⟨count, cut, _⟩ := Path.pieces_of_lastStep last
  have proper : ProperName name :=
    Path.properName_of_lastStep (by rw [last])
  have nothing : (List.replicate count "").filterMap Path.innerComponent =
      [] := by
    refine List.filterMap_eq_nil_iff.2 fun piece member => ?_
    simp [List.eq_of_mem_replicate member, Path.innerComponent]
  have skipped : [""].filterMap Path.innerComponent = [] := by
    simp [Path.innerComponent]
  rw [Path.target_eq, cut, List.filterMap_append, List.filterMap_cons,
    Path.innerComponent_of_proper proper, nothing, List.foldl_append,
    follow_eq_ok followed, List.filterMap_append, skipped, List.append_nil]
  rfl

/-- A path whose last name is not followed by a separator is resolved in the
directory before it. -/
theorem locate_of_locateStep {above : Location} {name : String}
    (located : tree.locateStep path = .ok (above, .name name false))
    (checked : checkName name = .ok ()) :
    tree.locate path = .ok (above ++ [name]) := by
  obtain ⟨before, last, followed⟩ := locateStep_eq_ok located
  obtain ⟨count, cut, unslashed⟩ := Path.pieces_of_lastStep last
  have proper : ProperName name :=
    Path.properName_of_lastStep (by rw [last])
  obtain ⟨_, pathChecked, _⟩ := bind_eq_ok.1 located
  have whole : path.pieces = before ++ [name] := by
    rcases count with _ | count
    · exact cut
    · -- The last piece would be empty although no separator ends the text.
      exfalso
      have written : path.text.toList ≠ [] := by
        intro empty
        have single : path.pieces = [""] := by
          simp [Path.pieces, empty, Text.splitOn]
        rw [single] at cut
        have lengths := congrArg List.length cut
        simp at lengths
        omega
      refine Text.getLast?_splitOn written unslashed.symm ?_
      have ends : path.pieces.getLast? = some "" := by
        rw [cut, List.replicate_succ', ← List.cons_append,
          ← List.append_assoc, List.getLast?_concat]
      rw [Path.pieces, List.getLast?_map, Option.map_eq_some_iff] at ends
      obtain ⟨piece, found, spelled⟩ := ends
      rw [found, String.ofList_eq_empty_iff.1 spelled]
  refine bind_eq_ok.2 ⟨_, pathChecked, ?_⟩
  rw [whole, follow_append [] before (List.cons_ne_nil _ _), followed]
  obtain ⟨notEmpty, notCurrent, notParent, _⟩ := proper
  simp [bind, Except.bind, follow, notEmpty, notCurrent, notParent, checked]
  rfl

theorem find_of_passed {location : Location} {node : Node}
    (found : tree.find path = .ok (location, node))
    (stands : ∀ place ∈ Path.passed [] path.pieces,
      other.node? place = some .directory)
    (same : other.node? path.target = some node) :
    other.find path = .ok (location, node) := by
  obtain ⟨located, _⟩ := find_eq_ok.1 found
  refine find_eq_ok.2 ⟨locate_of_passed located stands, ?_⟩
  rw [(locate_eq_ok located).2]
  exact same

/-- On the way to a directory there are directories only. -/
theorem directory_of_find {location place : Location}
    (leads : tree.find path = .ok (location, .directory))
    (member : place ∈ path.places) :
    tree.node? place = some .directory := by
  obtain ⟨located, _⟩ := find_eq_ok.1 leads
  rcases List.mem_append.1 member with earlier | last
  · exact directory_of_places located earlier
  · rw [List.mem_singleton.1 last]
    exact (node?_target leads).2

/-- Everything stands in a directory. -/
def Rooted (tree : FileTree) : Prop :=
  ∀ location node, tree.node? location = some node →
    tree.node? location.dropLast = some .directory

@[simp]
theorem node?_nil (tree : FileTree) : tree.node? [] = some .directory :=
  if_pos rfl

theorem mem_of_node? {location : Location} {node : Node}
    (below : location ≠ []) (stands : tree.node? location = some node) :
    (location, node) ∈ tree.nodes := by
  rw [node?, if_neg below] at stands
  obtain ⟨before, after, split, _⟩ := List.lookup_eq_some_iff.1 stands
  rw [split]
  simp

theorem rooted_iff_entries :
    tree.Rooted ↔ ∀ entry ∈ tree.nodes,
      tree.node? entry.1.dropLast = some .directory := by
  constructor
  · rintro rooted ⟨location, node⟩ member
    by_cases top : location = []
    · simp [top]
    · have bound : (tree.nodes.lookup location).isSome := by
        simp only [List.lookup_isSome_iff, beq_iff_eq]
        exact ⟨_, member, rfl⟩
      obtain ⟨found, looked⟩ := Option.isSome_iff_exists.1 bound
      exact rooted location found (by rw [node?, if_neg top, looked])
  · intro each location node stands
    by_cases top : location = []
    · simp [top]
    · exact each _ (mem_of_node? top stands)

instance (tree : FileTree) : Decidable tree.Rooted :=
  decidable_of_iff _ rooted_iff_entries.symm

namespace Rooted

variable (rooted : tree.Rooted)

include rooted

theorem directory_of_append {above below : Location} {node : Node}
    (more : below ≠ []) (stands : tree.node? (above ++ below) = some node) :
    tree.node? above = some .directory := by
  induction below using List.reverseRecOn generalizing node with
  | nil =>
      exact absurd rfl more
  | append_singleton names name inductionHypothesis =>
      have directory := rooted _ _ stands
      rw [← List.append_assoc, List.dropLast_concat] at directory
      by_cases last : names = []
      · simpa [last] using directory
      · exact inductionHypothesis last directory

/-- What stands above something is a directory. -/
theorem directory_of_prefix {above location : Location} {node : Node}
    (inside : above <+: location) (different : above ≠ location)
    (stands : tree.node? location = some node) :
    tree.node? above = some .directory := by
  obtain ⟨below, rfl⟩ := inside
  have more : below ≠ [] := by
    rintro rfl
    simp at different
  exact rooted.directory_of_append more stands

/-- Nothing stands below a place where nothing stands. -/
theorem none_below {above location : Location} (inside : above <+: location)
    (nothing : tree.node? above = none) : tree.node? location = none := by
  by_contra something
  obtain ⟨node, stands⟩ := Option.ne_none_iff_exists'.1 something
  by_cases same : above = location
  · rw [same, stands] at nothing
    cases nothing
  · rw [rooted.directory_of_prefix inside same stands] at nothing
    cases nothing

/-- Nothing stands below a file. -/
theorem none_below_file {above location : Location} {content : Bytes}
    {modified identity : Nat} (inside : above <+: location)
    (different : above ≠ location)
    (file : tree.node? above = some (.file content modified identity)) :
    tree.node? location = none := by
  by_contra something
  obtain ⟨node, stands⟩ := Option.ne_none_iff_exists'.1 something
  rw [rooted.directory_of_prefix inside different stands] at file
  cases file

theorem follow_directory {location found : Location} {pieces : List String}
    (start : tree.node? location = some .directory)
    (followed : tree.follow location (pieces ++ [""]) = .ok found) :
    tree.node? found = some .directory := by
  induction pieces generalizing location with
  | nil =>
      simp only [List.nil_append, follow, true_or, if_true] at followed
      rw [← Except.ok.inj followed]
      exact start
  | cons piece rest inductionHypothesis =>
      rw [List.cons_append, follow] at followed
      split at followed
      · exact inductionHypothesis start followed
      · split at followed
        · exact inductionHypothesis (rooted _ _ start) followed
        · obtain ⟨_, _, stepped⟩ := bind_eq_ok.1 followed
          rw [if_neg (by simp)] at stepped
          split at stepped
          · cases stepped
          · cases stepped
          · rename_i directory
            exact inductionHypothesis directory stepped

/-- The last step of a path is taken in a directory. -/
theorem directory_of_locateStep {path : Path} {above : Location}
    {name : String} {slashed : Bool}
    (located : tree.locateStep path = .ok (above, .name name slashed)) :
    tree.node? above = some .directory := by
  obtain ⟨before, _, followed⟩ := locateStep_eq_ok located
  exact rooted.follow_directory (node?_nil tree) followed

end Rooted

end FileTree

end Deobfuscate
