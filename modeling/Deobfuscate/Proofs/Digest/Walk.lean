import Deobfuscate.Proofs.Digest.Memo
import Deobfuscate.Proofs.FileTree.WellFormed
import Mathlib.Data.List.Forall2

/-!
# Files below a directory

In a well-formed tree the files below a directory are told apart by their
relative texts, and their texts are listed in strictly increasing order.  The
file of such a text, opened through the path of the directory, is the one that
stands below it.
-/

namespace Deobfuscate

section Results

variable {ε α β : Type} {give : α → Except ε β}

theorem mapM_eq_ok {items : List α} {results : List β} :
    items.mapM give = .ok results ↔
      List.Forall₂ (fun item result => give item = .ok result) items
        results := by
  induction items generalizing results with
  | nil =>
      rw [List.forall₂_nil_left_iff, List.mapM_nil]
      constructor
      · intro same
        exact (Except.ok.inj same).symm
      · rintro rfl
        rfl
  | cons item rest inductionHypothesis =>
      rw [List.mapM_cons, List.forall₂_cons_left_iff, bind_eq_ok]
      constructor
      · rintro ⟨result, given, later⟩
        obtain ⟨others, mapped, whole⟩ := bind_eq_ok.1 later
        exact ⟨result, others, given, inductionHypothesis.1 mapped,
          (Except.ok.inj whole).symm⟩
      · rintro ⟨result, others, given, mapped, rfl⟩
        refine ⟨result, given, bind_eq_ok.2 ⟨others, ?_, rfl⟩⟩
        exact inductionHypothesis.2 mapped

theorem exists_mapM_eq_ok {items : List α}
    (each : ∀ item ∈ items, ∃ result, give item = .ok result) :
    ∃ results, items.mapM give = .ok results := by
  induction items with
  | nil =>
      exact ⟨[], rfl⟩
  | cons item rest inductionHypothesis =>
      obtain ⟨result, given⟩ := each item (by simp)
      obtain ⟨results, mapped⟩ := inductionHypothesis
        fun other member => each other (by simp [member])
      refine ⟨result :: results, ?_⟩
      rw [List.mapM_cons]
      exact bind_eq_ok.2 ⟨result, given, bind_eq_ok.2 ⟨results, mapped, rfl⟩⟩

/-- In related lists, everything on the left is related to something. -/
theorem exists_related {related : α → β → Prop} {items : List α}
    {results : List β} (pointwise : List.Forall₂ related items results)
    {item : α} (member : item ∈ items) :
    ∃ result ∈ results, related item result := by
  induction pointwise with
  | nil =>
      exact absurd member List.not_mem_nil
  | cons first _ inductionHypothesis =>
      rcases List.mem_cons.1 member with rfl | later
      · exact ⟨_, by simp, first⟩
      · obtain ⟨result, listed, holds⟩ := inductionHypothesis later
        exact ⟨result, by simp [listed], holds⟩

end Results

namespace FileTree

variable {tree : FileTree} {path : Path}

def contentAt (tree : FileTree) (location : Location) : Option Bytes :=
  match tree.node? location with
  | some (.file content _ _) => some content
  | _ => none

theorem contentAt_eq_some {location : Location} {content : Bytes} :
    tree.contentAt location = some content ↔
      ∃ modified identity,
        tree.node? location = some (.file content modified identity) := by
  unfold contentAt
  split
  · rename_i held modified identity stands
    rw [stands]
    constructor
    · intro same
      cases same
      exact ⟨modified, identity, rfl⟩
    · rintro ⟨_, _, same⟩
      cases same
      rfl
  · rename_i other
    constructor
    · intro impossible
      cases impossible
    · rintro ⟨modified, identity, stands⟩
      exact absurd stands (other content modified identity)

theorem readBytes_eq_ok {content : Bytes} :
    tree.readBytes path = .ok content ↔
      ∃ location, tree.locate path = .ok location ∧
        tree.contentAt location = some content := by
  unfold readBytes
  rw [bind_eq_ok]
  constructor
  · rintro ⟨⟨location, node⟩, found, result⟩
    obtain ⟨located, stands⟩ := find_eq_ok.1 found
    split at result
    · rename_i held modified identity pair
      injection pair with same file
      subst same file
      cases result
      exact ⟨_, located, contentAt_eq_some.2 ⟨modified, identity, stands⟩⟩
    · cases result
  · rintro ⟨location, located, held⟩
    obtain ⟨modified, identity, stands⟩ := contentAt_eq_some.1 held
    exact ⟨_, find_eq_ok.2 ⟨located, stands⟩, rfl⟩

theorem contentAt_target {content : Bytes}
    (read : tree.readBytes path = .ok content) :
    tree.contentAt path.target = some content := by
  obtain ⟨location, located, held⟩ := readBytes_eq_ok.1 read
  rwa [(locate_eq_ok located).2] at held

theorem isFile_iff :
    tree.isFile path = true ↔ ∃ bytes, tree.readBytes path = .ok bytes := by
  unfold isFile readBytes
  rcases tree.find path with _ | ⟨_, _ | ⟨content, _, _⟩⟩
  · simp [bind, Except.bind]
  · simp [bind, Except.bind]
  · simp [bind, Except.bind, pure, Except.pure]

/-- A path can be hashed when its file can be read. -/
theorem hashAt_eq_ok {hash : Bytes} :
    tree.hashAt path = .ok hash ↔
      ∃ content, tree.readBytes path = .ok content ∧
        hash = Sha256.hash content := by
  unfold hashAt hashedFile readBytes
  rcases found : tree.find path with problem | ⟨location, _ | ⟨content, _, _⟩⟩
  · simp [bind, Except.bind]
  · simp [bind, Except.bind]
  · simp [bind, Except.bind, pure, Except.pure, eq_comm]

theorem fileBelow_eq_some {location below : Location} {content : Bytes}
    {entry : Location × Node} :
    fileBelow location entry = some (below, content) ↔
      ∃ modified identity,
        entry = (location ++ below, .file content modified identity) := by
  obtain ⟨place, node⟩ := entry
  unfold fileBelow
  constructor
  · intro chosen
    split at chosen
    · rename_i held modified identity file
      split at chosen
      · rename_i above
        injection chosen with pair
        injection pair with names same
        obtain ⟨rest, equal⟩ := List.isPrefixOf_iff_prefix.1 above
        dsimp only at names equal file
        rw [← equal, List.drop_left] at names
        exact ⟨modified, identity, by rw [← names, equal, ← same, ← file]⟩
      · cases chosen
    · cases chosen
  · rintro ⟨modified, identity, same⟩
    injection same with place node
    subst place node
    simp

theorem mem_filesBelow (formed : tree.WellFormed) {location below : Location}
    {content : Bytes} :
    (below, content) ∈ tree.filesBelow location ↔
      tree.contentAt (location ++ below) = some content := by
  rw [filesBelow, List.mem_filterMap, contentAt_eq_some]
  constructor
  · rintro ⟨entry, member, chosen⟩
    obtain ⟨modified, identity, rfl⟩ := fileBelow_eq_some.1 chosen
    exact ⟨modified, identity, (formed.mem_nodes_iff.1 member).2⟩
  · rintro ⟨modified, identity, stands⟩
    refine ⟨_, formed.mem_nodes_iff.2 ⟨?_, stands⟩,
      fileBelow_eq_some.2 ⟨modified, identity, rfl⟩⟩
    intro top
    rw [top, node?, if_pos rfl] at stands
    cases stands

/-- No file is met twice. -/
theorem filesBelow_distinct (formed : tree.WellFormed) (location : Location) :
    (tree.filesBelow location).Pairwise fun left right =>
      left.1 ≠ right.1 := by
  have distinct := formed.distinct
  rw [List.Nodup, List.pairwise_map] at distinct
  rw [filesBelow, List.pairwise_filterMap]
  refine distinct.imp ?_
  rintro left right different ⟨leftBelow, leftContent⟩ leftChosen
    ⟨rightBelow, rightContent⟩ rightChosen same
  obtain ⟨_, _, rfl⟩ := fileBelow_eq_some.1 leftChosen
  obtain ⟨_, _, rfl⟩ := fileBelow_eq_some.1 rightChosen
  exact different (congrArg (location ++ ·) same)

/-! ### The order of names -/

theorem inNameOrder_total (left right : Location) :
    inNameOrder left right || inNameOrder right left := by
  induction left generalizing right with
  | nil => rfl
  | cons name rest inductionHypothesis =>
      cases right with
      | nil => rfl
      | cons other others =>
          unfold inNameOrder
          by_cases same : name = other
          · rw [if_pos same, if_pos same.symm]
            exact inductionHypothesis others
          · rw [if_neg same, if_neg (Ne.symm same)]
            rcases Std.lt_trichotomy name other with less | equal | greater
            · simp [less]
            · exact absurd equal same
            · simp [greater]

theorem inNameOrder_trans {first second third : Location}
    (before : inNameOrder first second = true)
    (after : inNameOrder second third = true) :
    inNameOrder first third = true := by
  induction first generalizing second third with
  | nil => rfl
  | cons name rest inductionHypothesis =>
      cases second with
      | nil => cases before
      | cons middle middles =>
          cases third with
          | nil => cases after
          | cons last lasts =>
              unfold inNameOrder at before after ⊢
              by_cases firstSame : name = middle
              · subst firstSame
                rw [if_pos rfl] at before
                split at after
                · rename_i lastSame
                  rw [if_pos lastSame]
                  exact inductionHypothesis before after
                · rename_i different
                  rw [if_neg different]
                  exact after
              · rw [if_neg firstSame] at before
                split at after
                · rename_i lastSame
                  rw [← lastSame, if_neg firstSame]
                  exact before
                · have less : name < last :=
                    String.lt_trans (of_decide_eq_true before)
                      (of_decide_eq_true after)
                  rw [if_neg (String.ne_of_lt less)]
                  exact decide_eq_true less

theorem inNameOrder_antisymm {left right : Location}
    (before : inNameOrder left right = true)
    (after : inNameOrder right left = true) : left = right := by
  induction left generalizing right with
  | nil =>
      cases right with
      | nil => rfl
      | cons _ _ => cases after
  | cons name rest inductionHypothesis =>
      cases right with
      | nil => cases before
      | cons other others =>
          unfold inNameOrder at before after
          by_cases same : name = other
          · rw [if_pos same] at before
            rw [if_pos same.symm] at after
            rw [same, inductionHypothesis before after]
          · rw [if_neg same] at before
            rw [if_neg (Ne.symm same)] at after
            exact absurd (of_decide_eq_true after)
              (String.lt_asymm (of_decide_eq_true before))

theorem sortedFilesBelow_perm (tree : FileTree) (location : Location) :
    (tree.sortedFilesBelow location).Perm (tree.filesBelow location) :=
  List.mergeSort_perm _ _

theorem sortedFilesBelow_sorted (tree : FileTree) (location : Location) :
    (tree.sortedFilesBelow location).Pairwise fun left right =>
      inNameOrder left.1 right.1 = true := by
  apply List.pairwise_mergeSort
  · intro first second third before after
    exact inNameOrder_trans before after
  · intro first second
    exact inNameOrder_total first.1 second.1

/-- Places with the same contents below them have the same files, and in the order
of their names they come alike, whatever the order in which they are met. -/
theorem sortedFilesBelow_congr {leftTree rightTree : FileTree}
    (leftFormed : leftTree.WellFormed) (rightFormed : rightTree.WellFormed)
    {left right : Location}
    (same : ∀ below, leftTree.contentAt (left ++ below) =
      rightTree.contentAt (right ++ below)) :
    leftTree.sortedFilesBelow left = rightTree.sortedFilesBelow right := by
  have distinct : ∀ {tree : FileTree}, tree.WellFormed → ∀ location,
      (tree.filesBelow location).Nodup := by
    intro tree formed location
    refine (filesBelow_distinct formed location).imp ?_
    rintro first second different rfl
    exact different rfl
  have perm : (leftTree.filesBelow left).Perm (rightTree.filesBelow right) := by
    refine (List.perm_ext_iff_of_nodup (distinct leftFormed left)
      (distinct rightFormed right)).2 ?_
    rintro ⟨below, content⟩
    rw [mem_filesBelow leftFormed, mem_filesBelow rightFormed, same]
  have sortedPerm := (sortedFilesBelow_perm leftTree left).trans
    (perm.trans (sortedFilesBelow_perm rightTree right).symm)
  refine sortedPerm.eq_of_pairwise ?_ (sortedFilesBelow_sorted leftTree left)
    (sortedFilesBelow_sorted rightTree right)
  rintro ⟨first, firstContent⟩ ⟨second, secondContent⟩ firstMember
    secondMember before after
  obtain rfl : first = second := inNameOrder_antisymm before after
  have firstHeld := (mem_filesBelow leftFormed).1
    ((sortedFilesBelow_perm leftTree left).mem_iff.1 firstMember)
  have secondHeld := (mem_filesBelow rightFormed).1
    ((sortedFilesBelow_perm rightTree right).mem_iff.1 secondMember)
  rw [same, secondHeld] at firstHeld
  rw [Option.some.inj firstHeld]

/-- A directory is not below itself. -/
theorem ne_nil_of_contentAt {location below : Location} {content : Bytes}
    (directory : tree.node? location = some .directory)
    (held : tree.contentAt (location ++ below) = some content) :
    below ≠ [] := by
  rintro rfl
  rw [List.append_nil, contentAt, directory] at held
  cases held

theorem properLocation_of_contentAt (formed : tree.WellFormed)
    {location below : Location} {content : Bytes}
    (held : tree.contentAt (location ++ below) = some content) :
    ProperLocation below := by
  obtain ⟨_, _, stands⟩ := contentAt_eq_some.1 held
  exact (formed.proper_of_node? stands).of_append_right

section Directory

variable {location : Location} (formed : tree.WellFormed)
  (directory : tree.node? location = some .directory)

include formed

theorem mem_relativeFiles {name : String} :
    name ∈ tree.relativeFiles location ↔
      ∃ below content, tree.contentAt (location ++ below) = some content ∧
        name = relativeText below := by
  unfold relativeFiles
  rw [(List.mergeSort_perm _ _).mem_iff, List.mem_map]
  constructor
  · rintro ⟨⟨below, content⟩, member, rfl⟩
    exact ⟨below, content, (mem_filesBelow formed).1 member, rfl⟩
  · rintro ⟨below, content, held, rfl⟩
    exact ⟨(below, content), (mem_filesBelow formed).2 held, rfl⟩

include directory

theorem relativeText_distinct :
    ((tree.filesBelow location).map fun file => relativeText file.1).Nodup := by
  rw [List.Nodup, List.pairwise_map]
  refine (filesBelow_distinct formed location).imp_of_mem ?_
  rintro ⟨left, leftContent⟩ ⟨right, rightContent⟩ leftMember rightMember
    different same
  have leftHeld := (mem_filesBelow formed).1 leftMember
  have rightHeld := (mem_filesBelow formed).1 rightMember
  exact different (relativeText_injective
    (ne_nil_of_contentAt directory leftHeld)
    (properLocation_of_contentAt formed leftHeld)
    (ne_nil_of_contentAt directory rightHeld)
    (properLocation_of_contentAt formed rightHeld) same)

theorem relativeFiles_increasing :
    (tree.relativeFiles location).Pairwise fun left right => left < right := by
  have distinct : (tree.relativeFiles location).Pairwise fun left right =>
      left ≠ right :=
    ((List.mergeSort_perm _ _).nodup_iff).2
      (relativeText_distinct formed directory)
  have sorted : (tree.relativeFiles location).Pairwise fun left right =>
      decide (left ≤ right) = true := by
    apply List.pairwise_mergeSort
    · intro first second third before after
      simp only [decide_eq_true_eq] at before after ⊢
      exact String.le_trans before after
    · intro first second
      simpa using String.le_total first second
  refine (distinct.and sorted).imp ?_
  rintro left right ⟨different, before⟩
  rcases Std.lt_trichotomy left right with less | same | greater
  · exact less
  · exact absurd same different
  · exact absurd greater (String.not_lt.2 (of_decide_eq_true before))

/-- A file below a directory is opened through the path of the directory. -/
theorem readBytes_child {below : Location} {content other : Bytes}
    (leads : tree.find path = .ok (location, .directory))
    (held : tree.contentAt (location ++ below) = some content)
    (read : tree.readBytes (path.child (relativeText below)) = .ok other) :
    other = content := by
  obtain ⟨located, _⟩ := find_eq_ok.1 leads
  obtain ⟨written, target⟩ := locate_eq_ok located
  have found := contentAt_target read
  rw [Path.target_child written (ne_nil_of_contentAt directory held)
    (properLocation_of_contentAt formed held), ← target, held] at found
  rw [Option.some.inj found]

theorem hashAt_child {below : Location} {content hash : Bytes}
    (leads : tree.find path = .ok (location, .directory))
    (held : tree.contentAt (location ++ below) = some content)
    (hashed : tree.hashAt (path.child (relativeText below)) = .ok hash) :
    hash = Sha256.hash content := by
  obtain ⟨read, opened, rfl⟩ := hashAt_eq_ok.1 hashed
  rw [readBytes_child formed directory leads held opened]

end Directory

end FileTree

end Deobfuscate
