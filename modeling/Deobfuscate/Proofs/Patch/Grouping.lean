import Deobfuscate.Patch.Bundle
import Deobfuscate.Proofs.Text.Search
import Mathlib.Data.List.DropRight
import Mathlib.Data.List.Infix
import Mathlib.Data.List.Sort

/-!
# The groups of patch files

A patch file belongs to the group that its name gives: the last segment of the
name up to the end of the last `.patch`.  What follows is its rank in the group,
if it is a number.  Files of different names have exactly one grouping, in
which the groups and the files of each group stand in order, so the order in
which the files were found does not matter.
-/

namespace Deobfuscate.Patch

open Deobfuscate.Text

/-- The last segment of a name is its longest end without a slash. -/
def segmentOf (name : String) : List Char :=
  name.toList.rtakeWhile (· ≠ '/')

/-- A segment is cut after the last `.patch` in it: its base is the longest
beginning that ends so. -/
structure IsCut (segment base rest : List Char) : Prop where
  whole : base ++ rest = segment
  marked : patchEnding <:+ base
  last : ∀ other, other <+: segment → patchEnding <:+ other → other <+: base

/-- The rank is the number that is written, and zero if there is none that a
word of 32 bits holds. -/
def IsRank (rest : List Char) (rank : Nat) : Prop :=
  (Writes rest rank ∧ rank < halfWordBound) ∨
    (rank = 0 ∧ ∀ number, ¬(Writes rest number ∧ number < halfWordBound))

def Ranked (name base : String) (rank : Nat) : Prop :=
  ∃ rest, IsCut (segmentOf name) base.toList rest ∧ IsRank rest rank

theorem rtakeWhile_append_of_notMem {front segment : List Char}
    (absent : '/' ∉ segment) :
    (front ++ segment).rtakeWhile (· ≠ '/') =
      front.rtakeWhile (· ≠ '/') ++ segment := by
  have kept : ∀ char ∈ segment.reverse, decide (char ≠ '/') = true := by
    intro char member
    refine decide_eq_true ?_
    rintro rfl
    exact absent (List.mem_reverse.1 member)
  unfold List.rtakeWhile
  rw [List.reverse_append, List.takeWhile_append_of_pos kept,
    List.reverse_append, List.reverse_reverse]

theorem lastSegment_eq_segmentOf (name : String) :
    lastSegment name = segmentOf name := by
  unfold lastSegment segmentOf
  rcases cut : splitLast '/' name.toList with _ | ⟨front, segment⟩
  · rcases splitLast_cases '/' name.toList with ⟨_, absent⟩ | ⟨_, _, found, _⟩
    · exact (@rtakeWhile_append_of_notMem [] _ absent).symm
    · rw [cut] at found
      cases found
  · obtain ⟨whole, absent⟩ := splitLast_eq_some cut
    rw [whole, List.append_cons, rtakeWhile_append_of_notMem absent,
      List.rtakeWhile_concat, if_neg (by decide)]
    rfl

namespace IsCut

variable {segment base rest : List Char}

/-- A segment is cut where its last `.patch` is found. -/
theorem of_findLastPiece {before after : List Char}
    (found : findLastPiece patchEnding segment = some (before, after)) :
    IsCut segment (before ++ patchEnding) after := by
  obtain ⟨whole, last⟩ := findLastPiece_eq_some found
  refine ⟨whole.symm, List.suffix_append _ _, ?_⟩
  rintro other begins ⟨front, rfl⟩
  refine List.prefix_of_prefix_length_le begins ⟨after, whole.symm⟩ ?_
  rw [List.length_append, List.length_append]
  exact Nat.add_le_add_right (last front begins) _

/-- There is only one way to cut a segment. -/
theorem unique {otherBase otherRest : List Char}
    (cut : IsCut segment base rest) (other : IsCut segment otherBase otherRest) :
    base = otherBase ∧ rest = otherRest := by
  have forth := other.last base ⟨rest, cut.whole⟩ cut.marked
  have back := cut.last otherBase ⟨otherRest, other.whole⟩ other.marked
  obtain rfl := forth.eq_of_length_le back.length_le
  exact ⟨rfl, List.append_cancel_left (cut.whole.trans other.whole.symm)⟩

theorem isInfix (cut : IsCut segment base rest) : patchEnding <:+: segment :=
  cut.marked.isInfix.trans (List.IsPrefix.isInfix ⟨rest, cut.whole⟩)

end IsCut

theorem isRank_iff {rest : List Char} {rank : Nat} :
    IsRank rest rank ↔ (readBounded halfWordBound rest).getD 0 = rank := by
  unfold IsRank
  simp only [← readBounded_eq_some_iff]
  rcases readBounded halfWordBound rest with _ | number
  · simp [eq_comm]
  · simp

/-- The base name and the rank that are read off a name are those it has. -/
theorem baseAndRank_eq_some_iff {name base : String} {rank : Nat} :
    baseAndRank name = some (base, rank) ↔ Ranked name base rank := by
  unfold baseAndRank Ranked
  rw [lastSegment_eq_segmentOf]
  rcases found : findLastPiece patchEnding (segmentOf name) with
    _ | ⟨before, after⟩
  · constructor
    · rintro ⟨⟩
    · rintro ⟨rest, cut, _⟩
      exact absurd cut.isInfix (findLastPiece_eq_none_iff.1 found)
  · have here := IsCut.of_findLastPiece found
    constructor
    · intro same
      obtain ⟨rfl, rank⟩ := Prod.mk.inj (Option.some.inj same)
      rw [String.toList_ofList]
      exact ⟨after, here, isRank_iff.2 rank⟩
    · rintro ⟨rest, cut, rank⟩
      obtain ⟨same, rfl⟩ := here.unique cut
      change some (String.ofList (before ++ patchEnding), _) = _
      rw [same, String.ofList_toList, isRank_iff.1 rank]

theorem Ranked.unique {name base other : String} {rank otherRank : Nat}
    (ranked : Ranked name base rank) (also : Ranked name other otherRank) :
    base = other ∧ rank = otherRank := by
  have same := (baseAndRank_eq_some_iff.2 ranked).symm.trans
    (baseAndRank_eq_some_iff.2 also)
  exact Prod.mk.inj (Option.some.inj same)

/-- Just the names with `.patch` in their last segment belong to a group. -/
theorem exists_ranked_iff {name : String} :
    (∃ base rank, Ranked name base rank) ↔
      patchEnding <:+: segmentOf name := by
  constructor
  · rintro ⟨_, _, _, cut, _⟩
    exact cut.isInfix
  · intro inside
    rcases found : findLastPiece patchEnding (segmentOf name) with
      _ | ⟨before, after⟩
    · exact absurd inside (findLastPiece_eq_none_iff.1 found)
    · refine ⟨String.ofList (before ++ patchEnding), _, after, ?_,
        isRank_iff.2 rfl⟩
      rw [String.toList_ofList]
      exact IsCut.of_findLastPiece found

def inGroup (base : String) (file : PatchFile) : Option (Nat × PatchFile) :=
  (baseAndRank file.name).bind fun ranked =>
    if ranked.1 = base then some (ranked.2, file) else none

/-- The files of a group with their ranks, in the order in which they were
found. -/
def membersOf (base : String) (files : List PatchFile) :
    List (Nat × PatchFile) :=
  files.filterMap (inGroup base)

theorem inGroup_eq_some_iff {base : String} {file : PatchFile}
    {entry : Nat × PatchFile} :
    inGroup base file = some entry ↔
      entry.2 = file ∧ Ranked file.name base entry.1 := by
  obtain ⟨rank, held⟩ := entry
  unfold inGroup
  rw [← baseAndRank_eq_some_iff]
  rcases baseAndRank file.name with _ | ⟨name, read⟩
  · simp
  · by_cases here : name = base
    · simp [here, and_comm, eq_comm]
    · simp [here]

theorem mem_membersOf {base : String} {files : List PatchFile}
    {entry : Nat × PatchFile} :
    entry ∈ membersOf base files ↔
      entry.2 ∈ files ∧ Ranked entry.2.name base entry.1 := by
  unfold membersOf
  simp only [List.mem_filterMap, inGroup_eq_some_iff]
  constructor
  · rintro ⟨file, member, rfl, ranked⟩
    exact ⟨member, ranked⟩
  · rintro ⟨member, ranked⟩
    exact ⟨_, member, rfl, ranked⟩

theorem membersOf_sublist (base : String) (files : List PatchFile) :
    ((membersOf base files).map Prod.snd).Sublist files := by
  unfold membersOf
  induction files with
  | nil => exact .slnil
  | cons file rest inductionHypothesis =>
      rw [List.filterMap_cons]
      split
      · exact inductionHypothesis.cons _
      · rename_i entry placed
        rw [List.map_cons, (inGroup_eq_some_iff.1 placed).1]
        exact inductionHypothesis.cons_cons _

/-- A file is put behind the others of its group. -/
theorem get?_addToGroup (groups : Dict (List (Nat × PatchFile)))
    (file : PatchFile) (base : String) :
    ((addToGroup groups file).get? base).getD [] =
      (groups.get? base).getD [] ++ (inGroup base file).toList := by
  unfold addToGroup inGroup
  rcases baseAndRank file.name with _ | ⟨name, rank⟩
  · simp
  · dsimp only [Option.bind_some]
    rw [Dict.get?_insert]
    by_cases here : name = base
    · simp [here]
    · simp [here]

theorem addToGroup_ne_nil {groups : Dict (List (Nat × PatchFile))}
    (inhabited : ∀ base, groups.get? base ≠ some [])
    (file : PatchFile) (base : String) :
    (addToGroup groups file).get? base ≠ some [] := by
  unfold addToGroup
  split
  · exact inhabited base
  · rw [Dict.get?_insert]
    split
    · simp
    · exact inhabited base

/-- What a run puts into a group, whatever was there before. -/
theorem get?_foldl_addToGroup (files : List PatchFile)
    (groups : Dict (List (Nat × PatchFile))) (base : String) :
    ((files.foldl addToGroup groups).get? base).getD [] =
      (groups.get? base).getD [] ++ membersOf base files := by
  induction files generalizing groups with
  | nil => simp [membersOf]
  | cons file rest inductionHypothesis =>
      have here : (inGroup base file).toList ++ membersOf base rest =
          membersOf base (file :: rest) := by
        unfold membersOf
        rw [List.filterMap_cons]
        cases inGroup base file <;> rfl
      rw [List.foldl_cons, inductionHypothesis, get?_addToGroup,
        List.append_assoc, here]

theorem foldl_addToGroup_ne_nil (files : List PatchFile)
    {groups : Dict (List (Nat × PatchFile))}
    (inhabited : ∀ base, groups.get? base ≠ some []) (base : String) :
    (files.foldl addToGroup groups).get? base ≠ some [] := by
  induction files generalizing groups with
  | nil => exact inhabited base
  | cons file rest inductionHypothesis =>
      exact inductionHypothesis (addToGroup_ne_nil inhabited file)

/-- The groups are those of the files, each with its files in order. -/
theorem mem_groupByBase {files : List PatchFile}
    {group : String × List PatchFile} :
    group ∈ groupByBase files ↔ membersOf group.1 files ≠ [] ∧
      group.2 = ((membersOf group.1 files).mergeSort ranksBefore).map
        Prod.snd := by
  have members := get?_foldl_addToGroup files .empty group.1
  have inhabited : (files.foldl addToGroup .empty).get? group.1 ≠ some [] :=
    foldl_addToGroup_ne_nil files (fun _ => by simp) group.1
  unfold groupByBase
  rw [List.mem_map]
  constructor
  · rintro ⟨⟨base, found⟩, member, rfl⟩
    rw [Dict.get?_eq_some_iff.2 member] at members inhabited
    obtain rfl : found = membersOf base files := by simpa using members
    exact ⟨fun empty => inhabited (by rw [empty]), rfl⟩
  · rintro ⟨nonempty, sorted⟩
    refine ⟨(group.1, membersOf group.1 files), Dict.get?_eq_some_iff.1 ?_,
      Prod.ext rfl sorted.symm⟩
    rcases found : (files.foldl addToGroup .empty).get? group.1 with _ | list
    · rw [found] at members
      exact absurd members.symm (by simpa using nonempty)
    · rw [found] at members
      rw [← show list = membersOf group.1 files by simpa using members]

/-! ## The grouping -/

def Before (base : String) (left right : PatchFile) : Prop :=
  ∃ leftRank rightRank, Ranked left.name base leftRank ∧
    Ranked right.name base rightRank ∧
    (leftRank < rightRank ∨ leftRank = rightRank ∧ left.name < right.name)

/-- The groups that a collection of files falls into, and their order. -/
structure IsGrouping (files : List PatchFile)
    (groups : List (String × List PatchFile)) : Prop where
  /-- The names of the groups increase strictly. -/
  increasing : groups.Pairwise fun left right => left.1 < right.1
  /-- There is no group without files. -/
  inhabited : ∀ group ∈ groups, group.2 ≠ []
  /-- A file with `.patch` in its last segment is in exactly one group. -/
  placed : ∀ file ∈ files, patchEnding <:+: segmentOf file.name →
    ∃! group, group ∈ groups ∧ file ∈ group.2
  /-- What a group holds are files of its name. -/
  named : ∀ group ∈ groups, ∀ file ∈ group.2,
    file ∈ files ∧ ∃ rest, IsCut (segmentOf file.name) group.1.toList rest
  /-- In a group the files stand in strict order, so none is there twice. -/
  ordered : ∀ group ∈ groups, group.2.Pairwise (Before group.1)

theorem Before.asymm {base : String} {left right : PatchFile}
    (before : Before base left right) : ¬Before base right left := by
  obtain ⟨_, _, first, second, less⟩ := before
  rintro ⟨_, _, secondAgain, firstAgain, greater⟩
  obtain ⟨_, rfl⟩ := first.unique firstAgain
  obtain ⟨_, rfl⟩ := second.unique secondAgain
  rcases less with less | ⟨same, less⟩
  · rcases greater with greater | ⟨same, _⟩
    · exact Nat.lt_asymm less greater
    · exact Nat.ne_of_lt less same.symm
  · rcases greater with greater | ⟨_, greater⟩
    · exact Nat.ne_of_lt greater same.symm
    · exact String.lt_irrefl _ (String.lt_trans less greater)

instance (base : String) : Std.Irrefl (Before base) :=
  ⟨fun _ before => before.asymm before⟩

theorem ranksBefore_iff {left right : Nat × PatchFile} :
    ranksBefore left right = true ↔ left.1 < right.1 ∨
      left.1 = right.1 ∧ left.2.name ≤ right.2.name := by
  simp [ranksBefore]

theorem ranksBefore_trans {first second third : Nat × PatchFile}
    (before : ranksBefore first second = true)
    (after : ranksBefore second third = true) :
    ranksBefore first third = true := by
  rw [ranksBefore_iff] at before after ⊢
  rcases before with less | ⟨same, before⟩
  · rcases after with more | ⟨equal, _⟩
    · exact .inl (Nat.lt_trans less more)
    · exact .inl (equal ▸ less)
  · rcases after with more | ⟨equal, after⟩
    · exact .inl (same ▸ more)
    · exact .inr ⟨same.trans equal, String.le_trans before after⟩

theorem ranksBefore_total (left right : Nat × PatchFile) :
    (ranksBefore left right || ranksBefore right left) = true := by
  rw [Bool.or_eq_true, ranksBefore_iff, ranksBefore_iff]
  rcases Nat.lt_trichotomy left.1 right.1 with less | same | greater
  · exact .inl (.inl less)
  · rcases String.le_total left.2.name right.2.name with before | after
    · exact .inl (.inr ⟨same, before⟩)
    · exact .inr (.inr ⟨same.symm, after⟩)
  · exact .inr (.inl greater)

section Grouping

variable {files : List PatchFile}

/-- The files of a group stand in order if their names are different. -/
theorem pairwise_before (distinct : (files.map PatchFile.name).Nodup)
    (base : String) :
    (((membersOf base files).mergeSort ranksBefore).map
      Prod.snd).Pairwise (Before base) := by
  have sorted : ((membersOf base files).mergeSort ranksBefore).Pairwise
      fun left right => ranksBefore left right = true := by
    apply List.pairwise_mergeSort
    · exact fun _ _ _ => ranksBefore_trans
    · exact ranksBefore_total
  have arranged := List.mergeSort_perm (membersOf base files) ranksBefore
  have different : (((membersOf base files).mergeSort ranksBefore).map
      Prod.snd).Pairwise fun left right => left.name ≠ right.name := by
    rw [← List.pairwise_map]
    exact ((arranged.map _).map _).nodup_iff.2
      (((membersOf_sublist base files).map _).nodup distinct)
  rw [List.pairwise_map] at different ⊢
  refine (sorted.and different).imp_of_mem ?_
  rintro left right leftMember rightMember ⟨before, different⟩
  refine ⟨_, _, (mem_membersOf.1 (arranged.mem_iff.1 leftMember)).2,
    (mem_membersOf.1 (arranged.mem_iff.1 rightMember)).2, ?_⟩
  refine (ranksBefore_iff.1 before).imp_right (And.imp_right fun le => ?_)
  exact Std.lt_of_le_of_ne le different

/-- Files are in the group that their names give. -/
theorem mem_group_iff {group : String × List PatchFile} {file : PatchFile}
    (member : group ∈ groupByBase files) :
    file ∈ group.2 ↔ file ∈ files ∧ ∃ rank, Ranked file.name group.1 rank := by
  rw [(mem_groupByBase.1 member).2, List.mem_map]
  simp only [List.mem_mergeSort, mem_membersOf]
  constructor
  · rintro ⟨⟨rank, _⟩, ⟨found, ranked⟩, rfl⟩
    exact ⟨found, rank, ranked⟩
  · rintro ⟨found, rank, ranked⟩
    exact ⟨(rank, file), ⟨found, ranked⟩, rfl⟩

theorem groupByBase_increasing (files : List PatchFile) :
    (groupByBase files).Pairwise fun left right => left.1 < right.1 := by
  unfold groupByBase
  rw [List.pairwise_map]
  exact (files.foldl addToGroup .empty).sorted

section Increasing

variable {groups : List (String × List PatchFile)}
  (increasing : groups.Pairwise fun left right => left.1 < right.1)

include increasing

theorem nodup_names : (groups.map Prod.fst).Nodup := by
  refine List.pairwise_map.2 (increasing.imp ?_)
  intro left right less same
  rw [same] at less
  exact String.lt_irrefl _ less

/-- Groups whose names increase are told apart by them. -/
theorem eq_of_name_eq {group other : String × List PatchFile}
    (member : group ∈ groups) (also : other ∈ groups)
    (same : group.1 = other.1) : group = other :=
  List.inj_on_of_nodup_map (nodup_names increasing) member also same

end Increasing

theorem isGrouping_groupByBase
    (distinct : (files.map PatchFile.name).Nodup) :
    IsGrouping files (groupByBase files) where
  increasing := groupByBase_increasing files
  inhabited := by
    intro group member empty
    obtain ⟨nonempty, sorted⟩ := mem_groupByBase.1 member
    rw [sorted, List.map_eq_nil_iff] at empty
    have arranged := List.mergeSort_perm (membersOf group.1 files) ranksBefore
    rw [empty] at arranged
    exact nonempty arranged.nil_eq.symm
  placed := by
    intro file found inside
    obtain ⟨base, rank, ranked⟩ := exists_ranked_iff.2 inside
    have held : (rank, file) ∈ membersOf base files :=
      mem_membersOf.2 ⟨found, ranked⟩
    have member : (base, ((membersOf base files).mergeSort ranksBefore).map
        Prod.snd) ∈ groupByBase files :=
      mem_groupByBase.2 ⟨List.ne_nil_of_mem held, rfl⟩
    refine ⟨_, ⟨member, (mem_group_iff member).2 ⟨found, rank, ranked⟩⟩, ?_⟩
    rintro other ⟨also, here⟩
    obtain ⟨_, _, again⟩ := (mem_group_iff also).1 here
    exact eq_of_name_eq (groupByBase_increasing files) also member
      (again.unique ranked).1
  named := by
    intro group member file held
    obtain ⟨found, _, rest, cut, _⟩ := (mem_group_iff member).1 held
    exact ⟨found, rest, cut⟩
  ordered := by
    intro group member
    rw [(mem_groupByBase.1 member).2]
    exact pairwise_before distinct group.1

namespace IsGrouping

variable {groups others : List (String × List PatchFile)}

/-- There is a group for each file that has one by its name. -/
theorem exists_group (grouping : IsGrouping files groups) {file : PatchFile}
    {base : String} {rest : List Char} (found : file ∈ files)
    (cut : IsCut (segmentOf file.name) base.toList rest) :
    ∃ group ∈ groups, group.1 = base ∧ file ∈ group.2 := by
  obtain ⟨group, ⟨member, held⟩, _⟩ := grouping.placed file found cut.isInfix
  obtain ⟨_, _, groupCut⟩ := grouping.named group member file held
  exact ⟨group, member, String.toList_injective (groupCut.unique cut).1, held⟩

/-- A group holds all files of its name. -/
theorem mem_iff (grouping : IsGrouping files groups)
    {group : String × List PatchFile} (member : group ∈ groups)
    {file : PatchFile} :
    file ∈ group.2 ↔ file ∈ files ∧
      ∃ rest, IsCut (segmentOf file.name) group.1.toList rest := by
  refine ⟨grouping.named group member file, ?_⟩
  rintro ⟨found, rest, cut⟩
  obtain ⟨other, also, same, held⟩ := grouping.exists_group found cut
  rwa [eq_of_name_eq grouping.increasing member also same.symm]

theorem mem_of_mem (grouping : IsGrouping files groups)
    (second : IsGrouping files others) {group : String × List PatchFile}
    (member : group ∈ groups) : group ∈ others := by
  obtain ⟨file, held⟩ := List.exists_mem_of_ne_nil _
    (grouping.inhabited group member)
  obtain ⟨found, _, cut⟩ := grouping.named group member file held
  obtain ⟨other, also, same, _⟩ := second.exists_group found cut
  have ordered := grouping.ordered group member
  have orderedAgain := second.ordered other also
  rw [same] at orderedAgain
  have rearranged : other.2.Perm group.2 := by
    refine (List.perm_ext_iff_of_nodup orderedAgain.nodup
      ordered.nodup).2 fun file => ?_
    rw [second.mem_iff also, grouping.mem_iff member, same]
  have equal : other.2 = group.2 := rearranged.eq_of_pairwise
    (fun _ _ _ _ before after => absurd after before.asymm)
    orderedAgain ordered
  rwa [← show other = group from Prod.ext same equal]

/-- There is only one grouping of some files. -/
theorem unique (grouping : IsGrouping files groups)
    (second : IsGrouping files others) : groups = others := by
  have same : groups.Perm others :=
    (List.perm_ext_iff_of_nodup (nodup_names grouping.increasing).of_map
      (nodup_names second.increasing).of_map).2 fun _ =>
        ⟨grouping.mem_of_mem second, second.mem_of_mem grouping⟩
  refine same.eq_of_pairwise ?_ grouping.increasing second.increasing
  intro _ _ _ _ less greater
  exact absurd (String.lt_trans less greater) (String.lt_irrefl _)

/-- A grouping depends on the files alone, not on their order. -/
theorem of_perm {found : List PatchFile} (same : found.Perm files)
    (grouping : IsGrouping files groups) : IsGrouping found groups where
  increasing := grouping.increasing
  inhabited := grouping.inhabited
  placed file member := grouping.placed file (same.mem_iff.1 member)
  named group member file held :=
    (grouping.named group member file held).imp_left same.mem_iff.2
  ordered := grouping.ordered

end IsGrouping

end Grouping

/-- Files of different names are put into groups, each file with `.patch` in its
last segment into one group and the others into none, and in whatever order they
were found the groups are the same. -/
theorem grouping_of_found {files : List PatchFile}
    (distinct : (files.map PatchFile.name).Nodup) :
    IsGrouping files (groupByBase files) ∧
      ∀ found : List PatchFile, found.Perm files →
        groupByBase found = groupByBase files := by
  have grouping := isGrouping_groupByBase distinct
  refine ⟨grouping, fun found same => ?_⟩
  have foundDistinct : (found.map PatchFile.name).Nodup :=
    (same.map _).nodup_iff.2 distinct
  exact (isGrouping_groupByBase foundDistinct).unique (grouping.of_perm same)

/-- Files found in two folders: one with a rank, one with a plus sign before it,
one whose rank cannot be read, one of another group and one that is no patch. -/
def foundFiles : List PatchFile :=
  ["net/A.patch10", "A.patch+2", "net/A.patch2b", "b.patch.patch",
    "A.patches/b"].map fun name => ⟨name, ⟨"found"⟩, ""⟩

theorem grouping_of_foundFiles :
    (foundFiles.map PatchFile.name).Nodup ∧
      IsGrouping foundFiles (groupByBase foundFiles) ∧
      ∀ found : List PatchFile, found.Perm foundFiles →
        groupByBase found = groupByBase foundFiles :=
  ⟨by decide, grouping_of_found (by decide)⟩

example : (groupByBase foundFiles).map (fun group =>
      (group.1, group.2.map PatchFile.name)) =
    [("A.patch", ["net/A.patch2b", "A.patch+2", "net/A.patch10"]),
      ("b.patch.patch", ["b.patch.patch"])] := by
  cbv

end Deobfuscate.Patch
