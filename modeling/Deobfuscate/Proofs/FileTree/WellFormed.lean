import Deobfuscate.Proofs.FileTree.Resolution

/-!
# Well-formed file trees

A file tree is well formed when nothing is bound twice and every bound location
is made of proper names.  The empty tree is well formed, and every change of a
tree keeps it so, since the names it binds are pieces of paths.
-/

namespace Deobfuscate

theorem ProperLocation.nil : ProperLocation [] :=
  fun _ member => absurd member List.not_mem_nil

theorem ProperLocation.concat {above : Location} {name : String}
    (aboveProper : ProperLocation above) (nameProper : ProperName name) :
    ProperLocation (above ++ [name]) := by
  refine aboveProper.append ?_
  intro other member
  rw [List.mem_singleton.1 member]
  exact nameProper

namespace Path

theorem not_mem_of_mem_pieces {path : Path} {piece : String}
    (member : piece ∈ path.pieces) : '/' ∉ piece.toList := by
  obtain ⟨chars, cut, equal⟩ := List.mem_map.1 member
  rw [← equal, String.toList_ofList]
  exact Text.not_mem_of_mem_splitOn cut

/-- Pieces without separators lead from proper locations to proper
locations. -/
theorem properLocation_foldl {location : Location} {pieces : List String}
    (proper : ProperLocation location)
    (cut : ∀ piece ∈ pieces, '/' ∉ piece.toList) :
    ProperLocation ((pieces.filterMap innerComponent).foldl Component.step
      location) := by
  induction pieces generalizing location with
  | nil =>
      exact proper
  | cons piece rest inductionHypothesis =>
      have cutRest : ∀ other ∈ rest, '/' ∉ other.toList :=
        fun other member => cut other (by simp [member])
      by_cases skipped : piece = "" ∨ piece = "."
      · have inner : innerComponent piece = none := by
          simp [innerComponent, skipped]
        rw [List.filterMap_cons, inner]
        exact inductionHypothesis proper cutRest
      · by_cases upward : piece = ".."
        · have inner : innerComponent piece = some .parent := by
            simp [innerComponent, upward]
          rw [List.filterMap_cons, inner]
          exact inductionHypothesis
            (fun name member => proper name (List.dropLast_subset _ member))
            cutRest
        · have named : ProperName piece :=
            ⟨fun equal => skipped (Or.inl equal),
              fun equal => skipped (Or.inr equal), upward, cut piece (by simp)⟩
          rw [List.filterMap_cons, innerComponent_of_proper named]
          exact inductionHypothesis (proper.concat named) cutRest

/-- The pieces before the last step of a path are pieces of it. -/
theorem mem_pieces_of_lastStep {path : Path} {piece : String}
    (member : piece ∈ path.lastStep.1) : piece ∈ path.pieces := by
  have dropped : ∀ rest, path.pieces.reverse.dropWhile (· == "") = rest →
      ∀ other ∈ rest, other ∈ path.pieces := by
    intro rest equal other inside
    rw [← equal] at inside
    exact List.mem_reverse.1 ((List.dropWhile_sublist _).subset inside)
  unfold lastStep at member
  split at member
  · exact absurd member List.not_mem_nil
  all_goals
    rename_i before left
    exact dropped _ left piece
      (List.mem_cons_of_mem _ (List.mem_reverse.1 member))

/-- The last step of a path leads to a proper name, if to a name at all. -/
theorem properName_of_lastStep {path : Path} {name : String} {slashed : Bool}
    (last : path.lastStep.2 = .name name slashed) : ProperName name := by
  unfold lastStep at last
  split at last
  · cases last
  · cases last
  · cases last
  · rename_i text before notCurrent notParent left
    injection last with same _
    subst same
    have member : text ∈ path.pieces := by
      have inside : text ∈ path.pieces.reverse.dropWhile (· == "") := by
        simp [left]
      exact List.mem_reverse.1 ((List.dropWhile_sublist _).subset inside)
    have nonempty : ¬(text == "") = true := by
      have first := List.head?_dropWhile_not (· == "") path.pieces.reverse
      rw [left] at first
      simpa using first
    exact ⟨fun equal => nonempty (by simp [equal]),
      notCurrent, notParent, not_mem_of_mem_pieces member⟩

end Path

namespace FileTree

/-- The last step of a path that can be resolved is taken in a proper
location. -/
theorem properLocation_of_locateStep {tree : FileTree} {path : Path}
    {directory : Location} {step : Path.LastStep}
    (located : tree.locateStep path = .ok (directory, step)) :
    ProperLocation directory ∧ path.lastStep.2 = step := by
  unfold locateStep at located
  obtain ⟨_, _, stepped⟩ := bind_eq_ok.1 located
  obtain ⟨found, followed, result⟩ := bind_eq_ok.1 stepped
  injection result with pair
  injection pair with same last
  subst same
  refine ⟨?_, last⟩
  rw [follow_eq_ok followed]
  refine Path.properLocation_foldl ProperLocation.nil ?_
  intro piece member
  rcases List.mem_append.1 member with earlier | added
  · exact Path.not_mem_of_mem_pieces (Path.mem_pieces_of_lastStep earlier)
  · simp [List.mem_singleton.1 added]

/-- The place of a name is proper. -/
theorem properLocation_of_locateStep_name {tree : FileTree} {path : Path}
    {directory : Location} {name : String} {slashed : Bool}
    (located : tree.locateStep path = .ok (directory, .name name slashed)) :
    ProperLocation (directory ++ [name]) := by
  obtain ⟨proper, last⟩ := properLocation_of_locateStep located
  exact proper.concat (Path.properName_of_lastStep last)

theorem properLocation_of_locateFile {tree : FileTree} {path : Path}
    {location : Location} (located : tree.locateFile path = .ok location) :
    location ≠ [] ∧ ProperLocation location := by
  unfold locateFile at located
  obtain ⟨⟨directory, step⟩, stepped, result⟩ := bind_eq_ok.1 located
  split at result
  · rename_i above name slashed pair
    injection pair with same last
    subst same last
    split at result
    · cases result
    · obtain ⟨_, _, made⟩ := bind_eq_ok.1 result
      injection made with equal
      rw [← equal]
      exact ⟨by simp, properLocation_of_locateStep_name stepped⟩
  · cases result

/-- Nothing is bound twice, and only proper locations below the root are
bound. -/
structure WellFormed (tree : FileTree) : Prop where
  distinct : (tree.nodes.map Prod.fst).Nodup
  proper : ∀ entry ∈ tree.nodes, entry.1 ≠ [] ∧ ProperLocation entry.1

instance (tree : FileTree) : Decidable tree.WellFormed :=
  decidable_of_iff
    ((tree.nodes.map Prod.fst).Nodup ∧
      ∀ entry ∈ tree.nodes, entry.1 ≠ [] ∧ ProperLocation entry.1)
    ⟨fun formed => ⟨formed.1, formed.2⟩,
      fun formed => ⟨formed.distinct, formed.proper⟩⟩

namespace WellFormed

variable {tree : FileTree}

/-- In a well-formed tree the entries are what look-ups find. -/
theorem mem_nodes_iff (formed : tree.WellFormed) {location : Location}
    {node : Node} :
    (location, node) ∈ tree.nodes ↔
      location ≠ [] ∧ tree.node? location = some node := by
  constructor
  · intro member
    have below : location ≠ [] := (formed.proper _ member).1
    refine ⟨below, ?_⟩
    rw [node?, if_neg below]
    obtain ⟨before, after, split⟩ := List.append_of_mem member
    refine List.lookup_eq_some_iff.2 ⟨before, after, split, ?_⟩
    intro entry earlier
    have distinct := formed.distinct
    rw [split, List.map_append, List.map_cons] at distinct
    have apart := (List.nodup_append.1 distinct).2.2 entry.1
      (List.mem_map_of_mem earlier) location (by simp)
    exact bne_iff_ne.2 (Ne.symm apart)
  · rintro ⟨below, stands⟩
    rw [node?, if_neg below] at stands
    obtain ⟨before, after, split, _⟩ := List.lookup_eq_some_iff.1 stands
    rw [split]
    simp

theorem proper_of_node? (formed : tree.WellFormed) {location : Location}
    {node : Node} (stands : tree.node? location = some node) :
    ProperLocation location := by
  by_cases top : location = []
  · rw [top]
    exact ProperLocation.nil
  · exact (formed.proper _ (formed.mem_nodes_iff.2 ⟨top, stands⟩)).2

/-! ## Changes at locations -/

theorem empty : WellFormed {} :=
  ⟨List.nodup_nil, fun _ member => absurd member List.not_mem_nil⟩

/-- Leaving out entries keeps a tree well formed. -/
theorem of_sublist {other : FileTree} (formed : tree.WellFormed)
    (fewer : other.nodes.Sublist tree.nodes) : other.WellFormed :=
  ⟨formed.distinct.sublist (fewer.map Prod.fst),
    fun entry member => formed.proper entry (fewer.subset member)⟩

theorem setNode (formed : tree.WellFormed) {location : Location}
    (below : location ≠ []) (proper : ProperLocation location) (node : Node) :
    (tree.setNode location node).WellFormed := by
  have fewer : (tree.nodes.filter fun entry => entry.1 != location).Sublist
      tree.nodes := List.filter_sublist
  constructor
  · refine List.nodup_cons.2 ⟨?_, formed.distinct.sublist (fewer.map _)⟩
    intro member
    obtain ⟨entry, kept, same⟩ := List.mem_map.1 member
    exact bne_iff_ne.1 (List.mem_filter.1 kept).2 same
  · intro entry member
    rcases List.mem_cons.1 member with new | kept
    · rw [new]
      exact ⟨below, proper⟩
    · exact formed.proper entry (fewer.subset kept)

theorem removeAt (formed : tree.WellFormed) (location : Location) :
    (tree.removeAt location).WellFormed :=
  formed.of_sublist List.filter_sublist

theorem emptyAt (formed : tree.WellFormed) (location : Location) :
    (tree.emptyAt location).WellFormed :=
  formed.of_sublist List.filter_sublist

theorem tick (formed : tree.WellFormed) : tree.tick.WellFormed :=
  formed.of_sublist (List.Sublist.refl _)

private theorem prefix_append_drop {above location : Location}
    (inside : above.isPrefixOf location = true) :
    location = above ++ location.drop above.length := by
  obtain ⟨below, equal⟩ := List.isPrefixOf_iff_prefix.1 inside
  rw [← equal, List.drop_left]

/-- What moves keeps its names below the place it moves to, and nothing else is
left there. -/
theorem moveAt (formed : tree.WellFormed) (source : Location)
    {target : Location} (below : target ≠ [])
    (proper : ProperLocation target) :
    (tree.moveAt source target).WellFormed := by
  have kept := (formed.removeAt source).removeAt target
  constructor
  · have movedDistinct : ((tree.nodes.filter fun entry =>
        source.isPrefixOf entry.1).map Prod.fst).Nodup :=
      formed.distinct.sublist (List.filter_sublist.map _)
    simp only [FileTree.moveAt, List.map_append, List.map_map]
    refine List.nodup_append.2 ⟨?_, kept.distinct, ?_⟩
    · rw [List.Nodup, List.pairwise_map] at movedDistinct ⊢
      refine movedDistinct.imp_of_mem ?_
      intro left right leftMoved rightMoved different same
      apply different
      have leftSplit := prefix_append_drop (List.mem_filter.1 leftMoved).2
      have rightSplit := prefix_append_drop (List.mem_filter.1 rightMoved).2
      rw [leftSplit, rightSplit, List.append_cancel_left same]
    · intro new moved old stays same
      obtain ⟨entry, _, equal⟩ := List.mem_map.1 moved
      obtain ⟨other, member, same'⟩ := List.mem_map.1 stays
      have outside := (List.mem_filter.1 member).2
      have inside : target.isPrefixOf other.1 = true := by
        rw [same', ← same, ← equal]
        exact List.isPrefixOf_iff_prefix.2 (List.prefix_append _ _)
      simp [inside] at outside
  · intro entry member
    rcases List.mem_append.1 member with moved | stays
    · obtain ⟨old, inside, rfl⟩ := List.mem_map.1 moved
      refine ⟨by simp [below], proper.append ?_⟩
      intro name named
      have member : old ∈ tree.nodes := (List.mem_filter.1 inside).1
      exact (formed.proper old member).2 name (List.mem_of_mem_drop named)
    · exact kept.proper entry stays

variable {after : FileTree} {path : Path}

theorem writeAt (formed : tree.WellFormed) {location : Location}
    {content : Bytes} {time : Nat} (below : location ≠ [])
    (proper : ProperLocation location)
    (written : tree.writeAt location content time = .ok after) :
    after.WellFormed := by
  unfold FileTree.writeAt at written
  split at written
  · cases written
  all_goals
    cases written
    exact (formed.setNode below proper _).tick

theorem writeBytes (formed : tree.WellFormed) {content : Bytes}
    (written : tree.writeBytes path content = .ok after) :
    after.WellFormed := by
  obtain ⟨location, located, result⟩ := bind_eq_ok.1 written
  obtain ⟨below, proper⟩ := properLocation_of_locateFile located
  exact formed.writeAt below proper result

theorem createDirectory (formed : tree.WellFormed)
    (made : tree.createDirectory path = .ok after) : after.WellFormed := by
  unfold FileTree.createDirectory at made
  obtain ⟨⟨directory, step⟩, located, result⟩ := bind_eq_ok.1 made
  split at result
  · rename_i above name slashed pair
    injection pair with same last
    subst same last
    obtain ⟨_, _, bound⟩ := bind_eq_ok.1 result
    dsimp only at bound
    split at bound
    · cases bound
    · cases bound
      exact formed.setNode (by simp)
        (properLocation_of_locateStep_name located) _
  · cases result

theorem createChain (formed : tree.WellFormed) (paths : List Path) :
    (tree.createChain paths).2.WellFormed := by
  induction paths with
  | nil =>
      exact formed
  | cons path above inductionHypothesis =>
      rw [FileTree.createChain]
      split
      · exact formed
      · dsimp only
        split
        · rename_i made equal
          exact formed.createDirectory equal
        · split
          · rename_i problem later equal
            simpa [equal] using inductionHypothesis
          · rename_i later equal
            have laterFormed : later.WellFormed := by
              simpa [equal] using inductionHypothesis
            split
            · rename_i made equal
              exact laterFormed.createDirectory equal
            · exact laterFormed
        · exact formed

theorem createDirectories (formed : tree.WellFormed) (path : Path) :
    (tree.createDirectories path).2.WellFormed :=
  formed.createChain path.ancestors

theorem place (formed : tree.WellFormed) (path : Path) (content : Bytes)
    (time : Nat) : (tree.place path content time).WellFormed := by
  have above := formed.createDirectories path.directory
  unfold FileTree.place
  dsimp only
  split
  · rename_i written equal
    obtain ⟨location, located, result⟩ := bind_eq_ok.1 equal
    obtain ⟨below, proper⟩ := properLocation_of_locateFile located
    exact above.writeAt below proper result
  · exact above

theorem removeFile (formed : tree.WellFormed)
    (removed : tree.removeFile path = .ok after) : after.WellFormed := by
  unfold FileTree.removeFile at removed
  obtain ⟨⟨location, node⟩, _, result⟩ := bind_eq_ok.1 removed
  split at result
  · cases result
  · cases result
    exact formed.removeAt _

theorem removeDirectories (formed : tree.WellFormed) (path : Path) :
    (tree.removeDirectories path).2.WellFormed := by
  unfold FileTree.removeDirectories
  split
  · exact formed
  · exact formed
  · rename_i location _
    have emptied := formed.emptyAt location
    dsimp only
    split
    · rename_i removed equal
      unfold removeEmptyDirectory at equal
      obtain ⟨⟨above, step⟩, _, result⟩ := bind_eq_ok.1 equal
      split at result
      · cases result
        exact emptied.removeAt _
      all_goals cases result
    · exact emptied
    · exact emptied

theorem renameAt (formed : tree.WellFormed) {old new : Location}
    {slashed : Bool} (below : new ≠ []) (proper : ProperLocation new)
    (renamed : tree.renameAt old new slashed = .ok after) :
    after.WellFormed := by
  have moved := formed.moveAt old below proper
  unfold FileTree.renameAt at renamed
  split at renamed
  · cases renamed
  · split at renamed
    · cases renamed
    · split at renamed
      · cases renamed
        exact formed
      · split at renamed
        · cases renamed
        · split at renamed
          · cases renamed
          · split at renamed
            · cases renamed
            · cases renamed
            · split at renamed
              · cases renamed
                exact moved
              · cases renamed
            · cases renamed
              exact moved

theorem rename (formed : tree.WellFormed) {source target : Path}
    (renamed : tree.rename source target = .ok after) :
    after.WellFormed := by
  unfold FileTree.rename at renamed
  obtain ⟨_, _, checkedSource⟩ := bind_eq_ok.1 renamed
  obtain ⟨_, _, checkedTarget⟩ := bind_eq_ok.1 checkedSource
  obtain ⟨⟨above, from_⟩, _, first⟩ := bind_eq_ok.1 checkedTarget
  obtain ⟨⟨into, step⟩, located, second⟩ := bind_eq_ok.1 first
  split at second
  · rename_i pair
    injection pair with same last
    subst same last
    obtain ⟨_, _, found⟩ := bind_eq_ok.1 second
    split at found
    · cases found
    · obtain ⟨_, _, result⟩ := bind_eq_ok.1 found
      exact formed.renameAt (by simp)
        (properLocation_of_locateStep_name located) result
  · cases second

end WellFormed

end FileTree

end Deobfuscate
