import Deobfuscate.Proofs.Digest.Walk
import Deobfuscate.Proofs.FileTree.Parent

/-!
# What changes of a file tree leave alone

Every operation on a file tree alters a region of it: outside the region
everything stays as it is, except that directories may appear where nothing
stood.  Operations that alter the same region in turn alter that region.

The trees of the statements are sound: nothing is bound twice, names are proper,
and everything stands in a directory.  Every operation keeps a tree sound.
-/

namespace Deobfuscate.FileTree

variable {tree before after : FileTree} {path : Path}

section Lookup

variable {β : Type}

theorem lookup_filter_key (keep : Location → Bool)
    (entries : List (Location × β)) (query : Location) :
    (entries.filter fun entry => keep entry.1).lookup query =
      if keep query then entries.lookup query else none := by
  induction entries with
  | nil =>
      simp
  | cons entry rest inductionHypothesis =>
      obtain ⟨location, value⟩ := entry
      by_cases same : query = location
      · subst same
        by_cases kept : keep query = true
        · simp [kept]
        · simp [kept, inductionHypothesis]
      · have other : (query == location) = false := by simpa using same
        by_cases kept : keep location = true
        · simp [kept, List.lookup_cons, other, inductionHypothesis]
        · simp [kept, List.lookup_cons, other, inductionHypothesis]

end Lookup

theorem node?_setNode {location : Location} (below : location ≠ [])
    (node : Node) (query : Location) :
    (tree.setNode location node).node? query =
      if query = location then some node else tree.node? query := by
  unfold node? setNode
  by_cases top : query = []
  · simp [top, Ne.symm below]
  · simp only [top, if_false]
    exact lookup_replace tree.nodes location node query

theorem node?_removeAt (location query : Location) :
    (tree.removeAt location).node? query =
      if location <+: query ∧ query ≠ [] then none else tree.node? query := by
  unfold node? removeAt
  by_cases top : query = []
  · simp [top]
  · simp only [top, if_false]
    rw [lookup_filter_key (fun place => !location.isPrefixOf place)]
    by_cases inside : location <+: query
    · simp [inside, top, List.isPrefixOf_iff_prefix.2 inside]
    · simp [inside, List.isPrefixOf_iff_prefix.not.2 inside]

theorem node?_emptyAt (location query : Location) :
    (tree.emptyAt location).node? query =
      if location <+: query ∧ query ≠ location then none
      else tree.node? query := by
  unfold node? emptyAt
  by_cases top : query = []
  · have shorter : ¬(location <+: query ∧ query ≠ location) := by
      rintro ⟨inside, different⟩
      rw [top, List.prefix_nil] at inside
      exact different (top.trans inside.symm)
    rw [if_pos top, if_neg shorter, if_pos top]
  · simp only [top, if_false]
    rw [lookup_filter_key
      (fun place => place == location || !location.isPrefixOf place)]
    by_cases inside : location <+: query
    · by_cases same : query = location
      · simp [same]
      · simp [inside, same, List.isPrefixOf_iff_prefix.2 inside]
    · simp [inside, List.isPrefixOf_iff_prefix.not.2 inside]

theorem lookup_moved (source target query : Location)
    (entries : List (Location × Node)) :
    ((entries.filter fun entry => source.isPrefixOf entry.1).map fun entry =>
        (target ++ entry.1.drop source.length, entry.2)).lookup query =
      if target <+: query then
        entries.lookup (source ++ query.drop target.length)
      else none := by
  induction entries with
  | nil =>
      simp
  | cons entry rest inductionHypothesis =>
      obtain ⟨location, node⟩ := entry
      by_cases inside : source <+: location
      · obtain ⟨below, rfl⟩ := inside
        by_cases arrives : query = target ++ below
        · subst arrives
          simp
        · have other : (query == target ++ below) = false := by
            simpa using arrives
          have elsewhere : target <+: query →
              (source ++ query.drop target.length == source ++ below) =
                false := by
            rintro ⟨names, rfl⟩
            simpa using arrives
          simp only [List.isPrefixOf_iff_prefix, List.prefix_append,
            List.filter_cons_of_pos, List.map_cons, List.drop_left,
            List.lookup_cons, other, inductionHypothesis]
          split
          · rename_i within
            rw [elsewhere within]
          · rfl
      · have other : (source ++ query.drop target.length == location) =
            false := by
          rw [beq_eq_false_iff_ne]
          rintro rfl
          exact inside (List.prefix_append _ _)
        simp [List.isPrefixOf_iff_prefix.not.2 inside, List.lookup_cons, other,
          inductionHypothesis]

/-- What is moved is found below its new place, and nothing is left at the old
one. -/
theorem node?_moveAt {source target : Location} (sourceBelow : source ≠ [])
    (targetBelow : target ≠ []) (query : Location) :
    (tree.moveAt source target).node? query =
      if target <+: query then
        tree.node? (source ++ query.drop target.length)
      else if source <+: query then none
      else tree.node? query := by
  by_cases top : query = []
  · subst top
    simp [targetBelow, sourceBelow]
  · have remains : ((tree.removeAt source).removeAt target).node? query =
        if target <+: query then none
        else if source <+: query then none
        else tree.node? query := by
      simp [node?_removeAt, top]
    have moved : (tree.moveAt source target).node? query =
        ((if target <+: query then
          tree.nodes.lookup (source ++ query.drop target.length)
          else none).or
            (((tree.removeAt source).removeAt target).node? query)) := by
      rw [← lookup_moved]
      simp only [node?, top, if_false, moveAt, List.lookup_append]
    rw [moved, remains]
    by_cases within : target <+: query
    · simp [within, node?, sourceBelow]
    · simp [within]

theorem dropLast_prefix_trans {above location : Location}
    (inside : above <+: location.dropLast) : above <+: location :=
  inside.trans (List.dropLast_prefix location)

namespace Rooted

variable (rooted : tree.Rooted)

include rooted

/-- A new node stands in a directory, and a directory is not replaced by a
file. -/
theorem setNode {location : Location} {node : Node} (below : location ≠ [])
    (parent : tree.node? location.dropLast = some .directory)
    (kind : node = .directory ∨ tree.node? location ≠ some .directory) :
    (tree.setNode location node).Rooted := by
  intro query found stands
  rw [node?_setNode below] at stands ⊢
  have parentElsewhere : location.dropLast ≠ location := by
    intro same
    have lengths := congrArg List.length same
    have some := List.length_pos_iff.2 below
    simp only [List.length_dropLast] at lengths
    omega
  by_cases new : query = location
  · rw [new, if_neg parentElsewhere]
    exact parent
  · rw [if_neg new] at stands
    have directory := rooted query found stands
    split
    · rename_i above
      rw [above] at directory
      rcases kind with same | different
      · rw [same]
      · exact absurd directory different
    · exact directory

theorem removeAt (location : Location) : (tree.removeAt location).Rooted := by
  intro query node stands
  rw [node?_removeAt] at stands ⊢
  split at stands
  · cases stands
  · rename_i outside
    rw [if_neg]
    · exact rooted query node stands
    · rintro ⟨inside, below⟩
      refine outside ⟨dropLast_prefix_trans inside, ?_⟩
      rintro rfl
      exact below rfl

theorem emptyAt (location : Location) : (tree.emptyAt location).Rooted := by
  intro query node stands
  rw [node?_emptyAt] at stands ⊢
  split at stands
  · cases stands
  · rename_i outside
    rw [if_neg]
    · exact rooted query node stands
    · rintro ⟨inside, different⟩
      refine outside ⟨dropLast_prefix_trans inside, ?_⟩
      rintro rfl
      exact different (inside.eq_of_length_le
        (by simp [List.length_dropLast])).symm

theorem moveAt {source target : Location} (sourceBelow : source ≠ [])
    (targetBelow : target ≠ []) (apart : ¬source <+: target)
    (parent : tree.node? target.dropLast = some .directory) :
    (tree.moveAt source target).Rooted := by
  intro query node stands
  rw [node?_moveAt sourceBelow targetBelow] at stands ⊢
  by_cases within : target <+: query
  · rw [if_pos within] at stands
    obtain ⟨below, rfl⟩ := within
    rw [List.drop_left] at stands
    by_cases last : below = []
    · -- The directory above the new place stays where it is.
      subst last
      have shorter : ¬target <+: target.dropLast := by
        intro inside
        have lengths := inside.length_le
        have some := List.length_pos_iff.2 targetBelow
        simp only [List.length_dropLast] at lengths
        omega
      rw [List.append_nil, if_neg shorter, if_neg]
      · exact parent
      · exact fun inside => apart (dropLast_prefix_trans inside)
    · rw [List.dropLast_append_of_ne_nil last,
        if_pos (List.prefix_append _ _), List.drop_left]
      have directory := rooted _ _ stands
      rwa [List.dropLast_append_of_ne_nil last] at directory
  · rw [if_neg within] at stands
    split at stands
    · cases stands
    · rename_i outside
      rw [if_neg fun inside => within (dropLast_prefix_trans inside),
        if_neg fun inside => outside (dropLast_prefix_trans inside)]
      exact rooted query node stands

end Rooted

/-! ## Sound trees -/

/-- A tree in which nothing is bound twice, names are proper, and everything
stands in a directory. -/
structure Sound (tree : FileTree) : Prop where
  formed : tree.WellFormed
  rooted : tree.Rooted

instance (tree : FileTree) : Decidable tree.Sound :=
  decidable_of_iff (tree.WellFormed ∧ tree.Rooted)
    ⟨fun both => ⟨both.1, both.2⟩, fun sound => ⟨sound.formed, sound.rooted⟩⟩

/-- What stands at a location stays, or a directory appears where nothing stood
and one may be made. -/
def Kept (made : Location → Prop) (before after : FileTree)
    (location : Location) : Prop :=
  after.node? location = before.node? location ∨
    made location ∧ before.node? location = none ∧
      after.node? location = some .directory

namespace Kept

variable {made more : Location → Prop} {location : Location}

theorem contentAt_eq (kept : Kept made before after location) :
    after.contentAt location = before.contentAt location := by
  unfold contentAt
  rcases kept with same | ⟨_, nothing, directory⟩
  · rw [same]
  · rw [nothing, directory]

theorem stands (kept : Kept made before after location) {node : Node}
    (stands : before.node? location = some node) :
    after.node? location = some node := by
  rcases kept with same | ⟨_, nothing, _⟩
  · rw [same, stands]
  · rw [nothing] at stands
    cases stands

theorem trans {later : FileTree} (first : Kept made before after location)
    (second : Kept made after later location) :
    Kept made before later location := by
  rcases first with same | ⟨allowed, nothing, directory⟩
  · rcases second with again | ⟨allowed, empty, made⟩
    · exact Or.inl (again.trans same)
    · exact Or.inr ⟨allowed, same.symm.trans empty, made⟩
  · exact Or.inr ⟨allowed, nothing, second.stands directory⟩

theorem eq (kept : Kept (fun _ => False) before after location) :
    after.node? location = before.node? location :=
  kept.resolve_right fun appears => appears.1

theorem mono (kept : Kept made before after location)
    (grows : made location → more location) :
    Kept more before after location :=
  kept.imp_right fun ⟨allowed, appears⟩ => ⟨grows allowed, appears⟩

end Kept

def Alters (made region : Location → Prop) (before after : FileTree) : Prop :=
  before.Sound →
    after.Sound ∧
      ∀ location, ¬region location → Kept made before after location

abbrev Extends (made : Location → Prop) (before after : FileTree) : Prop :=
  Alters made (fun _ => False) before after

section Alters

variable {made more region wider : Location → Prop} {later : FileTree}

namespace Alters

theorem refl (made region : Location → Prop) (tree : FileTree) :
    Alters made region tree tree :=
  fun sound => ⟨sound, fun _ _ => Or.inl rfl⟩

theorem trans (first : Alters made region before after)
    (second : Alters made region after later) :
    Alters made region before later := by
  intro sound
  obtain ⟨middle, keptFirst⟩ := first sound
  obtain ⟨ending, keptSecond⟩ := second middle
  exact ⟨ending, fun location outside =>
    (keptFirst location outside).trans (keptSecond location outside)⟩

theorem mono (alters : Alters made region before after)
    (grows : ∀ location, made location → more location)
    (covers : ∀ location, region location → wider location) :
    Alters more wider before after := by
  intro sound
  obtain ⟨ending, kept⟩ := alters sound
  refine ⟨ending, fun location outside => ?_⟩
  have still := kept location fun inside => outside (covers location inside)
  exact still.mono (grows location)

theorem of_extends (extended : Extends made before after) :
    Alters made region before after :=
  extended.mono (fun _ allowed => allowed) fun _ impossible => impossible.elim

/-- Where everything stands that could be made, nothing is made. -/
theorem of_standing (alters : Alters made region before after)
    (stands : ∀ location, made location →
      before.node? location = some .directory) :
    Alters more region before after := by
  intro sound
  obtain ⟨ending, kept⟩ := alters sound
  refine ⟨ending, fun location outside => ?_⟩
  rcases kept location outside with same | ⟨allowed, nothing, _⟩
  · exact Or.inl same
  · rw [stands location allowed] at nothing
    cases nothing

theorem tick (alters : Alters made region before after) :
    Alters made region before after.tick := by
  intro sound
  obtain ⟨ending, kept⟩ := alters sound
  exact ⟨⟨ending.formed.tick, ending.rooted⟩, kept⟩

end Alters

theorem createDirectory_eq_ok
    (created : before.createDirectory path = .ok after) :
    before.node? path.target = none ∧
      after = before.setNode path.target .directory ∧
      ∃ above name slashed,
        before.locateStep path = .ok (above, .name name slashed) ∧
          checkName name = .ok () ∧ path.target = above ++ [name] := by
  unfold createDirectory at created
  obtain ⟨⟨directory, step⟩, located, result⟩ := bind_eq_ok.1 created
  split at result
  · rename_i above name slashed pair
    injection pair with same last
    subst same last
    obtain ⟨_, checked, bound⟩ := bind_eq_ok.1 result
    have target := target_of_locateStep located
    dsimp only at bound
    rw [← target] at bound
    split at bound
    · cases bound
    · rename_i nothing
      cases bound
      exact ⟨nothing, rfl, _, _, _, located, checked, target⟩
  · cases result

/-- Making a directory makes it where its path leads. -/
theorem extends_createDirectory
    (created : before.createDirectory path = .ok after)
    (allowed : path.target ≠ [] → made path.target) :
    Extends made before after := by
  intro sound
  obtain ⟨nothing, rfl, above, name, slashed, located, _, target⟩ :=
    createDirectory_eq_ok created
  have below : path.target ≠ [] := by simp [target]
  refine ⟨⟨sound.formed.createDirectory created,
    sound.rooted.setNode below ?_ (Or.inl rfl)⟩, ?_⟩
  · rw [target, List.dropLast_concat]
    exact sound.rooted.directory_of_locateStep located
  · intro location _
    unfold Kept
    rw [node?_setNode below]
    split
    · rename_i same
      rw [same]
      exact Or.inr ⟨allowed below, nothing, rfl⟩
    · exact Or.inl rfl

theorem extends_createChain (tree : FileTree) {paths : List Path}
    (allowed : ∀ path ∈ paths, path.target ≠ [] → made path.target) :
    Extends made tree (tree.createChain paths).2 := by
  induction paths with
  | nil =>
      exact Alters.refl _ _ tree
  | cons path above inductionHypothesis =>
      have here := allowed path (by simp)
      have extended := inductionHypothesis fun other member =>
        allowed other (by simp [member])
      rw [createChain]
      split
      · exact Alters.refl _ _ tree
      · dsimp only
        split
        · rename_i created equal
          exact extends_createDirectory equal here
        · split
          · rename_i problem later equal
            simpa [equal] using extended
          · rename_i later equal
            have reached : Extends made tree later := by
              simpa [equal] using extended
            split
            · rename_i created equal
              exact reached.trans (extends_createDirectory equal here)
            · exact reached
        · exact Alters.refl _ _ tree

/-- Directories are made where a path leads and on the way there. -/
theorem extends_createDirectories (tree : FileTree) (path : Path) :
    Extends (· ∈ path.places) tree (tree.createDirectories path).2 := by
  refine extends_createChain tree fun ancestor member below => ?_
  exact (Path.mem_places_ancestors member).resolve_left below

def ReachesDirectory (tree : FileTree) (path : Path) : Prop :=
  ∀ place ∈ path.places, tree.node? place = some .directory

theorem ReachesDirectory.of_find {location : Location}
    (leads : tree.find path = .ok (location, .directory)) :
    tree.ReachesDirectory path :=
  fun _ member => directory_of_find leads member

theorem ReachesDirectory.mono (reaches : before.ReachesDirectory path)
    (stay : ∀ location, before.node? location = some .directory →
      after.node? location = some .directory) :
    after.ReachesDirectory path :=
  fun place member => stay place (reaches place member)

theorem reachesDirectory_of_createDirectory
    (created : before.createDirectory path = .ok after) :
    after.ReachesDirectory path := by
  obtain ⟨_, rfl, above, name, slashed, located, _, target⟩ :=
    createDirectory_eq_ok created
  have below : path.target ≠ [] := by simp [target]
  obtain ⟨start, last, followed⟩ := locateStep_eq_ok located
  intro place member
  rw [node?_setNode below]
  split
  · rfl
  · rename_i other
    rcases List.mem_append.1 member with earlier | here
    · rcases Path.mem_passed_of_lastStep last earlier with passed | here
      · exact directory_of_passed followed passed
      · exact absurd here other
    · exact absurd (List.mem_singleton.1 here) other

/-- Directories that have been made lead to the last one. -/
theorem reachesDirectory_of_createDirectories
    (made : (tree.createDirectories path).1 = none) :
    (tree.createDirectories path).2.ReachesDirectory path := by
  have settled : ∀ {later : FileTree} {problem : Problem},
      (if later.isDirectory path then none else some problem) = none →
      later.ReachesDirectory path := by
    intro later problem settled
    split at settled
    · rename_i directory
      obtain ⟨_, leads⟩ := isDirectory_iff.1 directory
      exact .of_find leads
    · cases settled
  obtain ⟨above, whole⟩ : ∃ above, path.ancestors = path :: above := by
    unfold Path.ancestors
    cases path.text.length with
    | zero => exact ⟨[], rfl⟩
    | succ limit => exact ⟨_, rfl⟩
  unfold createDirectories at made ⊢
  rw [whole, createChain] at made ⊢
  split
  · rename_i empty
    intro place member
    have top : path.places = [[]] := by
      simp [Path.places, Path.target_eq, Path.pieces, empty, Text.splitOn,
        Path.passed, Path.innerComponent]
    rw [top] at member
    rw [List.mem_singleton.1 member]
    exact node?_nil tree
  · rename_i written
    rw [if_neg written] at made
    dsimp only at made ⊢
    split
    · rename_i after created
      exact reachesDirectory_of_createDirectory created
    · rename_i missing
      rw [missing] at made
      dsimp only at made
      split
      · rename_i problem later failed
        rw [failed] at made
        cases made
      · rename_i later _ chained
        rw [chained] at made
        dsimp only at made
        split
        · rename_i after created
          exact reachesDirectory_of_createDirectory created
        · rename_i problem stays
          rw [stays] at made
          exact settled made
    · rename_i problem present stays
      rw [stays] at made
      split at made
      · rename_i impossible
        cases impossible
      · rename_i missing
        exact absurd (Except.error.inj missing) present
      · exact settled made

theorem writeBytes_eq_ok {content : Bytes}
    (written : before.writeBytes path content = .ok after) :
    before.node? path.target ≠ some .directory ∧
      (∃ modified identity, after =
        (before.setNode path.target
          (.file content modified identity)).tick) ∧
      ∃ above name,
        before.locateStep path = .ok (above, .name name false) ∧
          checkName name = .ok () ∧ path.target = above ++ [name] := by
  obtain ⟨location, located, result⟩ := bind_eq_ok.1 written
  unfold locateFile at located
  obtain ⟨⟨directory, step⟩, stepped, named⟩ := bind_eq_ok.1 located
  split at named
  · rename_i above name slashed pair
    injection pair with same last
    subst same last
    split at named
    · cases named
    · rename_i unslashed
      obtain ⟨_, checked, place⟩ := bind_eq_ok.1 named
      have target := target_of_locateStep stepped
      have reached : path.target = location := by
        rw [target]
        exact Except.ok.inj place
      rw [Bool.not_eq_true] at unslashed
      subst unslashed
      rw [← reached] at result
      refine ⟨?_, ?_, _, _, stepped, checked, target⟩
      · intro directory
        simp [writeAt, directory] at result
      · unfold writeAt at result
        split at result
        · cases result
        · cases result
          exact ⟨_, _, rfl⟩
        · cases result
          exact ⟨_, _, rfl⟩
  · cases named

theorem alters_writeBytes (made : Location → Prop) {content : Bytes}
    (written : before.writeBytes path content = .ok after) :
    Alters made (· = path.target) before after := by
  intro sound
  obtain ⟨notDirectory, ⟨modified, identity, rfl⟩, above, name, located, _,
    target⟩ := writeBytes_eq_ok written
  have below : path.target ≠ [] := by simp [target]
  refine ⟨⟨sound.formed.writeBytes written, ?_⟩, ?_⟩
  · refine sound.rooted.setNode below ?_ (Or.inr notDirectory)
    rw [target, List.dropLast_concat]
    exact sound.rooted.directory_of_locateStep located
  · intro location outside
    refine Or.inl ?_
    exact (node?_setNode below _ location).trans (if_neg outside)

theorem removeFile_eq_ok (removed : before.removeFile path = .ok after) :
    (∃ content modified identity, before.node? path.target =
        some (.file content modified identity)) ∧
      after = before.removeAt path.target := by
  unfold removeFile at removed
  obtain ⟨⟨location, node⟩, found, result⟩ := bind_eq_ok.1 removed
  obtain ⟨rfl, stands⟩ := node?_target found
  split at result
  · cases result
  · rename_i location content modified identity pair
    injection pair with same file
    subst same file
    cases result
    exact ⟨⟨content, modified, identity, stands⟩, rfl⟩

/-- Nothing but a file is removed: nothing stands below it. -/
theorem alters_removeFile (made : Location → Prop)
    (removed : before.removeFile path = .ok after) :
    Alters made (· = path.target) before after := by
  intro sound
  obtain ⟨⟨content, modified, identity, file⟩, rfl⟩ := removeFile_eq_ok removed
  refine ⟨⟨sound.formed.removeAt _, sound.rooted.removeAt _⟩, ?_⟩
  intro location outside
  refine Or.inl ?_
  rw [node?_removeAt]
  split
  · rename_i inside
    exact (sound.rooted.none_below_file inside.1 (Ne.symm outside) file).symm
  · rfl

theorem alters_removeDirectories (made : Location → Prop) (tree : FileTree)
    (path : Path) :
    Alters made (path.target <+: ·) tree (tree.removeDirectories path).2 := by
  intro sound
  refine ⟨⟨sound.formed.removeDirectories path, ?_⟩, ?_⟩
  · unfold removeDirectories
    split
    · exact sound.rooted
    · exact sound.rooted
    · rename_i location _
      have emptied := sound.rooted.emptyAt location
      dsimp only
      split
      · rename_i removed equal
        unfold removeEmptyDirectory at equal
        obtain ⟨⟨above, step⟩, _, result⟩ := bind_eq_ok.1 equal
        split at result
        · cases result
          exact emptied.removeAt _
        all_goals cases result
      · exact emptied
      · exact emptied
  · intro query outside
    refine Or.inl ?_
    unfold removeDirectories
    split
    · rfl
    · rfl
    · rename_i location found
      obtain ⟨rfl, _⟩ := node?_target found
      have emptied : (tree.emptyAt path.target).node? query =
          tree.node? query := by
        rw [node?_emptyAt, if_neg fun inside => outside inside.1]
      dsimp only
      split
      · rename_i removed equal
        unfold removeEmptyDirectory at equal
        obtain ⟨⟨above, step⟩, located, result⟩ := bind_eq_ok.1 equal
        split at result
        · rename_i name slashed pair
          injection pair with same last
          subst same last
          cases result
          rw [← target_of_locateStep located, node?_removeAt,
            if_neg fun inside => outside inside.1, emptied]
        all_goals cases result
      · exact emptied
      · exact emptied

/-- Renaming at paths is renaming at the places of their last names. -/
theorem rename_eq_ok {source target : Path}
    (renamed : before.rename source target = .ok after) :
    ∃ oldAbove old oldSlashed above name slashed,
      before.locateStep source = .ok (oldAbove, .name old oldSlashed) ∧
      before.locateStep target = .ok (above, .name name slashed) ∧
      checkName name = .ok () ∧
      before.renameAt source.target target.target (oldSlashed || slashed) =
        .ok after := by
  unfold rename at renamed
  obtain ⟨_, _, checkedSource⟩ := bind_eq_ok.1 renamed
  obtain ⟨_, _, checkedTarget⟩ := bind_eq_ok.1 checkedSource
  obtain ⟨⟨oldAbove, oldStep⟩, locatedSource, first⟩ :=
    bind_eq_ok.1 checkedTarget
  obtain ⟨⟨above, step⟩, located, second⟩ := bind_eq_ok.1 first
  split at second
  · rename_i pair other
    injection pair with same last
    subst same last
    injection other with same last
    subst same last
    obtain ⟨_, _, found⟩ := bind_eq_ok.1 second
    split at found
    · cases found
    · obtain ⟨_, checked, result⟩ := bind_eq_ok.1 found
      rw [← target_of_locateStep locatedSource,
        ← target_of_locateStep located] at result
      exact ⟨_, _, _, _, _, _, locatedSource, located, checked, result⟩
  · cases second

/-- A file is moved to a place that is not above or below it and holds no
directory. -/
theorem renameAt_file {old new : Location} {slashed : Bool} {content : Bytes}
    {modified identity : Nat}
    (renamed : before.renameAt old new slashed = .ok after)
    (file : before.node? old = some (.file content modified identity)) :
    slashed = false ∧
      (old = new ∧ after = before ∨
        ¬old <+: new ∧ ¬new <+: old ∧
          before.node? new ≠ some .directory ∧
          after = before.moveAt old new) := by
  unfold renameAt at renamed
  rw [file] at renamed
  dsimp only at renamed
  split at renamed
  · cases renamed
  · rename_i unslashed
    have plain : slashed = false := by
      cases slashed <;> simp_all
    refine ⟨plain, ?_⟩
    split at renamed
    · rename_i same
      cases renamed
      exact Or.inl ⟨same, rfl⟩
    · split at renamed
      · cases renamed
      · rename_i notAbove
        split at renamed
        · cases renamed
        · rename_i notBelow
          rw [List.isPrefixOf_iff_prefix] at notAbove notBelow
          split at renamed
          · cases renamed
          · rename_i impossible _
            cases impossible
          · rename_i impossible _
            cases impossible
          · rename_i notFile _ _
            cases renamed
            refine Or.inr ⟨notAbove, notBelow, ?_, rfl⟩
            intro directory
            exact notFile _ _ _ rfl directory

section RenameFile

variable {source target : Path} {content : Bytes} {modified identity : Nat}
  (renamed : before.rename source target = .ok after)
  (file : before.node? source.target =
    some (.file content modified identity))

include renamed file

/-- Renaming a file alters its old and its new place. -/
theorem alters_rename_file (made : Location → Prop) :
    Alters made (fun location => location = source.target ∨
      location = target.target) before after := by
  intro sound
  obtain ⟨_, _, _, above, name, slashed, _, located, _, moved⟩ :=
    rename_eq_ok renamed
  have reached := target_of_locateStep located
  have below : target.target ≠ [] := by simp [reached]
  have sourceBelow : source.target ≠ [] := by
    intro top
    rw [top, node?_nil] at file
    cases file
  obtain ⟨_, ⟨_, rfl⟩ | ⟨notAbove, _, notDirectory, rfl⟩⟩ :=
    renameAt_file moved file
  · exact ⟨sound, fun _ _ => Or.inl rfl⟩
  · refine ⟨⟨sound.formed.rename renamed,
      sound.rooted.moveAt sourceBelow below notAbove ?_⟩, ?_⟩
    · rw [reached, List.dropLast_concat]
      exact sound.rooted.directory_of_locateStep located
    · intro location outside
      obtain ⟨notSource, notTarget⟩ := not_or.1 outside
      refine Or.inl ?_
      rw [node?_moveAt sourceBelow below]
      split
      · -- Nothing stands below the file, and nothing stood below its new place.
        rename_i within
        obtain ⟨names, rfl⟩ := within
        have more : names ≠ [] := by
          rintro rfl
          simp at notTarget
        rw [List.drop_left, sound.rooted.none_below_file
          (List.prefix_append _ _) (by simpa using more) file]
        by_contra something
        obtain ⟨node, stands⟩ :=
          Option.ne_none_iff_exists'.1 (Ne.symm something)
        exact notDirectory (sound.rooted.directory_of_append more stands)
      · split
        · rename_i within
          exact (sound.rooted.none_below_file within (Ne.symm notSource)
            file).symm
        · rfl

/-- A renamed file is found at its new place. -/
theorem node?_rename_file :
    after.node? target.target = some (.file content modified identity) := by
  obtain ⟨_, _, _, above, name, slashed, _, located, _, moved⟩ :=
    rename_eq_ok renamed
  have below : target.target ≠ [] := by simp [target_of_locateStep located]
  have sourceBelow : source.target ≠ [] := by
    intro top
    rw [top, node?_nil] at file
    cases file
  obtain ⟨_, ⟨same, rfl⟩ | ⟨_, _, _, rfl⟩⟩ := renameAt_file moved file
  · rw [← same]
    exact file
  · rw [node?_moveAt sourceBelow below, if_pos List.prefix_rfl]
    simpa using file

/-- A renamed file is read through the new path. -/
theorem find_rename_file (rooted : before.Rooted) :
    after.find target =
      .ok (target.target, .file content modified identity) := by
  obtain ⟨_, _, _, above, name, slashed, _, located, checked, moved⟩ :=
    rename_eq_ok renamed
  have reached := target_of_locateStep located
  have stands := node?_rename_file renamed file
  have below : target.target ≠ [] := by simp [reached]
  have sourceBelow : source.target ≠ [] := by
    intro top
    rw [top, node?_nil] at file
    cases file
  obtain ⟨plain, placed⟩ := renameAt_file moved file
  obtain ⟨_, unslashed⟩ := Bool.or_eq_false_iff.1 plain
  subst unslashed
  have found := locate_of_locateStep located checked
  rw [← reached] at found
  refine find_eq_ok.2 ⟨locate_of_passed found ?_, stands⟩
  -- The directories the path passes are not moved: a file is.
  intro place passed
  have directory := directory_of_places found passed
  obtain ⟨_, rfl⟩ | ⟨_, _, notDirectory, rfl⟩ := placed
  · exact directory
  · have notTarget : ¬target.target <+: place := by
      intro inside
      by_cases same : target.target = place
      · rw [← same] at directory
        exact notDirectory directory
      · exact notDirectory (rooted.directory_of_prefix inside same directory)
    have notSource : ¬source.target <+: place := by
      intro inside
      by_cases same : source.target = place
      · rw [← same, file] at directory
        cases directory
      · rw [rooted.none_below_file inside same file] at directory
        cases directory
    rw [node?_moveAt sourceBelow below, if_neg notTarget, if_neg notSource]
    exact directory

end RenameFile

end Alters

end Deobfuscate.FileTree
