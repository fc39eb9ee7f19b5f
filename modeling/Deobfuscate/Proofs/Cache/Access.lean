import Deobfuscate.Proofs.Cache.Entries

/-!
# Entries are published once and whole

Calls of a cache that is empty at first, in any number and in any order that the
locks allow, publish every entry at most once.  An entry holds what was written
into its directory and never changes; a call that fails leaves nothing behind.
-/

namespace Deobfuscate.Cache

open FileTree

variable {ε : Type} {cache : Cache} {wrap : CacheError → ε}
  {scene later : Scene ε} {tree : FileTree}

/-- The root of a cache is there, with nothing in it. -/
structure Empty (cache : Cache) (tree : FileTree) : Prop where
  sound : tree.Sound
  root : tree.isDirectory cache.root = true
  nothing : ∀ names, names ≠ [] → tree.node? (cache.place names) = none

def Scene.start (tree : FileTree) : Scene ε where
  tree := tree

/-- A call makes, fills or renames a directory for its entry. -/
def Phase.isWorking : Phase ε → Bool
  | .staging _ => true
  | .filling _ _ => true
  | .moving _ _ => true
  | _ => false

/-- What calls of a cache can rely on in a scene and in a later one. -/
structure PublishesOnce (cache : Cache) (scene later : Scene ε) : Prop where
  /-- No two directories are filled at the same time. -/
  alone : ∀ one other left right leftHeld rightHeld leftPath rightPath,
    scene.calls one = some left → scene.calls other = some right →
    left.phase = .filling leftHeld leftPath →
    right.phase = .filling rightHeld rightPath → one = other
  /-- Every entry has been published once at most. -/
  once : (scene.published.map Publication.names).Nodup
  /-- An entry is filled only as long as it is not there. -/
  fresh : ∀ caller call, scene.calls caller = some call →
    call.phase.isWorking = true →
    call.names ∉ scene.published.map Publication.names ∧
      scene.tree.isDirectory (cache.entryAt call.names) = false
  /-- A call that has succeeded has given the directory of its entry, which has
  been published; it holds what was written, now and later. -/
  answered : ∀ caller call path, scene.calls caller = some call →
    call.phase = .ended (.ok path) →
    cache.entryPath call.space call.key = .ok path ∧
      ∃ entry ∈ scene.published, entry.names = call.names ∧
        later.tree.isDirectory path = true ∧
        later.tree.below path = entry.contents
  /-- When a call that has failed releases the exclusive lock, its entry is not
  there, no directory is there that was to become an entry, and the cache is as
  the call found it, but for the directory of the namespace. -/
  failed : ∀ caller call held error, scene.calls caller = some call →
    call.phase = .releasing held (some (.error error)) →
    scene.tree.node? (cache.place [call.space, call.key]) = none ∧
      (∀ space name, ".retro-dl-".toList <+: name.toList →
        scene.tree.node? (cache.place [space, name]) = none) ∧
      call.Unchanged cache scene.tree

theorem Empty.ready (empty : cache.Empty tree) : cache.Ready tree := by
  obtain ⟨location, found⟩ : ∃ location,
      tree.find cache.root = .ok (location, .directory) := by
    have root := empty.root
    unfold isDirectory at root
    split at root
    · exact ⟨_, ‹_›⟩
    · cases root
  obtain ⟨located, _⟩ := find_eq_ok.1 found
  have leads : ∀ place ∈ cache.root.places,
      tree.node? place = some .directory := by
    intro place passed
    obtain earlier | last := List.mem_append.1 passed
    · exact directory_of_places located earlier
    · rw [List.mem_singleton.1 last]
      exact node?_of_isDirectory empty.root
  refine ⟨empty.sound, (locate_eq_ok located).1, leads, ?_⟩
  -- Nothing below the root stands, so that the way there cannot lead through it.
  rintro place passed ⟨names, rfl⟩
  by_contra deeper
  have more : names ≠ [] := by
    rintro rfl
    exact deeper (List.append_nil _)
  have stands := leads _ passed
  rw [show cache.root.target ++ names = cache.place names from rfl,
    empty.nothing names more] at stands
  cases stands

theorem Empty.orderly (empty : cache.Empty tree) :
    Orderly cache (Scene.start tree : Scene ε) := by
  refine ⟨empty.ready, ⟨?_, ?_⟩, ?_, ?_, ?_, List.nodup_nil⟩
  · rintro caller held ⟨call, called, _⟩
    cases called
  · rintro one other left right different ⟨call, called, _⟩
    cases called
  · intro caller call called
    cases called
  · intro names node more stands
    rw [Scene.start, empty.nothing names more] at stands
    cases stands
  · intro entry published
    cases published

theorem published_subset (reached : Reaches cache wrap scene later) :
    scene.published ⊆ later.published := by
  induction reached with
  | refl => exact List.Subset.refl _
  | tail _ stepped inductionHypothesis =>
      cases stepped with
      | publish => exact List.subset_cons_of_subset _ inductionHypothesis
      | _ => exact inductionHypothesis

namespace Orderly

variable (orderly : Orderly cache scene) {caller : Nat} {call : Call ε}
  (called : scene.calls caller = some call)

include orderly called

/-- A call that works on its entry holds the exclusive lock and has not been
forestalled. -/
theorem working (works : call.phase.isWorking = true) :
    ∃ held, call.phase.held? = some held ∧
      call.Working scene.published held := by
  have fits := orderly.fits caller call called
  cases here : call.phase with
  | staging held =>
      rw [here] at fits
      exact ⟨held, rfl, fits⟩
  | filling held staging =>
      rw [here] at fits
      exact ⟨held, rfl, fits.1⟩
  | moving held staging =>
      rw [here] at fits
      exact ⟨held, rfl, fits.1⟩
  | _ =>
      rw [here] at works
      cases works

/-- Nothing below the directories of namespaces stands in the cache but
entries, once a call that holds the exclusive lock has no directory. -/
theorem nothing_staged {held : HeldLock}
    (holding : call.phase.held? = some held) (mode : held.mode = .exclusive)
    (plain : call.phase.staging? = none) {space name : String}
    (invalid : isValidName name = false) :
    scene.tree.node? (cache.place [space, name]) = none := by
  by_contra something
  obtain ⟨node, stands⟩ := Option.ne_none_iff_exists'.1 something
  obtain ⟨_, same⟩ | ⟨published, inside⟩ | ⟨calledOther, here, _⟩ :=
    orderly.accounted _ _ (List.cons_ne_nil _ _) stands
  · simp at same
  · rename_i entry
    have within : cache.place [entry.names.1, entry.names.2] <+:
        cache.place [space, name] := inside_place_iff.2 inside
    have key := (orderly.stands _ published).key
    rw [(place_pair_inj within List.prefix_rfl).2, invalid] at key
    cases key
  -- Whoever has a directory holds the exclusive lock.
  · rename_i other working staging _
    by_cases same : other = caller
    · subst same
      rw [called] at calledOther
      cases calledOther
      rw [plain] at here
      cases here
    · obtain ⟨lock, holds, _⟩ :=
        Fits.exclusive (orderly.fits _ _ calledOther) here
      rw [orderly.guarded.alone ⟨_, called, holding⟩ mode same calledOther]
        at holds
      cases holds

end Orderly

/-- In a cache that is empty at first, every entry is published once and whole,
in whatever order calls make their steps. -/
theorem accessEntry_publishesOnce (empty : cache.Empty tree)
    (reached : Reaches cache wrap (Scene.start tree) scene)
    (onward : Reaches cache wrap scene later) :
    PublishesOnce cache scene later := by
  have orderly := empty.orderly.reaches reached
  have orderlyLater := orderly.reaches onward
  refine ⟨?_, orderly.once, ?_, ?_, ?_⟩
  · intro one other left right leftHeld rightHeld leftPath rightPath leftCalled
      rightCalled leftFilling rightFilling
    by_contra different
    have fits := orderly.fits one left leftCalled
    rw [leftFilling] at fits
    have idle := orderly.guarded.alone
      ⟨left, leftCalled, by rw [leftFilling, Phase.held?]⟩ fits.1.mode
      (Ne.symm different) rightCalled
    rw [rightFilling] at idle
    cases idle
  · intro caller call called works
    obtain ⟨held, _, working⟩ := orderly.working called works
    refine ⟨working.fresh, ?_⟩
    rw [← Bool.not_eq_true]
    intro present
    have stands := node?_of_isDirectory present
    rw [Call.names, target_entryAt orderly.ready.written working.named.1
      working.named.2, orderly.nothing_of_fresh working] at stands
    cases stands
  · intro caller call path called ended
    have fits := orderly.fits caller call called
    rw [ended] at fits
    obtain ⟨⟨space, key⟩, rfl, published⟩ := fits
    obtain ⟨entry, there, names⟩ := List.mem_map.1 published
    have stands := orderlyLater.stands entry (published_subset onward there)
    refine ⟨?_, entry, there, names, ?_, ?_⟩
    · simp only [entryPath, space, key, Bool.not_true, Bool.false_eq_true,
        if_false]
      rfl
    · rw [← names]
      exact stands.isDirectory
    · rw [← names]
      exact stands.contents
  · intro caller call held error called here
    have fits := orderly.fits caller call called
    rw [here] at fits
    obtain ⟨working, unchanged⟩ := fits
    refine ⟨orderly.nothing_of_fresh working, fun space name dotted => ?_,
      unchanged⟩
    exact orderly.nothing_staged called (by rw [here, Phase.held?])
      working.mode (by rw [here, Phase.staging?]) (not_valid_of_dotted dotted)

/-! ## A failed attempt and a retry -/

def fillTable (fails : Bool) (directory : Path) : FileAction String Unit := do
  FileAction.change (·.writeBytes (directory.child "names.csv") [1, 2])
    Problem.message
  if fails then throw "no network"

theorem target_child_table (directory : Path) :
    (directory.child "names.csv").target = directory.target ++ ["names.csv"] := by
  by_cases written : directory.text = ""
  · obtain ⟨text⟩ := directory
    cases written
    decide
  · exact target_child_name written (by decide)

theorem writesInto_fillTable (fails : Bool) (directory : Path)
    (tree : FileTree) :
    WritesInto directory tree (runFrom (fillTable fails directory) tree).2 := by
  have unchanged : WritesInto directory tree tree :=
    ⟨id, fun _ _ => rfl, fun _ there => there, le_rfl⟩
  unfold fillTable
  rw [runFrom_bind, FileAction.runFrom_change]
  cases wrote : tree.writeBytes (directory.child "names.csv") [1, 2] with
  | error problem => exact unchanged
  | ok after =>
      have altered := alters_writeBytes (fun _ => False) wrote
      obtain ⟨_, ⟨modified, identity, rfl⟩, above, name, _, _, target⟩ :=
        writeBytes_eq_ok wrote
      have below : (directory.child "names.csv").target ≠ [] := by
        simp [target]
      have written : WritesInto directory tree
          (tree.setNode (directory.child "names.csv").target
            (.file [1, 2] modified identity)).tick := by
        refine ⟨fun sound => (altered sound).1, fun place outside => ?_,
          fun _ there => there, Nat.le_succ _⟩
        refine (node?_setNode below _ place).trans (if_neg ?_)
        rintro rfl
        rw [target_child_table] at outside
        exact outside ⟨List.prefix_append _ _, by simp⟩
      cases fails <;> exact written

def sampleCache : Cache := ⟨⟨"cache"⟩⟩

def sampleTree : FileTree where
  nodes := [(["cache"], .directory)]

theorem empty_sampleTree : sampleCache.Empty sampleTree := by
  have target : sampleCache.root.target = ["cache"] := by decide
  refine ⟨by decide, by decide, fun names more => ?_⟩
  have different : sampleCache.place names ≠ ["cache"] := by
    simp [place, target, more]
  have below : sampleCache.place names ≠ [] := by
    simp [place, target]
  have other : (sampleCache.place names == ["cache"]) = false := by
    simpa using different
  simp [node?, sampleTree, below, List.lookup_cons, other]

/-- A call for an entry by itself. -/
def sampleRun (fails : Bool) (tree : FileTree) :
    Except String Path × FileTree :=
  runFrom (sampleCache.accessEntry "mappings" "1.7.10" CacheError.message
    (fillTable fails)) tree

/-- A call fails to fill an entry, and the next one publishes it. -/
theorem accessEntry_publishesOnce_retried :
    ∃ scene later : Scene String,
      sampleCache.Empty sampleTree ∧
        Reaches sampleCache CacheError.message (Scene.start sampleTree) scene ∧
        Reaches sampleCache CacheError.message scene later ∧
        PublishesOnce sampleCache scene later ∧
        PublishesOnce sampleCache later later ∧
        (∃ call, scene.calls 0 = some call ∧
          call.phase = .ended (.error "no network")) ∧
        ∃ call, later.calls 1 = some call ∧
          call.phase = .ended (.ok ⟨"cache/mappings/1.7.10"⟩) := by
  have first : Ends sampleCache CacheError.message (Scene.start sampleTree) 0
      (sampleRun true sampleTree) :=
    ends_accessEntry _ _ (writesInto_fillTable true) rfl
  obtain ⟨scene, reached, tree, others, failed⟩ := first
  have second : Ends sampleCache CacheError.message scene 1
      (sampleRun false scene.tree) :=
    ends_accessEntry _ _ (writesInto_fillTable false) (others 1 (by decide))
  obtain ⟨later, onward, _, _, published⟩ := second
  have failure : (sampleRun true sampleTree).1 = .error "no network" := by
    decide +kernel
  have success : (sampleRun false (sampleRun true sampleTree).2).1 =
      .ok ⟨"cache/mappings/1.7.10"⟩ := by
    decide +kernel
  rw [failure] at failed
  rw [tree, success] at published
  exact ⟨scene, later, empty_sampleTree, reached, onward,
    accessEntry_publishesOnce empty_sampleTree reached onward,
    accessEntry_publishesOnce empty_sampleTree (reached.trans onward) .refl,
    failed, published⟩

end Deobfuscate.Cache
