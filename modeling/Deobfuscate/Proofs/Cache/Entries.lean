import Deobfuscate.Proofs.Cache.Exclusion

/-!
# What stands in a cache while it is used

At any time a cache holds its lock file, directories of namespaces, the entries
that have been published, each with what was written into it, and the directory
that is being made into an entry.  There is at most one of the latter, since the
call that makes it holds the exclusive lock.
-/

namespace Deobfuscate.Cache

open FileTree

variable {ε : Type} {cache : Cache} {scene : Scene ε} {caller : Nat}
  {call next : Call ε} {tree before after : FileTree}
  {published more : List Publication} {staging : Path}

/-- The directory that a call has made for its entry. -/
def Phase.staging? : Phase ε → Option Path
  | .waiting _ => none
  | .checking _ => none
  | .staging _ => none
  | .filling _ staging => some staging
  | .moving _ staging => some staging
  | .discarding _ staging _ => some staging
  | .releasing _ _ => none
  | .ended _ => none

def Call.Named (call : Call ε) : Prop :=
  isValidName call.space = true ∧ isValidName call.key = true

/-- A call holds the exclusive lock, and nobody has published its entry. -/
structure Call.Working (call : Call ε) (published : List Publication)
    (held : HeldLock) : Prop where
  named : call.Named
  mode : held.mode = .exclusive
  fresh : call.names ∉ published.map Publication.names

def Call.Unchanged (cache : Cache) (call : Call ε) (tree : FileTree) : Prop :=
  ∀ names, Kept (· = cache.place [call.space]) call.found tree
    (cache.place names)

/-- The directory that a call has made is there, and nothing else in the cache
is changed. -/
structure Call.Staged (cache : Cache) (call : Call ε) (tree : FileTree)
    (staging : Path) : Prop where
  fresh : ∃ number, staging = cache.stagingIn call.space number
  accessible : Accessible tree staging
  stands : tree.node? staging.target = some .directory
  nothing : ∀ location, staging.target <+: location →
    call.found.node? location = none
  kept : ∀ names, ¬staging.target <+: cache.place names →
    Kept (· = cache.place [call.space]) call.found tree (cache.place names)

/-- What a call relies on does not depend on how far it has come. -/
theorem Call.Working.to {held : HeldLock}
    (working : call.Working published held)
    (same : next.names = call.names) : next.Working published held := by
  obtain ⟨space, key⟩ := Prod.mk.inj same
  exact ⟨⟨space ▸ working.named.1, key ▸ working.named.2⟩, working.mode,
    same ▸ working.fresh⟩

theorem Call.Staged.to (staged : call.Staged cache tree staging)
    (space : next.space = call.space) (found : next.found = call.found) :
    next.Staged cache tree staging := by
  obtain ⟨fresh, accessible, stands, nothing, kept⟩ := staged
  rw [← space] at fresh kept
  rw [← found] at nothing kept
  exact ⟨fresh, accessible, stands, nothing, kept⟩

def Call.Answers (cache : Cache) (call : Call ε)
    (published : List Publication) (path : Path) : Prop :=
  call.Named ∧ path = cache.entryAt call.names ∧
    call.names ∈ published.map Publication.names

/-- What is true of a call that has come to a phase. -/
def Fits (cache : Cache) (tree : FileTree) (published : List Publication)
    (call : Call ε) : Phase ε → Prop
  | .waiting _ => call.Named
  | .checking _ => call.Named
  | .staging held => call.Working published held
  | .filling held staging =>
      call.Working published held ∧ call.Staged cache tree staging
  | .moving held staging =>
      call.Working published held ∧ call.Staged cache tree staging ∧
        tree.below staging = call.written
  | .discarding held staging (.error _) =>
      call.Working published held ∧ call.Staged cache tree staging
  | .discarding held staging (.ok _) =>
      call.Answers cache published (cache.entryAt call.names) ∧
        held.mode = .exclusive ∧
        (∃ number, staging = cache.stagingIn call.space number) ∧
        tree.node? staging.target = none
  | .releasing _ none => call.Named
  | .releasing _ (some (.ok path)) => call.Answers cache published path
  | .releasing held (some (.error _)) =>
      call.Working published held ∧ call.Unchanged cache tree
  | .ended (.ok path) => call.Answers cache published path
  | .ended (.error _) => True

/-- A published entry stands in the cache as it was published. -/
structure Publication.Stands (cache : Cache) (tree : FileTree)
    (entry : Publication) : Prop where
  space : isValidName entry.names.1 = true
  key : isValidName entry.names.2 = true
  isDirectory : tree.isDirectory (cache.entryAt entry.names) = true
  contents : tree.below (cache.entryAt entry.names) = entry.contents

/-- Why something may stand in the cache. -/
inductive Accounted (cache : Cache) (scene : Scene ε) (names : Location) :
    Prop
  /-- It is the lock file or the directory of a namespace. -/
  | inRoot {name : String} (valid : isValidName name = true)
      (same : names = [name])
  | inEntry {entry : Publication} (published : entry ∈ scene.published)
      (inside : [entry.names.1, entry.names.2] <+: names)
  | inStaging {caller : Nat} {call : Call ε} {staging : Path}
      (called : scene.calls caller = some call)
      (here : call.phase.staging? = some staging)
      (inside : staging.target <+: cache.place names)

/-- The cache is in order. -/
structure Orderly (cache : Cache) (scene : Scene ε) : Prop where
  ready : cache.Ready scene.tree
  guarded : Guarded cache scene
  fits : ∀ caller call, scene.calls caller = some call →
    Fits cache scene.tree scene.published call call.phase
  accounted : ∀ names node, names ≠ [] →
    scene.tree.node? (cache.place names) = some node →
    Accounted cache scene names
  stands : ∀ entry ∈ scene.published, entry.Stands cache scene.tree
  once : (scene.published.map Publication.names).Nodup

def SameIn (cache : Cache) (before after : FileTree) : Prop :=
  ∀ location, cache.Covers location →
    after.node? location = before.node? location

theorem SameIn.place (same : cache.SameIn before after) (names : Location) :
    after.node? (cache.place names) = before.node? (cache.place names) :=
  same _ (covers_place names)

theorem Call.Staged.target (staged : call.Staged cache tree staging)
    (ready : cache.Ready before) (named : call.Named) :
    ∃ number, staging = cache.stagingIn call.space number ∧
      staging.target = cache.place [call.space, stagingName number] := by
  obtain ⟨number, same⟩ := staged.fresh
  exact ⟨number, same, same ▸ target_stagingIn ready.written named.1 number⟩

theorem Call.Staged.namespace_stands
    (staged : call.Staged cache tree staging) (ready : cache.Ready tree)
    (named : call.Named) :
    tree.node? (cache.place [call.space]) = some .directory := by
  obtain ⟨number, _, target⟩ := staged.target ready named
  have stands := staged.stands
  rw [target] at stands
  simpa [place, List.dropLast_append_of_ne_nil] using
    ready.sound.rooted _ _ stands

theorem Call.Staged.of_same (staged : call.Staged cache before staging)
    (named : call.Named) (ready : cache.Ready before)
    (sound : after.Sound) (same : cache.SameIn before after) :
    call.Staged cache after staging := by
  have readyAfter := ready.of_same sound fun location passed =>
    same location (.inr passed)
  obtain ⟨number, spelled, target⟩ := staged.target ready named
  have stands := staged.stands
  have above := staged.namespace_stands ready named
  refine ⟨staged.fresh, ?_, ?_, staged.nothing, fun names outside => ?_⟩
  · have accessible := staged.accessible
    rw [spelled] at accessible ⊢
    refine accessible.of_stands readyAfter named.1
      (properName_staging number) ?_
    rw [same.place, above]
  · rw [target] at stands ⊢
    rw [same.place, stands]
  · exact (staged.kept names outside).trans (.inl (same.place names))

/-- What a call relies on stays as long as nothing in the cache is changed. -/
theorem Fits.of_same {phase : Phase ε}
    (fits : Fits cache before published call phase)
    (ready : cache.Ready before) (sound : after.Sound)
    (same : cache.SameIn before after) :
    Fits cache after published call phase := by
  have staged : ∀ {held : HeldLock} {staging : Path},
      call.Working published held ∧ call.Staged cache before staging →
      call.Working published held ∧ call.Staged cache after staging :=
    fun ⟨working, staged⟩ =>
      ⟨working, staged.of_same working.named ready sound same⟩
  cases phase with
  | filling held staging => exact staged fits
  | moving held staging =>
      obtain ⟨working, was, written⟩ := fits
      obtain ⟨number, _, target⟩ := was.target ready working.named
      refine ⟨working, (staged ⟨working, was⟩).2, written ▸ ?_⟩
      funext names
      unfold below
      rw [target, place, List.append_assoc]
      exact same.place _
  | discarding held staging result =>
      cases result with
      | error error => exact staged fits
      | ok _ =>
          obtain ⟨answers, mode, ⟨number, spelled⟩, nothing⟩ := fits
          have target := target_stagingIn ready.written answers.1.1 number
          refine ⟨answers, mode, ⟨number, spelled⟩, ?_⟩
          rw [spelled, target] at nothing ⊢
          rw [same.place, nothing]
  | releasing held result =>
      cases result with
      | none => exact fits
      | some answer =>
          cases answer with
          | ok path => exact fits
          | error error =>
              obtain ⟨working, unchanged⟩ := fits
              exact ⟨working, fun names =>
                (unchanged names).trans (.inl (same.place names))⟩
  | ended result =>
      cases result with
      | ok path => exact fits
      | error error => trivial
  | _ => exact fits

theorem Fits.of_idle {phase : Phase ε}
    (fits : Fits cache before published call phase)
    (idle : phase.held? = none)
    (grown : published ⊆ more) :
    Fits cache after more call phase := by
  cases phase with
  | waiting mode => exact fits
  | ended result =>
      cases result with
      | error error => trivial
      | ok path =>
          obtain ⟨named, same, there⟩ := fits
          exact ⟨named, same, List.map_subset _ grown there⟩
  | _ => cases idle

/-- The directory that a call has made is a fresh one in its namespace. -/
theorem Fits.made {phase : Phase ε}
    (fits : Fits cache tree published call phase)
    (here : phase.staging? = some staging) :
    call.Named ∧ ∃ number, staging = cache.stagingIn call.space number := by
  cases phase with
  | filling held path =>
      cases here
      exact ⟨fits.1.named, fits.2.fresh⟩
  | moving held path =>
      cases here
      exact ⟨fits.1.named, fits.2.1.fresh⟩
  | discarding held path result =>
      cases here
      cases result with
      | error error => exact ⟨fits.1.named, fits.2.fresh⟩
      | ok _ => exact ⟨fits.1.1, fits.2.2.1⟩
  | _ => cases here

theorem Fits.exclusive {phase : Phase ε}
    (fits : Fits cache tree published call phase)
    (here : phase.staging? = some staging) :
    ∃ held, phase.held? = some held ∧ held.mode = .exclusive := by
  cases phase with
  | filling held path => exact ⟨held, rfl, fits.1.mode⟩
  | moving held path => exact ⟨held, rfl, fits.1.mode⟩
  | discarding held path result =>
      cases result with
      | error error => exact ⟨held, rfl, fits.1.mode⟩
      | ok _ => exact ⟨held, rfl, fits.2.1⟩
  | _ => cases here

/-! ## What stands in the cache -/

theorem Publication.Stands.of_same {entry : Publication}
    (stands : entry.Stands cache before) (ready : cache.Ready after)
    (same : ∀ location,
      cache.place [entry.names.1, entry.names.2] <+: location →
        after.node? location = before.node? location) :
    entry.Stands cache after := by
  obtain ⟨space, key, present, contents⟩ := stands
  have target : (cache.entryAt entry.names).target =
      cache.place [entry.names.1, entry.names.2] :=
    target_entryAt ready.written space key
  have directory := node?_of_isDirectory present
  rw [target] at directory
  refine ⟨space, key, ready.isDirectory_entryAt space key present ?_, ?_⟩
  · rw [same _ List.prefix_rfl, directory]
  · rw [← contents]
    funext names
    unfold below
    rw [target]
    exact same _ (List.prefix_append _ _)

theorem Accounted.put {names : Location} {phase : Phase ε}
    (accounted : Accounted cache scene names)
    (called : scene.calls caller = some call) (here : call.phase = phase)
    (kept : ∀ staging, phase.staging? = some staging →
      staging.target <+: cache.place names →
      next.phase.staging? = some staging) :
    Accounted cache (scene.put caller next after) names := by
  obtain ⟨valid, same⟩ | ⟨published, inside⟩ | ⟨calledOther, made, inside⟩ :=
    accounted
  · exact .inRoot valid same
  · exact .inEntry published inside
  · rename_i other _ staging
    by_cases mine : other = caller
    · subst mine
      cases called.symm.trans calledOther
      rw [here] at made
      exact .inStaging Scene.put_calls (kept staging made inside) inside
    · exact .inStaging ((Scene.put_calls_of_ne mine).trans calledOther) made
        inside

theorem Accounted.put_begun {names : Location}
    (accounted : Accounted cache scene names)
    (idle : scene.calls caller = none) :
    Accounted cache (scene.put caller next after) names := by
  obtain ⟨valid, same⟩ | ⟨published, inside⟩ | ⟨called, made, inside⟩ :=
    accounted
  · exact .inRoot valid same
  · exact .inEntry published inside
  · refine .inStaging ((Scene.put_calls_of_ne ?_).trans called) made inside
    rintro rfl
    cases idle.symm.trans called

theorem Accounted.publish {names : Location} {entry : Publication}
    (accounted : Accounted cache scene names) :
    Accounted cache (scene.publish entry) names := by
  obtain ⟨valid, same⟩ | ⟨published, inside⟩ | ⟨called, here, inside⟩ :=
    accounted
  · exact .inRoot valid same
  · exact .inEntry (List.mem_cons_of_mem _ published) inside
  · exact .inStaging called here inside

namespace Orderly

theorem published_of_stands (orderly : Orderly cache scene)
    {space key : String} (valid : isValidName key = true) {node : Node}
    (stands : scene.tree.node? (cache.place [space, key]) = some node) :
    (space, key) ∈ scene.published.map Publication.names := by
  obtain ⟨_, same⟩ | ⟨published, inside⟩ | ⟨called, here, inside⟩ :=
    orderly.accounted _ _ (List.cons_ne_nil _ _) stands
  · simp at same
  · rename_i entry
    have within : cache.place [entry.names.1, entry.names.2] <+:
        cache.place [space, key] := inside_place_iff.2 inside
    obtain ⟨sameSpace, sameKey⟩ := place_pair_inj within List.prefix_rfl
    exact List.mem_map.2 ⟨entry, published, Prod.ext sameSpace sameKey⟩
  -- A directory that is to become an entry is not called like an entry.
  · rename_i other call staging
    obtain ⟨named, number, spelled⟩ :=
      Fits.made (orderly.fits _ _ called) here
    rw [spelled, target_stagingIn orderly.ready.written named.1 number]
      at inside
    rw [← (place_pair_inj inside List.prefix_rfl).2,
      not_valid_of_dotted (prefix_staging number)] at valid
    cases valid

theorem nothing_of_fresh (orderly : Orderly cache scene) {held : HeldLock}
    (working : call.Working scene.published held) :
    scene.tree.node? (cache.place [call.space, call.key]) = none := by
  by_contra something
  obtain ⟨node, stands⟩ := Option.ne_none_iff_exists'.1 something
  exact working.fresh (orderly.published_of_stands working.named.2 stands)

theorem put (orderly : Orderly cache scene) (ready : cache.Ready after)
    (guarded : Guarded cache (scene.put caller next after))
    (mine : Fits cache after scene.published next next.phase)
    (others : ∀ other call, other ≠ caller → scene.calls other = some call →
      Fits cache after scene.published call call.phase)
    (accounted : ∀ names node, names ≠ [] →
      after.node? (cache.place names) = some node →
      Accounted cache (scene.put caller next after) names)
    (stands : ∀ entry ∈ scene.published, entry.Stands cache after) :
    Orderly cache (scene.put caller next after) := by
  refine ⟨ready, guarded, fun other call called => ?_, accounted, stands,
    orderly.once⟩
  by_cases same : other = caller
  · subst same
    rw [Scene.put_calls] at called
    cases called
    exact mine
  · rw [Scene.put_calls_of_ne same] at called
    exact others other call same called

theorem put_same (orderly : Orderly cache scene) (sound : after.Sound)
    (same : cache.SameIn scene.tree after)
    (guarded : Guarded cache (scene.put caller next after))
    (mine : Fits cache scene.tree scene.published next next.phase)
    (accounted : ∀ names, Accounted cache scene names →
      Accounted cache (scene.put caller next after) names) :
    Orderly cache (scene.put caller next after) := by
  have ready := orderly.ready.of_same sound fun location passed =>
    same location (.inr passed)
  refine orderly.put ready guarded
    (Fits.of_same mine orderly.ready sound same)
    (fun other call _ called =>
      Fits.of_same (orderly.fits other call called) orderly.ready sound same)
    (fun names node more stands => ?_)
    (fun entry published => ?_)
  · rw [same.place] at stands
    exact accounted names (orderly.accounted names node more stands)
  · refine (orderly.stands entry published).of_same ready
      fun location inside => same location (.inl ?_)
    exact (List.prefix_append _ _).trans inside

theorem turn_still (orderly : Orderly cache scene) {phase : Phase ε}
    (called : scene.calls caller = some call) (here : call.phase = phase)
    (held : next.phase.held? = phase.held? ∨ next.phase.held? = none)
    (kept : ∀ staging, phase.staging? = some staging →
      next.phase.staging? = some staging)
    (fits : Fits cache scene.tree scene.published next next.phase) :
    Orderly cache (scene.put caller next scene.tree) :=
  orderly.put_same orderly.ready.sound (fun _ _ => rfl)
    (orderly.guarded.put called (here ▸ held) (fun _ there => there) le_rfl
      fun _ file => file)
    fits fun _ accounted => accounted.put called here
      fun staging made _ => kept staging made

theorem turn_release (orderly : Orderly cache scene) {held : HeldLock}
    {result : Option (Except ε Path)}
    (called : scene.calls caller = some call)
    (here : call.phase = .releasing held result)
    (released : next.phase.held? = none)
    (fits : Fits cache scene.tree scene.published next next.phase) :
    Orderly cache (scene.put caller next (scene.tree.release held)) := by
  have sound : (scene.tree.release held).Sound :=
    ⟨orderly.ready.sound.formed.of_sublist (.refl _),
      orderly.ready.sound.rooted⟩
  have holding : call.phase.held? = some held := by rw [here, Phase.held?]
  exact orderly.put_same sound (fun _ _ => rfl)
    (orderly.guarded.put_release called holding released) fits
    fun _ accounted => accounted.put called here fun _ made => by cases made

/-- A lock is tried, for which the lock file may have been made. -/
theorem put_opened (orderly : Orderly cache scene) {opened : FileTree}
    {mode : LockMode} (called : scene.calls caller = some call)
    (here : call.phase = .waiting mode)
    (made : cache.Opened scene.tree opened)
    (same : after.nodes = opened.nodes)
    (guarded : Guarded cache (scene.put caller next after))
    (mine : Fits cache after scene.published next next.phase) :
    Orderly cache (scene.put caller next after) := by
  have nodes : ∀ location, after.node? location = opened.node? location := by
    intro location
    simp only [node?, same]
  have sound : after.Sound := by
    refine ⟨made.sound.formed.of_sublist (same ▸ .refl _),
      fun location node stands => ?_⟩
    rw [nodes] at stands ⊢
    exact made.sound.rooted location node stands
  have ready : cache.Ready after :=
    orderly.ready.of_same sound fun location passed => by
      rw [nodes]
      refine made.elsewhere location ?_
      rintro rfl
      exact orderly.ready.not_mem_places (List.cons_ne_nil _ _)
        List.prefix_rfl passed
  refine orderly.put ready guarded mine (fun other call _ calledOther => ?_)
    (fun names node more stands => ?_) (fun entry published => ?_)
  · have fits := orderly.fits other call calledOther
    obtain missing | kept := made.lockFile
    -- Had a lock been held, the lock file would have been there.
    · refine Fits.of_idle fits ?_ (List.Subset.refl _)
      cases taken : call.phase.held? with
      | none => rfl
      | some lock =>
          obtain ⟨_, _, _, _, stands⟩ :=
            orderly.guarded.held other lock ⟨call, calledOther, taken⟩
          rw [missing] at stands
          cases stands
    · refine Fits.of_same fits orderly.ready sound fun location _ => ?_
      rw [nodes]
      by_cases lock : location = cache.place [lockName]
      · rw [lock, kept]
      · exact made.elsewhere location lock
  · by_cases lock : names = [lockName]
    · exact .inRoot (by decide) lock
    · rw [nodes, made.elsewhere _ (mt place_inj.1 lock)] at stands
      exact (orderly.accounted names node more stands).put called here
        fun _ made => by cases made
  · refine (orderly.stands entry published).of_same ready
      fun location inside => ?_
    rw [nodes]
    refine made.elsewhere location ?_
    rintro rfl
    exact not_inside_place inside

/-- A step of a call that holds the exclusive lock: no other call relies on
anything but the entries. -/
theorem turn_alone (orderly : Orderly cache scene) {held : HeldLock}
    (called : scene.calls caller = some call)
    (holding : call.phase.held? = some held) (mode : held.mode = .exclusive)
    (ready : cache.Ready after)
    (guarded : Guarded cache (scene.put caller next after))
    (mine : Fits cache after scene.published next next.phase)
    (accounted : ∀ names node, names ≠ [] →
      after.node? (cache.place names) = some node →
      Accounted cache (scene.put caller next after) names)
    (untouched : ∀ space key, isValidName key = true → ∀ location,
      cache.place [space, key] <+: location →
      after.node? location = scene.tree.node? location) :
    Orderly cache (scene.put caller next after) := by
  refine orderly.put ready guarded mine (fun other call different again => ?_)
    accounted fun entry published => ?_
  · exact Fits.of_idle (orderly.fits other call again)
      (orderly.guarded.alone ⟨_, called, holding⟩ mode different again)
      (List.Subset.refl _)
  · have stands := orderly.stands entry published
    exact stands.of_same ready (untouched _ _ stands.key)

/-- The directory of a namespace may have been made, and nothing else but below
a place. -/
theorem ready_of_kept (orderly : Orderly cache scene) (sound : after.Sound)
    {made : Location → Prop} {names : Location} (more : names ≠ [])
    (kept : ∀ location, ¬cache.place names <+: location →
      Kept made scene.tree after location) :
    cache.Ready after := by
  refine ⟨sound, orderly.ready.written, fun location passed => ?_,
    orderly.ready.shallow⟩
  exact (kept location fun inside =>
    orderly.ready.not_mem_places more inside passed).stands
      (orderly.ready.leads location passed)

theorem lockFile_of_kept {made : Location → Prop} {space name : String}
    (kept : ∀ location, ¬cache.place [space, name] <+: location →
      Kept made before after location) {identity : Nat}
    (file : cache.LockFile before identity) :
    cache.LockFile after identity := by
  obtain ⟨content, modified, stands⟩ := file
  exact ⟨content, modified, (kept _ not_inside_place).stands stands⟩

/-- What lies in an entry does not lie in a directory that is to become one. -/
theorem not_in_staging {space other key : String} {number : Nat}
    (valid : isValidName key = true) {location : Location}
    (inside : cache.place [space, key] <+: location) :
    ¬cache.place [other, stagingName number] <+: location := by
  intro staged
  rw [(place_pair_inj inside staged).2,
    not_valid_of_dotted (prefix_staging number)] at valid
  cases valid

theorem untouched_of_kept {space other key : String} {number : Nat}
    (kept : ∀ location,
      ¬cache.place [space, stagingName number] <+: location →
      Kept (· = cache.place [other]) before after location)
    (valid : isValidName key = true) {name : String} {location : Location}
    (inside : cache.place [name, key] <+: location) :
    after.node? location = before.node? location := by
  refine (kept location (not_in_staging valid inside)).resolve_right ?_
  rintro ⟨rfl, _⟩
  exact not_inside_place inside

theorem accounted_of_kept (orderly : Orderly cache scene)
    {names : Location} {node : Node} {phase : Phase ε}
    (called : scene.calls caller = some call) (here : call.phase = phase)
    (more : names ≠ []) (named : isValidName call.space = true)
    (stands : after.node? (cache.place names) = some node)
    (kept : Kept (· = cache.place [call.space]) scene.tree after
      (cache.place names))
    (stays : ∀ staging, phase.staging? = some staging →
      next.phase.staging? = some staging) :
    Accounted cache (scene.put caller next after) names := by
  obtain same | ⟨space, _⟩ := kept
  · rw [same] at stands
    exact (orderly.accounted names node more stands).put called here
      fun staging made _ => stays staging made
  · exact .inRoot named (place_inj.1 space)

/-- A call that holds the exclusive lock changes the cache below a place. -/
theorem turn_below (orderly : Orderly cache scene) {held : HeldLock}
    {number : Nat} (called : scene.calls caller = some call)
    (holding : call.phase.held? = some held)
    (still : next.phase.held? = some held) (mode : held.mode = .exclusive)
    (sound : after.Sound)
    (locks : ∀ lock ∈ scene.tree.locks, lock ∈ after.locks)
    (clock : scene.tree.clock ≤ after.clock)
    (kept : ∀ location,
      ¬cache.place [call.space, stagingName number] <+: location →
      Kept (· = cache.place [call.space]) scene.tree after location)
    (mine : Fits cache after scene.published next next.phase)
    (accounted : ∀ names node, names ≠ [] →
      after.node? (cache.place names) = some node →
      Accounted cache (scene.put caller next after) names) :
    Orderly cache (scene.put caller next after) :=
  orderly.turn_alone called holding mode
    (orderly.ready_of_kept sound (List.cons_ne_nil _ _) kept)
    (orderly.guarded.put called (.inl (still.trans holding.symm)) locks clock
      fun _ => lockFile_of_kept kept)
    mine accounted
    fun _ _ valid _ => untouched_of_kept kept valid

theorem turn_stage (orderly : Orderly cache scene) {wrap : CacheError → ε}
    {held : HeldLock} (called : scene.calls caller = some call)
    (here : call.phase = .staging held)
    (ran : runFrom (Cache.stage (cache.directoryOf call.space) wrap)
      scene.tree = (.ok staging, after)) :
    Orderly cache (scene.put caller
      { call with
        phase := .filling held staging
        found := scene.tree }
      after) := by
  have working : call.Working scene.published held := by
    have fits := orderly.fits caller call called
    rwa [here] at fits
  have holding : call.phase.held? = some held := by rw [here, Phase.held?]
  obtain ⟨sound, locks, clock, ⟨⟨_, failed⟩, _⟩ | ⟨number, made, accessible,
    nothing, stands, keptOutside⟩⟩ := orderly.ready.stage working.named.1 ran
  · cases failed
  · have spelled := Except.ok.inj made
    have target : staging.target =
        cache.place [call.space, stagingName number] := by
      rw [spelled]
      exact target_stagingIn orderly.ready.written working.named.1 number
    have kept : ∀ location,
        ¬cache.place [call.space, stagingName number] <+: location →
        Kept (· = cache.place [call.space]) scene.tree after location :=
      fun location outside => keptOutside location fun same =>
        outside (same ▸ List.prefix_rfl)
    have staged : ({ call with
        phase := .filling held staging
        found := scene.tree } : Call ε).Staged cache after staging := by
      refine ⟨⟨number, spelled⟩, spelled ▸ accessible, ?_, ?_, ?_⟩
      · rw [target]
        exact stands
      · rw [target]
        exact fun location inside =>
          orderly.ready.sound.rooted.none_below inside nothing
      · rw [target]
        exact fun names => kept (cache.place names)
    refine orderly.turn_below called holding rfl working.mode sound
      (fun _ there => locks ▸ there) clock kept
      ⟨working.to rfl, staged⟩
      fun names node more there => ?_
    by_cases inside :
        cache.place [call.space, stagingName number] <+: cache.place names
    · exact .inStaging Scene.put_calls rfl (target ▸ inside)
    · exact orderly.accounted_of_kept called here more working.named.1 there
        (kept _ inside) fun _ made => by cases made

/-- A call fails to make a directory, but may have made the directory of the
namespace. -/
theorem turn_failToStage (orderly : Orderly cache scene)
    {wrap : CacheError → ε} {held : HeldLock} {error : ε}
    (called : scene.calls caller = some call)
    (here : call.phase = .staging held)
    (ran : runFrom (Cache.stage (cache.directoryOf call.space) wrap)
      scene.tree = (.error error, after)) :
    Orderly cache (scene.put caller
      { call with
        phase := .releasing held (some (.error error))
        found := scene.tree }
      after) := by
  have working : call.Working scene.published held := by
    have fits := orderly.fits caller call called
    rwa [here] at fits
  have holding : call.phase.held? = some held := by rw [here, Phase.held?]
  obtain ⟨sound, locks, clock, ⟨_, kept⟩ | ⟨_, made, _⟩⟩ :=
    orderly.ready.stage working.named.1 ran
  · refine orderly.turn_below called holding rfl working.mode sound
      (fun _ there => locks ▸ there) clock
      (fun location (_ : ¬cache.place [call.space, stagingName 0] <+: _) =>
        kept location)
      ⟨working.to rfl, fun names => kept _⟩
      fun names node more there => ?_
    exact orderly.accounted_of_kept called here more working.named.1 there
      (kept _) fun _ made => by cases made
  · cases made

theorem turn_fill (orderly : Orderly cache scene) {held : HeldLock}
    (called : scene.calls caller = some call)
    (here : call.phase = .filling held staging)
    (confined : WritesInto staging scene.tree after) :
    Orderly cache (scene.put caller call after) := by
  have fits := orderly.fits caller call called
  rw [here] at fits
  obtain ⟨working, staged⟩ := fits
  have holding : call.phase.held? = some held := by rw [here, Phase.held?]
  obtain ⟨number, spelled, target⟩ :=
    staged.target orderly.ready working.named
  have sound := confined.sound orderly.ready.sound
  have same : ∀ location,
      ¬cache.place [call.space, stagingName number] <+: location →
      after.node? location = scene.tree.node? location :=
    fun location outside => confined.same location fun inside =>
      outside (target ▸ inside.1)
  have kept : ∀ location,
      ¬cache.place [call.space, stagingName number] <+: location →
      Kept (· = cache.place [call.space]) scene.tree after location :=
    fun location outside => .inl (same location outside)
  have mine : call.Staged cache after staging := by
    refine ⟨⟨number, spelled⟩, ?_, ?_, staged.nothing,
      fun names outside => ?_⟩
    · have accessible := staged.accessible
      rw [spelled] at accessible ⊢
      refine accessible.of_stands
        (orderly.ready_of_kept sound (List.cons_ne_nil _ _) kept)
        working.named.1 (properName_staging number) ?_
      exact (kept _ not_inside_place).stands
        (staged.namespace_stands orderly.ready working.named)
    · rw [confined.same _ fun inside => inside.2 rfl]
      exact staged.stands
    · exact (staged.kept names outside).trans
        (.inl (same _ (target ▸ outside)))
  refine orderly.turn_below called holding holding working.mode sound
    confined.locks confined.clock kept ?_ fun names node more there => ?_
  · rw [here]
    exact ⟨working, mine⟩
  · by_cases inside :
        cache.place [call.space, stagingName number] <+: cache.place names
    · refine .inStaging Scene.put_calls ?_ (target ▸ inside)
      rw [here, Phase.staging?]
    · exact orderly.accounted_of_kept called rfl more working.named.1 there
        (.inl (same _ inside)) fun _ made => made

/-- A call that has failed discards its directory, and leaves the cache as it
was. -/
theorem turn_discard (orderly : Orderly cache scene) {held : HeldLock}
    {error : ε} (called : scene.calls caller = some call)
    (here : call.phase = .discarding held staging (.error error)) :
    Orderly cache (scene.put caller
      { call with phase := .releasing held (some (.error error)) }
      (scene.tree.discard staging)) := by
  have fits := orderly.fits caller call called
  rw [here] at fits
  obtain ⟨working, staged⟩ := fits
  have holding : call.phase.held? = some held := by rw [here, Phase.held?]
  obtain ⟨number, spelled, target⟩ :=
    staged.target orderly.ready working.named
  have locks := sameLocks_discard scene.tree staging
  obtain ⟨sound, nodes⟩ := orderly.ready.discard working.named.1
    (spelled ▸ staged.accessible) (target ▸ staged.stands)
  rw [← spelled] at sound nodes
  have same : ∀ location,
      ¬cache.place [call.space, stagingName number] <+: location →
      (scene.tree.discard staging).node? location =
        scene.tree.node? location :=
    fun location outside => (nodes location).trans (if_neg outside)
  refine orderly.turn_below called holding rfl working.mode sound
    (fun _ there => locks.1 ▸ there) locks.2.ge
    (fun location outside => .inl (same location outside))
    ⟨working.to rfl, fun names => ?_⟩
    fun names node more there => ?_
  · by_cases inside :
        cache.place [call.space, stagingName number] <+: cache.place names
    · refine .inl ?_
      rw [nodes, if_pos inside]
      exact (staged.nothing _ (target ▸ inside)).symm
    · exact (staged.kept names (target ▸ inside)).trans
        (.inl (same _ inside))
  · rw [nodes] at there
    split at there
    · cases there
    · rename_i outside
      refine (orderly.accounted names node more there).put called here
        fun path made inside => ?_
      cases made
      exact absurd (target ▸ inside) outside

/-- After its directory has become an entry, there is nothing to discard. -/
theorem turn_keep (orderly : Orderly cache scene) {held : HeldLock}
    (called : scene.calls caller = some call)
    (here : call.phase = .discarding held staging (.ok ())) :
    Orderly cache (scene.put caller
      { call with
        phase := .releasing held (some (.ok (cache.entryAt call.names))) }
      (scene.tree.discard staging)) := by
  have fits := orderly.fits caller call called
  rw [here] at fits
  obtain ⟨answers, mode, ⟨number, spelled⟩, nothing⟩ := fits
  rw [discard_of_none nothing]
  have sound := orderly.ready.sound
  refine orderly.put orderly.ready ?_ answers (fun other call _ again =>
    orderly.fits other call again) (fun names node more there => ?_)
    orderly.stands
  · refine orderly.guarded.put called (.inl ?_) (fun _ there => there) le_rfl
      fun _ file => file
    rw [here]
    rfl
  · refine (orderly.accounted names node more there).put called here
      fun path made inside => ?_
    cases made
    rw [sound.rooted.none_below inside nothing] at there
    cases there

/-- A directory that has been filled becomes the entry. -/
theorem publish (orderly : Orderly cache scene) {held : HeldLock}
    (called : scene.calls caller = some call)
    (here : call.phase = .moving held staging)
    (renamed : scene.tree.rename staging (cache.entryAt call.names) =
      .ok after) :
    Orderly cache
      ((scene.put caller
        { call with phase := .discarding held staging (.ok ()) }
        after).publish ⟨call.names, call.written⟩) := by
  have fits := orderly.fits caller call called
  rw [here] at fits
  obtain ⟨working, staged, written⟩ := fits
  have holding : call.phase.held? = some held := by rw [here, Phase.held?]
  obtain ⟨number, spelled, target⟩ :=
    staged.target orderly.ready working.named
  have nothing := orderly.nothing_of_fresh working
  have locks := sameLocks_rename renamed
  obtain ⟨sound, present, nodes⟩ := orderly.ready.rename working.named.1
    working.named.2 (target ▸ staged.stands) nothing (spelled ▸ renamed)
  have outside : ∀ location, ¬cache.place [call.space, call.key] <+: location →
      ¬cache.place [call.space, stagingName number] <+: location →
      after.node? location = scene.tree.node? location := by
    intro location notEntry notStaging
    rw [nodes, if_neg notEntry, if_neg notStaging]
  have ready : cache.Ready after :=
    orderly.ready.of_same sound fun location passed =>
      have above : ∀ name, ¬cache.place [call.space, name] <+: location :=
        fun name inside => orderly.ready.not_mem_places
          (List.cons_ne_nil _ _) inside passed
      outside location (above _) (above _)
  have guarded : Guarded cache (scene.put caller
      { call with phase := .discarding held staging (.ok ()) } after) := by
    refine orderly.guarded.put called (.inl holding.symm)
      (fun _ there => locks.1 ▸ there) locks.2.ge ?_
    rintro identity ⟨content, modified, stands⟩
    exact ⟨content, modified,
      (outside _ not_inside_place not_inside_place).trans stands⟩
  have gone : after.node? staging.target = none := by
    rw [target, nodes, if_neg, if_pos List.prefix_rfl]
    exact fun inside => not_in_staging working.named.2 inside List.prefix_rfl
  have filled : after.below (cache.entryAt call.names) = call.written := by
    have entryTarget : (cache.entryAt call.names).target =
        cache.place [call.space, call.key] :=
      target_entryAt orderly.ready.written working.named.1 working.named.2
    rw [← written]
    funext names
    unfold below
    rw [entryTarget, nodes, if_pos (List.prefix_append _ _), List.drop_left,
      target]
  refine ⟨ready, ⟨guarded.held, guarded.apart⟩,
    fun other again calledOther => ?_,
    fun names node more there => ?_, fun entry published => ?_, ?_⟩
  · by_cases same : other = caller
    · subst same
      rw [Scene.publish_calls, Scene.put_calls] at calledOther
      cases calledOther
      refine ⟨⟨working.named, rfl, List.mem_cons_self⟩, working.mode,
        ⟨number, spelled⟩, gone⟩
    · rw [Scene.publish_calls, Scene.put_calls_of_ne same] at calledOther
      exact Fits.of_idle (orderly.fits other again calledOther)
        (orderly.guarded.alone ⟨_, called, holding⟩ working.mode same
          calledOther)
        (List.subset_cons_self _ _)
  · change after.node? (cache.place names) = some node at there
    by_cases inEntry : cache.place [call.space, call.key] <+: cache.place names
    · exact .inEntry List.mem_cons_self (inside_place_iff.1 inEntry)
    · by_cases inStaging :
          cache.place [call.space, stagingName number] <+: cache.place names
      · rw [nodes, if_neg inEntry, if_pos inStaging] at there
        cases there
      · rw [outside _ inEntry inStaging] at there
        exact ((orderly.accounted names node more there).put called here
          fun _ made _ => made).publish
  · obtain rfl | older := List.mem_cons.1 published
    · exact ⟨working.named.1, working.named.2, present, filled⟩
    -- An entry that was published before has other names.
    · have stands := orderly.stands entry older
      refine stands.of_same ready fun location inside =>
        outside location (fun other => working.fresh ?_)
          (not_in_staging stands.key inside)
      obtain ⟨sameSpace, sameKey⟩ := place_pair_inj inside other
      exact List.mem_map.2 ⟨entry, older, Prod.ext sameSpace sameKey⟩
  · exact List.nodup_cons.2 ⟨working.fresh, orderly.once⟩

theorem turn_lock (orderly : Orderly cache scene) {mode : LockMode}
    {held : HeldLock} (called : scene.calls caller = some call)
    (here : call.phase = .waiting mode)
    (ran : runFrom (tryLock cache.lockPath mode) scene.tree =
      (.ok (some held), after)) :
    Orderly cache
      (scene.put caller { call with phase := .checking held } after) := by
  have named := orderly.fits caller call called
  rw [here] at named
  obtain ⟨opened, made, ⟨_, missed⟩ | ⟨lock, taken, rfl, fresh, file, free,
    rfl⟩⟩ := opened_of_tryLock orderly.ready.sound orderly.ready.written
      orderly.ready.leads ran
  · exact absurd rfl (missed held)
  · cases taken
    exact orderly.put_opened called here made rfl
      (orderly.guarded.put_lock rfl made.locks made.clock
        (fun _ => made.keeps) file fresh free) named

theorem turn_wait (orderly : Orderly cache scene) {mode : LockMode}
    {result : Except CacheError (Option HeldLock)}
    (called : scene.calls caller = some call)
    (here : call.phase = .waiting mode)
    (ran : runFrom (tryLock cache.lockPath mode) scene.tree =
      (result, after))
    (missed : ∀ held, result ≠ .ok (some held))
    (idle : next.phase.held? = none)
    (mine : Fits cache after scene.published next next.phase) :
    Orderly cache (scene.put caller next after) := by
  obtain ⟨opened, made, ⟨rfl, _⟩ | ⟨lock, taken, _⟩⟩ :=
    opened_of_tryLock orderly.ready.sound orderly.ready.written
      orderly.ready.leads ran
  · exact orderly.put_opened called here made rfl
      (orderly.guarded.put called (.inr idle)
        (fun _ there => made.locks ▸ there) made.clock
        fun _ => made.keeps) mine
  · exact absurd taken (missed lock)

theorem turn (orderly : Orderly cache scene) {wrap : CacheError → ε}
    (called : scene.calls caller = some call)
    (turned : Turn cache wrap call scene.tree next after) :
    Orderly cache (scene.put caller next after) := by
  have fits := orderly.fits caller call called
  cases turned with
  | lock here ran => exact orderly.turn_lock called here ran
  | contend here ran =>
      rw [here] at fits
      refine orderly.turn_wait called here ran (fun _ => by simp) ?_ ?_
      · rw [here, Phase.held?]
      · rw [here]
        exact fits
  | failToLock here ran =>
      exact orderly.turn_wait called here ran (fun _ => by simp) rfl trivial
  | giveUp here =>
      exact orderly.turn_still called here (.inr rfl) (fun _ made => made)
        trivial
  | find here there =>
      rw [here] at fits
      have stands := node?_of_isDirectory there
      rw [Call.names, target_entryAt orderly.ready.written fits.1 fits.2]
        at stands
      exact orderly.turn_still called here (.inl rfl) (fun _ made => made)
        ⟨fits, rfl, orderly.published_of_stands fits.2 stands⟩
  | miss here mode missing =>
      rw [here] at fits
      exact orderly.turn_still called here (.inl rfl) (fun _ made => made) fits
  | missAgain here mode missing =>
      rw [here] at fits
      refine orderly.turn_still called here (.inl rfl) (fun _ made => made)
        ⟨fits, mode, fun published => ?_⟩
      -- A published entry would have been found.
      obtain ⟨entry, there, names⟩ := List.mem_map.1 published
      have present := (orderly.stands entry there).isDirectory
      rw [names] at present
      exact absurd (present.symm.trans missing) (by decide)
  | stage here ran => exact orderly.turn_stage called here ran
  | failToStage here ran => exact orderly.turn_failToStage called here ran
  | fill here confined => exact orderly.turn_fill called here confined
  | fillUp here =>
      rw [here] at fits
      obtain ⟨working, staged⟩ := fits
      exact orderly.turn_still called here (.inl rfl) (fun _ made => made)
        ⟨working.to rfl, staged.to rfl rfl, rfl⟩
  | failToFill error here =>
      rw [here] at fits
      obtain ⟨working, staged⟩ := fits
      exact orderly.turn_still called here (.inl rfl) (fun _ made => made)
        ⟨working.to rfl, staged.to rfl rfl⟩
  | failToRename here failed =>
      rw [here] at fits
      obtain ⟨working, staged, _⟩ := fits
      exact orderly.turn_still called here (.inl rfl) (fun _ made => made)
        ⟨working.to rfl, staged.to rfl rfl⟩
  | discard here =>
      rename_i held staging result
      cases result with
      | error error => exact orderly.turn_discard called here
      | ok _ => exact orderly.turn_keep called here
  | release here =>
      rw [here] at fits
      exact orderly.turn_release called here rfl fits
  | finish here =>
      rename_i held result
      rw [here] at fits
      refine orderly.turn_release called here rfl ?_
      cases result with
      | error error => trivial
      | ok path => exact fits

theorem step (orderly : Orderly cache scene) {wrap : CacheError → ε}
    {later : Scene ε} (stepped : Step cache wrap scene later) :
    Orderly cache later := by
  cases stepped with
  | begin space key idle =>
      have fresh : (cache.begun wrap space key).phase.held? = none := by
        unfold begun
        cases cache.entryPath space key <;> rfl
      refine orderly.put_same orderly.ready.sound (fun _ _ => rfl)
        (orderly.guarded.put_begun fresh) ?_ fun _ accounted =>
          accounted.put_begun idle
      cases valid : cache.entryPath space key with
      | error error =>
          simp only [begun, valid]
          trivial
      | ok path =>
          obtain ⟨spaceValid, keyValid, _⟩ := entryPath_eq_ok valid
          simp only [begun, valid]
          exact ⟨spaceValid, keyValid⟩
  | turn called turned => exact orderly.turn called turned
  | publish called here renamed => exact orderly.publish called here renamed
  | elsewhere spared =>
      rename_i after
      have sound := spared.sound orderly.ready.sound
      have ready := orderly.ready.of_same sound fun location passed =>
        spared.same location (.inr passed)
      refine ⟨ready, orderly.guarded.of_fewer (fun _ _ holds => holds)
        (fun _ lock _ there => spared.locks lock there) spared.clock ?_,
        fun caller call called => ?_, fun names node more stands => ?_,
        fun entry published => ?_, orderly.once⟩
      · rintro identity ⟨content, modified, stands⟩
        exact ⟨content, modified,
          (spared.same _ (covers_place _)).trans stands⟩
      · exact Fits.of_same (orderly.fits caller call called) orderly.ready sound
          spared.same
      · rw [spared.same _ (covers_place _)] at stands
        obtain ⟨valid, same⟩ | ⟨there, inside⟩ | ⟨called, here, inside⟩ :=
          orderly.accounted names node more stands
        · exact .inRoot valid same
        · exact .inEntry there inside
        · exact .inStaging called here inside
      · exact (orderly.stands entry published).of_same ready
          fun location inside => spared.same location
            (.inl ((List.prefix_append _ _).trans inside))

theorem reaches (orderly : Orderly cache scene) {wrap : CacheError → ε}
    {later : Scene ε} (reached : Reaches cache wrap scene later) :
    Orderly cache later := by
  induction reached with
  | refl => exact orderly
  | tail _ stepped inductionHypothesis => exact inductionHypothesis.step stepped

end Orderly

end Deobfuscate.Cache
