import Deobfuscate.Proofs.Cache.Files
import Mathlib.Logic.Function.Basic
import Mathlib.Logic.Relation

/-!
# Calls of a cache side by side

Any number of calls ask one cache for entries.  A call takes the shared lock,
looks for its entry and releases the lock; if the entry is missing it takes the
exclusive lock, looks again, has a fresh directory filled and renames it.  The
steps of different calls follow one another in any order that the locks allow.

What a call has found and filled, and what has been published, is kept in the
scene although no call looks at it.
-/

namespace Deobfuscate

open FileTree

/-- What stands below a place, by the names from there on. -/
abbrev Contents := Location → Option Node

/-- What a path leads to and what stands below. -/
def FileTree.below (tree : FileTree) (path : Path) : Contents :=
  fun names => tree.node? (path.target ++ names)

/-- A change that leaves some places alone and releases no lock. -/
structure LeavesAlone (spared : Location → Prop) (before after : FileTree) :
    Prop where
  sound : before.Sound → after.Sound
  same : ∀ place, spared place → after.node? place = before.node? place
  locks : ∀ held ∈ before.locks, held ∈ after.locks
  clock : before.clock ≤ after.clock

def WritesInto (directory : Path) : FileTree → FileTree → Prop :=
  LeavesAlone fun place =>
    ¬(directory.target <+: place ∧ place ≠ directory.target)

namespace Cache

variable {ε : Type}

/-- How far a call has come. -/
inductive Phase (ε : Type)
  /-- It waits for a lock. -/
  | waiting (mode : LockMode)
  /-- It looks for its entry. -/
  | checking (held : HeldLock)
  /-- It makes a fresh directory. -/
  | staging (held : HeldLock)
  /-- The directory is being filled. -/
  | filling (held : HeldLock) (staging : Path)
  /-- It gives the directory the name of its entry. -/
  | moving (held : HeldLock) (staging : Path)
  /-- It discards the directory, if that is still there. -/
  | discarding (held : HeldLock) (staging : Path) (result : Except ε Unit)
  /-- It releases its lock, and goes on to the exclusive lock if it has no
  result yet. -/
  | releasing (held : HeldLock) (result : Option (Except ε Path))
  | ended (result : Except ε Path)

/-- A call for an entry. -/
structure Call (ε : Type) where
  space : String
  key : String
  phase : Phase ε
  /-- The files as they were before the call made its directory. -/
  found : FileTree := {}
  /-- What its directory held when it had been filled. -/
  written : Contents := fun _ => none

/-- The namespace and the key of the entry that is called for. -/
def Call.names (call : Call ε) : String × String :=
  (call.space, call.key)

def begun (cache : Cache) (wrap : CacheError → ε) (space key : String) :
    Call ε where
  space := space
  key := key
  phase :=
    match cache.entryPath space key with
    | .ok _ => .waiting .shared
    | .error error => .ended (.error (wrap error))

/-- A step of a call, with the files before and after it. -/
inductive Turn (cache : Cache) (wrap : CacheError → ε) (call : Call ε)
    (tree : FileTree) : Call ε → FileTree → Prop
  | lock {mode : LockMode} {held : HeldLock} {after : FileTree}
      (here : call.phase = .waiting mode)
      (ran : runFrom (tryLock cache.lockPath mode) tree =
        (.ok (some held), after)) :
      Turn cache wrap call tree { call with phase := .checking held } after
  /-- Another call is in the way. -/
  | contend {mode : LockMode} {after : FileTree}
      (here : call.phase = .waiting mode)
      (ran : runFrom (tryLock cache.lockPath mode) tree =
        (.ok none, after)) :
      Turn cache wrap call tree call after
  | failToLock {mode : LockMode} {error : CacheError} {after : FileTree}
      (here : call.phase = .waiting mode)
      (ran : runFrom (tryLock cache.lockPath mode) tree =
        (.error error, after)) :
      Turn cache wrap call tree
        { call with phase := .ended (.error (wrap error)) } after
  /-- The call has waited too long. -/
  | giveUp {mode : LockMode} (here : call.phase = .waiting mode) :
      Turn cache wrap call tree
        { call with
          phase := .ended (.error (wrap (.lockTimeout cache.lockPath))) }
        tree
  | find {held : HeldLock} (here : call.phase = .checking held)
      (there : tree.isDirectory (cache.entryAt call.names) = true) :
      Turn cache wrap call tree
        { call with
          phase := .releasing held (some (.ok (cache.entryAt call.names))) }
        tree
  | miss {held : HeldLock} (here : call.phase = .checking held)
      (mode : held.mode = .shared)
      (missing : tree.isDirectory (cache.entryAt call.names) = false) :
      Turn cache wrap call tree
        { call with phase := .releasing held none } tree
  | missAgain {held : HeldLock} (here : call.phase = .checking held)
      (mode : held.mode = .exclusive)
      (missing : tree.isDirectory (cache.entryAt call.names) = false) :
      Turn cache wrap call tree { call with phase := .staging held } tree
  | stage {held : HeldLock} {staging : Path} {after : FileTree}
      (here : call.phase = .staging held)
      (ran : runFrom (Cache.stage (cache.directoryOf call.space) wrap) tree =
        (.ok staging, after)) :
      Turn cache wrap call tree
        { call with
          phase := .filling held staging
          found := tree }
        after
  | failToStage {held : HeldLock} {error : ε} {after : FileTree}
      (here : call.phase = .staging held)
      (ran : runFrom (Cache.stage (cache.directoryOf call.space) wrap) tree =
        (.error error, after)) :
      Turn cache wrap call tree
        { call with
          phase := .releasing held (some (.error error))
          found := tree }
        after
  /-- Something is written into the directory. -/
  | fill {held : HeldLock} {staging : Path} {after : FileTree}
      (here : call.phase = .filling held staging)
      (confined : WritesInto staging tree after) :
      Turn cache wrap call tree call after
  /-- Filling the directory has succeeded. -/
  | fillUp {held : HeldLock} {staging : Path}
      (here : call.phase = .filling held staging) :
      Turn cache wrap call tree
        { call with
          phase := .moving held staging
          written := tree.below staging }
        tree
  | failToFill {held : HeldLock} {staging : Path} (error : ε)
      (here : call.phase = .filling held staging) :
      Turn cache wrap call tree
        { call with phase := .discarding held staging (.error error) } tree
  | failToRename {held : HeldLock} {staging : Path} {problem : Problem}
      (here : call.phase = .moving held staging)
      (failed : tree.rename staging (cache.entryAt call.names) =
        .error problem) :
      Turn cache wrap call tree
        { call with
          phase := .discarding held staging
            (.error (wrap (.files problem))) }
        tree
  | discard {held : HeldLock} {staging : Path} {result : Except ε Unit}
      (here : call.phase = .discarding held staging result) :
      Turn cache wrap call tree
        { call with
          phase := .releasing held
            (some (result.map fun _ => cache.entryAt call.names)) }
        (tree.discard staging)
  | release {held : HeldLock} (here : call.phase = .releasing held none) :
      Turn cache wrap call tree
        { call with phase := .waiting .exclusive } (tree.release held)
  | finish {held : HeldLock} {result : Except ε Path}
      (here : call.phase = .releasing held (some result)) :
      Turn cache wrap call tree
        { call with phase := .ended result } (tree.release held)

/-- An entry as it was published. -/
structure Publication where
  names : String × String
  contents : Contents

/-- The files, the calls, and the entries that have been published. -/
structure Scene (ε : Type) where
  tree : FileTree
  calls : Nat → Option (Call ε) := fun _ => none
  published : List Publication := []

def Scene.put (scene : Scene ε) (caller : Nat) (call : Call ε)
    (tree : FileTree) : Scene ε :=
  { scene with tree, calls := Function.update scene.calls caller call }

def Scene.publish (scene : Scene ε) (entry : Publication) : Scene ε :=
  { scene with published := entry :: scene.published }

/-- One step of one of the calls, or of someone who does not touch the cache. -/
inductive Step (cache : Cache) (wrap : CacheError → ε) (scene : Scene ε) :
    Scene ε → Prop
  | begin {caller : Nat} (space key : String)
      (idle : scene.calls caller = none) :
      Step cache wrap scene
        (scene.put caller (cache.begun wrap space key) scene.tree)
  | turn {caller : Nat} {call next : Call ε} {after : FileTree}
      (called : scene.calls caller = some call)
      (turned : Turn cache wrap call scene.tree next after) :
      Step cache wrap scene (scene.put caller next after)
  | publish {caller : Nat} {call : Call ε} {held : HeldLock}
      {staging : Path} {after : FileTree}
      (called : scene.calls caller = some call)
      (here : call.phase = .moving held staging)
      (renamed : scene.tree.rename staging (cache.entryAt call.names) =
        .ok after) :
      Step cache wrap scene
        ((scene.put caller
          { call with phase := .discarding held staging (.ok ()) }
          after).publish ⟨call.names, call.written⟩)
  | elsewhere {after : FileTree}
      (spared : LeavesAlone cache.Covers scene.tree after) :
      Step cache wrap scene { scene with tree := after }

/-- One scene comes after another. -/
abbrev Reaches (cache : Cache) (wrap : CacheError → ε) :
    Scene ε → Scene ε → Prop :=
  Relation.ReflTransGen (Step cache wrap)

/-! ## A call by itself -/

section Undisturbed

variable {cache : Cache} {wrap : CacheError → ε} {scene : Scene ε}
  {caller : Nat} {call next : Call ε} {before after : FileTree}

theorem entryPath_eq_ok {space key : String} {path : Path}
    (valid : cache.entryPath space key = .ok path) :
    isValidName space = true ∧ isValidName key = true ∧
      path = cache.entryAt (space, key) := by
  unfold entryPath at valid
  cases goodSpace : isValidName space with
  | false => simp [goodSpace] at valid
  | true =>
      cases goodKey : isValidName key with
      | false => simp [goodSpace, goodKey] at valid
      | true =>
          simp only [goodSpace, goodKey, Bool.not_true, Bool.false_eq_true,
            if_false] at valid
          exact ⟨rfl, rfl, (Except.ok.inj valid).symm⟩

@[simp]
theorem Scene.put_calls :
    (scene.put caller call before).calls caller = some call :=
  Function.update_self ..

theorem Scene.put_calls_of_ne {other : Nat} (different : other ≠ caller) :
    (scene.put caller next after).calls other = scene.calls other :=
  Function.update_of_ne different ..

@[simp]
theorem Scene.publish_calls (entry : Publication) :
    (scene.publish entry).calls = scene.calls :=
  rfl

theorem Scene.put_put :
    (scene.put caller call before).put caller next after =
      scene.put caller next after := by
  simp only [Scene.put, Function.update_idem]

/-- A turn is a step, whatever the caller has done before. -/
theorem Turn.reaches (turned : Turn cache wrap call before next after) :
    Reaches cache wrap (scene.put caller call before)
      (scene.put caller next after) := by
  have stepped : Step cache wrap (scene.put caller call before)
      ((scene.put caller call before).put caller next after) :=
    Step.turn Scene.put_calls turned
  rw [Scene.put_put] at stepped
  exact .single stepped

/-- A call comes to its end with a result and leaves some files; no other call
makes a step. -/
def Ends (cache : Cache) (wrap : CacheError → ε) (scene : Scene ε)
    (caller : Nat) (outcome : Except ε Path × FileTree) : Prop :=
  ∃ later, Reaches cache wrap scene later ∧ later.tree = outcome.2 ∧
    (∀ other, other ≠ caller → later.calls other = scene.calls other) ∧
    ∃ call, later.calls caller = some call ∧ call.phase = .ended outcome.1

theorem Ends.of_reaches {later : Scene ε}
    {outcome : Except ε Path × FileTree}
    (reached : Reaches cache wrap scene later)
    (others : ∀ other, other ≠ caller →
      later.calls other = scene.calls other)
    (ends : Ends cache wrap later caller outcome) :
    Ends cache wrap scene caller outcome := by
  obtain ⟨final, onward, tree, stays, ended⟩ := ends
  exact ⟨final, reached.trans onward, tree, fun other different =>
    (stays other different).trans (others other different), ended⟩

theorem Ends.of_turn {outcome : Except ε Path × FileTree}
    (turned : Turn cache wrap call before next after)
    (ends : Ends cache wrap (scene.put caller next after) caller outcome) :
    Ends cache wrap (scene.put caller call before) caller outcome :=
  ends.of_reaches turned.reaches fun _ different =>
    (Scene.put_calls_of_ne different).trans
      (Scene.put_calls_of_ne different).symm

theorem Ends.of_publish {held : HeldLock} {staging : Path}
    {outcome : Except ε Path × FileTree}
    (here : call.phase = .moving held staging)
    (renamed : before.rename staging (cache.entryAt call.names) = .ok after)
    (ends : Ends cache wrap ((scene.publish ⟨call.names, call.written⟩).put
      caller { call with phase := .discarding held staging (.ok ()) } after)
      caller outcome) :
    Ends cache wrap (scene.put caller call before) caller outcome := by
  have stepped : Step cache wrap (scene.put caller call before) _ :=
    Step.publish Scene.put_calls here renamed
  rw [Scene.put_put] at stepped
  refine ends.of_reaches (.single stepped) fun other different => ?_
  rw [Scene.publish_calls, Scene.put_calls_of_ne different,
    Scene.put_calls_of_ne different]

theorem Ends.at_end {result : Except ε Path}
    (here : call.phase = .ended result) :
    Ends cache wrap (scene.put caller call before) caller (result, before) :=
  ⟨_, .refl, rfl, fun _ _ => rfl, call, Scene.put_calls, here⟩

/-! The parts of a call by itself. -/

variable {populate : Path → FileAction ε Unit}

/-- A call that is about to make its directory does what publishing does. -/
theorem ends_publish {held : HeldLock} {result : Except ε Unit}
    (confined : ∀ staging tree,
      WritesInto staging tree (runFrom (populate staging) tree).2)
    (here : call.phase = .staging held)
    (ran : runFrom (publish (cache.directoryOf call.space)
      (cache.entryAt call.names) wrap populate) before = (result, after)) :
    Ends cache wrap (scene.put caller call before) caller
      (result.map fun _ => cache.entryAt call.names, after.release held) := by
  have split : publish (cache.directoryOf call.space)
      (cache.entryAt call.names) wrap populate =
      (Cache.stage (cache.directoryOf call.space) wrap >>= fun staging =>
        FileAction.finallyDo
          (do
            populate staging
            FileAction.change (·.rename staging (cache.entryAt call.names))
              (wrap ∘ .files))
          (·.discard staging)) := by
    rw [publish, Cache.stage, bind_assoc]
  rw [split, runFrom_bind] at ran
  rcases staged : runFrom (Cache.stage (cache.directoryOf call.space) wrap)
    before with ⟨error | staging, middle⟩
  · rw [staged] at ran
    cases ran
    refine .of_turn (.failToStage here staged) ?_
    exact .of_turn (.finish rfl) (.at_end rfl)
  · rw [staged] at ran
    dsimp only at ran
    rw [FileAction.runFrom_finallyDo, runFrom_bind] at ran
    refine .of_turn (.stage here staged) ?_
    have writes := confined staging middle
    rcases filled : runFrom (populate staging) middle with ⟨error | _, written⟩
    · rw [filled] at writes ran
      cases ran
      refine .of_turn (.fill rfl writes) ?_
      refine .of_turn (.failToFill error rfl) ?_
      refine .of_turn (.discard rfl) ?_
      exact .of_turn (.finish rfl) (.at_end rfl)
    · rw [filled] at writes ran
      dsimp only at ran
      rw [FileAction.runFrom_change] at ran
      refine .of_turn (.fill rfl writes) ?_
      refine .of_turn (.fillUp rfl) ?_
      cases renamed : written.rename staging (cache.entryAt call.names) with
      | error problem =>
          rw [renamed] at ran
          cases ran
          refine .of_turn (.failToRename rfl renamed) ?_
          refine .of_turn (.discard rfl) ?_
          exact .of_turn (.finish rfl) (.at_end rfl)
      | ok moved =>
          rw [renamed] at ran
          cases ran
          refine .of_publish rfl renamed ?_
          refine .of_turn (.discard rfl) ?_
          exact .of_turn (.finish rfl) (.at_end rfl)

/-- A call that waits for the exclusive lock does what it does while it holds
that lock. -/
theorem ends_exclusive
    (confined : ∀ staging tree,
      WritesInto staging tree (runFrom (populate staging) tree).2)
    (here : call.phase = .waiting .exclusive) :
    Ends cache wrap (scene.put caller call before) caller
      (runFrom (withLock cache.lockPath .exclusive wrap do
        if ← FileAction.look (·.isDirectory (cache.entryAt call.names)) then
          return cache.entryAt call.names
        publish (cache.directoryOf call.space) (cache.entryAt call.names) wrap
          populate
        return cache.entryAt call.names) before) := by
  rcases tried : runFrom (tryLock cache.lockPath .exclusive) before with
    ⟨error | _ | held, middle⟩
  · rw [runFrom_withLock_of_error _ tried]
    exact .of_turn (.failToLock here tried) (.at_end rfl)
  · rw [runFrom_withLock_of_contend _ tried]
    exact .of_turn (.contend here tried)
      (.of_turn (.giveUp here) (.at_end rfl))
  · rw [runFrom_withLock_of_lock _ tried]
    have mode : held.mode = .exclusive := mode_of_tryLock tried
    refine .of_turn (.lock here tried) ?_
    rw [runFrom_bind, FileAction.runFrom_look]
    dsimp only
    cases there : middle.isDirectory (cache.entryAt call.names) with
    | true =>
        refine .of_turn (.find rfl there) ?_
        exact .of_turn (.finish rfl) (.at_end rfl)
    | false =>
        have staging : ({ call with phase := .staging held } : Call ε).phase =
            .staging held := rfl
        refine .of_turn (.missAgain rfl mode there) ?_
        rw [if_neg Bool.false_ne_true, runFrom_bind]
        rcases filled : runFrom (publish (cache.directoryOf call.space)
          (cache.entryAt call.names) wrap populate) middle with
          ⟨error | _, left⟩
        · exact ends_publish confined staging filled
        · exact ends_publish confined staging filled

/-- What a call does that nobody disturbs, the steps do. -/
theorem ends_accessEntry (space key : String)
    (confined : ∀ staging tree,
      WritesInto staging tree (runFrom (populate staging) tree).2)
    (idle : scene.calls caller = none) :
    Ends cache wrap scene caller
      (runFrom (cache.accessEntry space key wrap populate) scene.tree) := by
  refine .of_reaches (.single (.begin space key idle))
    (fun _ => Scene.put_calls_of_ne) ?_
  unfold accessEntry
  cases valid : cache.entryPath space key with
  | error error =>
      refine .at_end ?_
      simp only [begun, valid]
  | ok target =>
      obtain ⟨_, _, rfl⟩ := entryPath_eq_ok valid
      have here : (cache.begun wrap space key).phase = .waiting .shared := by
        simp only [begun, valid]
      dsimp only
      rw [runFrom_bind]
      rcases tried : runFrom (tryLock cache.lockPath .shared) scene.tree with
        ⟨error | _ | held, middle⟩
      · rw [runFrom_withLock_of_error _ tried]
        exact .of_turn (.failToLock here tried) (.at_end rfl)
      · rw [runFrom_withLock_of_contend _ tried]
        exact .of_turn (.contend here tried)
          (.of_turn (.giveUp here) (.at_end rfl))
      · rw [runFrom_withLock_of_lock _ tried, FileAction.runFrom_look]
        refine .of_turn (.lock here tried) ?_
        dsimp only
        cases there : middle.isDirectory (cache.entryAt (space, key)) with
        | true =>
            refine .of_turn (.find rfl there) ?_
            exact .of_turn (.finish rfl) (.at_end rfl)
        | false =>
            refine .of_turn (.miss rfl (mode_of_tryLock tried) there) ?_
            refine .of_turn (.release rfl) ?_
            exact ends_exclusive confined rfl

end Undisturbed

end Cache

end Deobfuscate
