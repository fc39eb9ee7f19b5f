import Deobfuscate.Proofs.Cache.Interleaving

/-!
# Calls exclude one another

Every call that holds a lock holds one of the lock file, which stays the same
file for ever.  The locks that calls hold at the same time go together.  So a
call that holds the exclusive lock is the only one that holds any.
-/

namespace Deobfuscate.Cache

open FileTree

variable {ε : Type} {cache : Cache} {scene : Scene ε} {caller : Nat}
  {call next : Call ε} {after : FileTree}

def Phase.held? : Phase ε → Option HeldLock
  | .waiting _ => none
  | .checking held => some held
  | .staging held => some held
  | .filling held _ => some held
  | .moving held _ => some held
  | .discarding held _ _ => some held
  | .releasing held _ => some held
  | .ended _ => none

def Scene.Holds (scene : Scene ε) (caller : Nat) (held : HeldLock) : Prop :=
  ∃ call, scene.calls caller = some call ∧ call.phase.held? = some held

/-- The locks that are held are locks of the lock file, and go together. -/
structure Guarded (cache : Cache) (scene : Scene ε) : Prop where
  held : ∀ caller held, scene.Holds caller held →
    held ∈ scene.tree.locks ∧ held.holder < scene.tree.clock ∧
      cache.LockFile scene.tree held.file
  apart : ∀ one other left right, one ≠ other → scene.Holds one left →
    scene.Holds other right →
      left.holder ≠ right.holder ∧ left.mode.conflicts right.mode = false

theorem Scene.holds_put {other : Nat} {held : HeldLock} :
    (scene.put caller next after).Holds other held ↔
      other = caller ∧ next.phase.held? = some held ∨
        other ≠ caller ∧ scene.Holds other held := by
  by_cases same : other = caller
  · subst same
    simp [Holds]
  · simp [Holds, Scene.put_calls_of_ne same, same]

namespace Guarded

/-- A call that holds an exclusive lock is the only one that holds any. -/
theorem alone (guarded : Guarded cache scene) {held : HeldLock}
    (holds : scene.Holds caller held) (mode : held.mode = .exclusive)
    {other : Nat} (different : other ≠ caller) {call : Call ε}
    (called : scene.calls other = some call) :
    call.phase.held? = none := by
  cases taken : call.phase.held? with
  | none => rfl
  | some lock =>
      obtain ⟨_, compatible⟩ := guarded.apart _ _ _ _ (Ne.symm different)
        holds ⟨call, called, taken⟩
      rw [mode] at compatible
      cases compatible

/-- Nobody takes a lock, and the locks that are still held are still there. -/
theorem of_fewer (guarded : Guarded cache scene) {later : Scene ε}
    (fewer : ∀ other lock, later.Holds other lock → scene.Holds other lock)
    (locks : ∀ other lock, later.Holds other lock →
      lock ∈ scene.tree.locks → lock ∈ later.tree.locks)
    (clock : scene.tree.clock ≤ later.tree.clock)
    (lockFile : ∀ identity, cache.LockFile scene.tree identity →
      cache.LockFile later.tree identity) :
    Guarded cache later := by
  constructor
  · intro other lock holds
    obtain ⟨there, older, file⟩ :=
      guarded.held other lock (fewer other lock holds)
    exact ⟨locks other lock holds there, older.trans_le clock,
      lockFile _ file⟩
  · intro one other left right different leftHolds rightHolds
    exact guarded.apart one other left right different
      (fewer _ _ leftHolds) (fewer _ _ rightHolds)

theorem put (guarded : Guarded cache scene)
    (called : scene.calls caller = some call)
    (kept : next.phase.held? = call.phase.held? ∨ next.phase.held? = none)
    (locks : ∀ lock ∈ scene.tree.locks, lock ∈ after.locks)
    (clock : scene.tree.clock ≤ after.clock)
    (lockFile : ∀ identity, cache.LockFile scene.tree identity →
      cache.LockFile after identity) :
    Guarded cache (scene.put caller next after) := by
  refine guarded.of_fewer (fun other lock holds => ?_)
    (fun _ lock _ there => locks lock there) clock lockFile
  obtain ⟨rfl, taken⟩ | ⟨_, holds⟩ := Scene.holds_put.1 holds
  · obtain same | none := kept
    · exact ⟨call, called, same ▸ taken⟩
    · rw [none] at taken
      cases taken
  · exact holds

/-- A caller takes a lock that no other lock is in the way of. -/
theorem put_lock (guarded : Guarded cache scene) {opened : FileTree}
    {held : HeldLock} (taken : next.phase.held? = some held)
    (locks : opened.locks = scene.tree.locks)
    (clock : scene.tree.clock ≤ opened.clock)
    (lockFile : ∀ identity, cache.LockFile scene.tree identity →
      cache.LockFile opened identity)
    (mine : cache.LockFile opened held.file)
    (fresh : held.holder = opened.clock)
    (free : opened.isLockable held.file held.mode = true) :
    Guarded cache (scene.put caller next (opened.withHeld held)) := by
  have together : ∀ other lock, scene.Holds other lock →
      lock.holder ≠ held.holder ∧
        lock.mode.conflicts held.mode = false := by
    intro other lock holds
    obtain ⟨there, older, file⟩ := guarded.held other lock holds
    refine ⟨by omega, ?_⟩
    rw [isLockable, List.all_eq_true] at free
    have allowed := free lock (locks ▸ there)
    have same : lock.file = held.file := (lockFile _ file).unique mine
    simpa [same] using allowed
  constructor
  · intro other lock holds
    obtain ⟨rfl, still⟩ | ⟨_, holds⟩ := Scene.holds_put.1 holds
    · rw [taken] at still
      cases still
      refine ⟨List.mem_cons_self, ?_, mine⟩
      rw [fresh]
      exact Nat.lt_succ_self _
    · obtain ⟨there, older, file⟩ := guarded.held other lock holds
      refine ⟨List.mem_cons_of_mem _ (locks ▸ there), ?_, lockFile _ file⟩
      exact Nat.lt_succ_of_lt (older.trans_le clock)
  · intro one other left right different leftHolds rightHolds
    obtain ⟨rfl, leftTaken⟩ | ⟨_, leftHeld⟩ := Scene.holds_put.1 leftHolds
    · obtain ⟨rfl, _⟩ | ⟨_, rightHeld⟩ := Scene.holds_put.1 rightHolds
      · exact absurd rfl different
      · rw [taken] at leftTaken
        cases leftTaken
        obtain ⟨apart, compatible⟩ := together _ _ rightHeld
        refine ⟨apart.symm, ?_⟩
        rw [← compatible]
        cases held.mode <;> cases right.mode <;> rfl
    · obtain ⟨rfl, rightTaken⟩ | ⟨_, rightHeld⟩ :=
        Scene.holds_put.1 rightHolds
      · rw [taken] at rightTaken
        cases rightTaken
        exact together _ _ leftHeld
      · exact guarded.apart one other left right different leftHeld
          rightHeld

/-- A caller releases its lock, and no other one. -/
theorem put_release (guarded : Guarded cache scene) {held : HeldLock}
    (called : scene.calls caller = some call)
    (holding : call.phase.held? = some held)
    (released : next.phase.held? = none) :
    Guarded cache (scene.put caller next (scene.tree.release held)) := by
  have others : ∀ other lock,
      (scene.put caller next (scene.tree.release held)).Holds other lock →
        other ≠ caller ∧ scene.Holds other lock := by
    intro other lock holds
    obtain ⟨_, taken⟩ | others := Scene.holds_put.1 holds
    · rw [released] at taken
      cases taken
    · exact others
  refine guarded.of_fewer (fun other lock holds => (others _ _ holds).2)
    (fun other lock holds there => ?_) le_rfl fun _ file => file
  obtain ⟨different, stillHolds⟩ := others _ _ holds
  have apart := (guarded.apart _ _ _ _ different stillHolds
    ⟨call, called, holding⟩).1
  refine List.mem_filter.2 ⟨there, bne_iff_ne.2 ?_⟩
  rintro rfl
  exact apart rfl

theorem put_begun (guarded : Guarded cache scene)
    (fresh : next.phase.held? = none) :
    Guarded cache (scene.put caller next scene.tree) := by
  refine guarded.of_fewer (fun other lock holds => ?_)
    (fun _ _ _ there => there) le_rfl fun _ file => file
  obtain ⟨_, taken⟩ | ⟨_, holds⟩ := Scene.holds_put.1 holds
  · rw [fresh] at taken
    cases taken
  · exact holds

end Guarded

end Deobfuscate.Cache
