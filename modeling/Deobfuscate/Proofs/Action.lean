import Deobfuscate.Stage.Basic

/-!
# Running actions

An action on a state gives a result or an error, and the state after it.  This
module takes runs of composed actions apart: what a sequence of two actions has
done when it succeeds, and what it has done when it fails.
-/

namespace Deobfuscate

section Running

variable {σ ε α β : Type}

def runFrom (action : ExceptT ε (StateM σ) α) (state : σ) : Except ε α × σ :=
  action.run state

theorem runFrom_bind (action : ExceptT ε (StateM σ) α)
    (next : α → ExceptT ε (StateM σ) β) (state : σ) :
    runFrom (action >>= next) state =
      match runFrom action state with
      | (.ok value, later) => runFrom (next value) later
      | (.error error, later) => (.error error, later) := by
  show (match action.run state with
    | (result, later) => ExceptT.bindCont next result later) = _
  unfold runFrom
  rcases action.run state with ⟨_ | _, later⟩ <;> rfl

/-- A sequence succeeds when both of its actions do. -/
theorem runFrom_bind_eq_ok {action : ExceptT ε (StateM σ) α}
    {next : α → ExceptT ε (StateM σ) β} {state after : σ} {result : β} :
    runFrom (action >>= next) state = (.ok result, after) ↔
      ∃ value later, runFrom action state = (.ok value, later) ∧
        runFrom (next value) later = (.ok result, after) := by
  rw [runFrom_bind]
  rcases runFrom action state with ⟨error | value, later⟩
  · simp
  · constructor
    · intro ran
      exact ⟨value, later, rfl, ran⟩
    · rintro ⟨_, _, same, ran⟩
      cases same
      exact ran

/-- A sequence fails when its first action does, or its second one after the
first one has succeeded. -/
theorem runFrom_bind_eq_error {action : ExceptT ε (StateM σ) α}
    {next : α → ExceptT ε (StateM σ) β} {state after : σ} {error : ε} :
    runFrom (action >>= next) state = (.error error, after) ↔
      runFrom action state = (.error error, after) ∨
        ∃ value later, runFrom action state = (.ok value, later) ∧
          runFrom (next value) later = (.error error, after) := by
  rw [runFrom_bind]
  rcases runFrom action state with ⟨_ | value, later⟩
  · simp
  · constructor
    · intro ran
      exact Or.inr ⟨value, later, rfl, ran⟩
    · rintro (impossible | ⟨_, _, same, ran⟩)
      · cases impossible
      · cases same
        exact ran

@[simp]
theorem runFrom_pure (value : α) (state : σ) :
    runFrom (pure value : ExceptT ε (StateM σ) α) state =
      (.ok value, state) :=
  rfl

@[simp]
theorem runFrom_throw (error : ε) (state : σ) :
    runFrom (throw error : ExceptT ε (StateM σ) α) state =
      (.error error, state) :=
  rfl

@[simp]
theorem runFrom_get (state : σ) :
    runFrom (get : ExceptT ε (StateM σ) σ) state = (.ok state, state) :=
  rfl

@[simp]
theorem runFrom_modify (state : σ) (change : σ → σ) :
    runFrom (modify change : ExceptT ε (StateM σ) PUnit) state =
      (.ok ⟨⟩, change state) :=
  rfl

def succeeded? (outcome : Except ε α × σ) : Option σ :=
  match outcome.1 with
  | .ok _ => some outcome.2
  | .error _ => none

theorem succeeded?_ok (value : α) (state : σ) :
    succeeded? ((.ok value, state) : Except ε α × σ) = some state :=
  rfl

theorem succeeded?_bind (action : ExceptT ε (StateM σ) α)
    (next : α → ExceptT ε (StateM σ) β) (state : σ) :
    succeeded? (runFrom (action >>= next) state) =
      match runFrom action state with
      | (.ok value, later) => succeeded? (runFrom (next value) later)
      | (.error _, _) => none := by
  rw [runFrom_bind]
  rcases runFrom action state with ⟨_ | _, _⟩ <;> rfl

def completed? (outcome : Except ε α × σ) : Option (α × σ) :=
  outcome.1.toOption.map (·, outcome.2)

theorem succeeded?_eq_map (outcome : Except ε α × σ) :
    succeeded? outcome = (completed? outcome).map Prod.snd := by
  rcases outcome with ⟨_ | _, _⟩ <;> rfl

theorem completed?_bind (action : ExceptT ε (StateM σ) α)
    (next : α → ExceptT ε (StateM σ) β) (state : σ) :
    completed? (runFrom (action >>= next) state) =
      (completed? (runFrom action state)).bind fun (value, later) =>
        completed? (runFrom (next value) later) := by
  rw [runFrom_bind]
  rcases runFrom action state with ⟨_ | _, _⟩ <;> rfl

end Running

namespace FileAction

variable {ε α : Type}

theorem runFrom_look (view : FileTree → α) (tree : FileTree) :
    runFrom (look view : FileAction ε α) tree = (.ok (view tree), tree) :=
  rfl

theorem runFrom_change (step : FileTree → Except Problem FileTree)
    (wrap : Problem → ε) (tree : FileTree) :
    runFrom (change step wrap) tree =
      match step tree with
      | .ok after => (.ok (), after)
      | .error problem => (.error (wrap problem), tree) := by
  unfold change
  simp only [runFrom_bind, runFrom_get]
  rcases step tree with problem | after <;> rfl

theorem runFrom_advance (steps : FileTree → FileTree.Outcome)
    (wrap : Problem → ε) (tree : FileTree) :
    runFrom (advance steps wrap) tree =
      match steps tree with
      | (none, after) => (.ok (), after)
      | (some problem, after) => (.error (wrap problem), after) := by
  unfold advance
  simp only [runFrom_bind, runFrom_get]
  rcases steps tree with ⟨_ | problem, after⟩ <;> rfl

theorem runFrom_finallyDo (action : FileAction ε α)
    (after : FileTree → FileTree) (tree : FileTree) :
    runFrom (finallyDo action after) tree =
      ((runFrom action tree).1, after (runFrom action tree).2) :=
  rfl

/-- What is done afterwards does not change a success. -/
theorem finallyDo_eq_ok {action : FileAction ε α}
    {undo : FileTree → FileTree} {before after : FileTree} {value : α}
    (ran : runFrom (finallyDo action undo) before = (.ok value, after)) :
    ∃ later, runFrom action before = (.ok value, later) ∧
      after = undo later := by
  rw [runFrom_finallyDo] at ran
  injection ran with acted undone
  exact ⟨_, Prod.ext acted rfl, undone.symm⟩

theorem runFrom_onError (action : FileAction ε α)
    (after : FileTree → FileTree) (tree : FileTree) :
    runFrom (onError action after) tree =
      match runFrom action tree with
      | (.ok value, later) => (.ok value, later)
      | (.error error, later) => (.error error, after later) :=
  rfl

theorem runFrom_mapError {δ : Type} (wrap : ε → δ) (action : FileAction ε α)
    (tree : FileTree) :
    runFrom (mapError wrap action) tree =
      ((runFrom action tree).1.mapError wrap, (runFrom action tree).2) :=
  rfl

theorem runFrom_consult (view : FileTree → Except ε α) (tree : FileTree) :
    runFrom (consult view) tree = (view tree, tree) := by
  unfold consult
  rw [runFrom_bind, runFrom_get]
  dsimp only
  cases view tree <;> rfl

end FileAction

namespace StageAction

variable {ε α : Type}

theorem runFrom_files (action : FileAction ε α) (wrap : ε → StageError)
    (workspace : Workspace) :
    runFrom (files action wrap) workspace =
      ((runFrom action workspace.tree).1.mapError wrap,
        { workspace with tree := (runFrom action workspace.tree).2 }) := by
  unfold files FileAction.perform
  simp only [runFrom_bind, runFrom_get]
  unfold runFrom
  rcases action.run workspace.tree with ⟨error | value, tree⟩ <;> rfl

theorem runFrom_consult (view : FileTree → Except ε α)
    (wrap : ε → StageError) (workspace : Workspace) :
    runFrom (consult view wrap) workspace =
      ((view workspace.tree).mapError wrap, workspace) := by
  unfold consult
  rw [runFrom_bind, runFrom_get]
  dsimp only
  cases view workspace.tree <;> rfl

theorem runFrom_change (path : Path)
    (step : FileTree → Except Problem FileTree) (workspace : Workspace) :
    runFrom (change path step) workspace =
      match step workspace.tree with
      | .ok tree => (.ok (), { workspace with tree })
      | .error problem => (.error (.files path problem), workspace) := by
  unfold change
  rw [runFrom_files, FileAction.runFrom_change]
  rcases step workspace.tree with problem | tree <;> rfl

theorem runFrom_advance (path : Path)
    (steps : FileTree → FileTree.Outcome) (workspace : Workspace) :
    runFrom (advance path steps) workspace =
      match steps workspace.tree with
      | (none, tree) => (.ok (), { workspace with tree })
      | (some problem, tree) =>
          (.error (.files path problem), { workspace with tree }) := by
  unfold advance
  rw [runFrom_files, FileAction.runFrom_advance]
  rcases steps workspace.tree with ⟨_ | problem, tree⟩ <;> rfl

theorem runFrom_finallyDo (action : StageAction α)
    (after : FileTree → FileTree) (workspace : Workspace) :
    runFrom (finallyDo action after) workspace =
      ((runFrom action workspace).1,
        { (runFrom action workspace).2 with
          tree := after (runFrom action workspace).2.tree }) :=
  rfl

end StageAction

end Deobfuscate
