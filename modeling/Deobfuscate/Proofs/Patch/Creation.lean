import Deobfuscate.Proofs.Patch.Competition

/-!
# What patches create

A path that holds nothing before specifications are applied holds something
afterwards just if the specification that is carried out there makes a new file
and does not remove it at once.
-/

namespace Deobfuscate.Patch

/-- The specification that is carried out on a target: the first that
succeeds. -/
def winner (set : WorkingSet) (options : Options) (specs : List Spec)
    (target : String) : Option Spec :=
  (competing options specs target).find? fun spec =>
    (tryOn set options target spec).1.status.isSuccess

/-- Specifications put a new file at a path. -/
def Creates (set : WorkingSet) (options : Options) (specs : List Spec)
    (path : String) : Prop :=
  ∃ spec, winner set options specs path = some spec ∧
    spec.isCreation = true ∧ spec.isDeletion = false

instance (set : WorkingSet) (options : Options) (specs : List Spec)
    (path : String) : Decidable (Creates set options specs path) :=
  decidable_of_iff
    (∃ spec ∈ winner set options specs path,
      spec.isCreation = true ∧ spec.isDeletion = false)
    Iff.rfl

section Application

variable {set : WorkingSet} {options : Options} {specs : List Spec}
variable {path : String}

/-- The outcome of the specification that is carried out decides what a path
holds. -/
theorem get?_apply_eq_winner :
    (apply set specs options).1.get? path =
      match winner set options specs path with
      | none => set.get? path
      | some spec => (tryOn set options path spec).2.bind Outcome.held := by
  rw [get?_apply]
  by_cases isTarget : path ∈ targets options specs
  · obtain ⟨report, outcome, tried, settled⟩ :=
      tryAll_settled set options path (mem_targets.1 isTarget)
    rw [if_pos isTarget, tried, Option.bind_some]
    generalize (commit set path outcome).get? path = held at settled ⊢
    unfold winner
    cases settled with
    | won before spec after outcome order earlierFail succeeds made =>
        have found : (competing options specs path).find? (fun spec =>
            (tryOn set options path spec).1.status.isSuccess) = some spec := by
          rw [List.find?_eq_some_iff_append]
          refine ⟨isSuccess_iff.2 succeeds, before, after, order, ?_⟩
          intro earlier member
          rw [earlierFail earlier member]
          rfl
        rw [found]
        dsimp only
        rw [made, Option.bind_some]
    | lost before last order allFail =>
        have none : (competing options specs path).find? (fun spec =>
            (tryOn set options path spec).1.status.isSuccess) = none := by
          rw [List.find?_eq_none]
          intro spec member
          rw [allFail spec member]
          exact Bool.false_ne_true
        rw [none]
  · have nothing : competing options specs path = [] :=
      not_not.1 (mt mem_targets.2 isTarget)
    rw [if_neg isTarget, winner, nothing]
    rfl

/-- Hunks that succeed leave a file unless the specification removes it. -/
theorem tryHunks_held (base : String) {spec : Spec}
    (succeeds : (tryHunks options path spec base).1.status.isSuccess = true) :
    ((tryHunks options path spec base).2.bind Outcome.held = none ↔
      spec.isDeletion = true) := by
  unfold tryHunks at succeeds ⊢
  dsimp only at succeeds ⊢
  split
  · rename_i failed
    rw [if_pos failed] at succeeds
    simp [succeeds] at failed
  · split
    · rename_i removes
      exact ⟨fun _ => removes, fun _ => rfl⟩
    · rename_i keeps
      exact ⟨fun nothing => absurd nothing (Option.some_ne_none _),
        fun removes => absurd removes keeps⟩

/-- Where nothing was before, something is afterwards just if it is created. -/
theorem get?_apply_eq_none_iff (absent : set.get? path = none) :
    (apply set specs options).1.get? path = none ↔
      ¬ Creates set options specs path := by
  rw [get?_apply_eq_winner]
  unfold Creates
  cases wins : winner set options specs path with
  | none =>
      exact ⟨fun _ ⟨_, impossible, _⟩ => absurd impossible nofun,
        fun _ => absent⟩
  | some spec =>
      have succeeds : (tryOn set options path spec).1.status.isSuccess = true := by
        unfold winner at wins
        exact (List.find?_eq_some_iff_append.1 wins).1
      dsimp only
      cases creation : spec.isCreation with
      | false =>
          -- Without a file, no other specification succeeds.
          unfold tryOn at succeeds
          rw [absent, creation] at succeeds
          cases succeeds
      | true =>
          have tried : tryOn set options path spec =
              tryHunks options path spec "" := by
            unfold tryOn
            rw [absent, creation]
          rw [tried] at succeeds ⊢
          rw [tryHunks_held "" succeeds]
          constructor
          · rintro removes ⟨other, same, _, keeps⟩
            cases same
            rw [removes] at keeps
            cases keeps
          · intro none
            cases removes : spec.isDeletion with
            | true => rfl
            | false => exact absurd ⟨spec, rfl, creation, removes⟩ none

end Application

def applyAll (options : Options) :
    WorkingSet → List (List Spec) → WorkingSet
  | set, [] => set
  | set, specs :: rest => applyAll options (apply set specs options).1 rest

/-- No list of specifications puts a new file at a reserved path, each on the
texts that the lists before it leave. -/
def CreatesNone (options : Options) (reserved : List String) :
    WorkingSet → List (List Spec) → Prop
  | _, [] => True
  | set, specs :: rest =>
      (∀ path ∈ reserved, ¬ Creates set options specs path) ∧
        CreatesNone options reserved (apply set specs options).1 rest

instance decidableCreatesNone (options : Options) (reserved : List String) :
    ∀ (set : WorkingSet) (lists : List (List Spec)),
      Decidable (CreatesNone options reserved set lists)
  | _, [] => isTrue trivial
  | set, specs :: rest =>
      have := decidableCreatesNone options reserved
        (apply set specs options).1 rest
      inferInstanceAs (Decidable
        ((∀ path ∈ reserved, ¬ Creates set options specs path) ∧ _))

/-- Reserved paths stay free if they are spared. -/
theorem get?_applyAll_eq_none {options : Options} {reserved : List String}
    {set : WorkingSet} {lists : List (List Spec)}
    (spares : CreatesNone options reserved set lists)
    (free : ∀ path ∈ reserved, set.get? path = none) :
    ∀ path ∈ reserved, (applyAll options set lists).get? path = none := by
  induction lists generalizing set with
  | nil => exact free
  | cons specs rest inductionHypothesis =>
      exact inductionHypothesis spares.2 fun path member =>
        (get?_apply_eq_none_iff (free path member)).2 (spares.1 path member)

end Deobfuscate.Patch
