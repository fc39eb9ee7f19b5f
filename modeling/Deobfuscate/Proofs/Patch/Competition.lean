import Deobfuscate.Patch.WorkingSet
import Mathlib.Data.List.Basic
import Mathlib.Data.List.Perm.Basic

/-!
# Competing specifications

Specifications of the same target compete.  What becomes of a target is settled
by the text that it held before anything was applied: the first specification
that succeeds on that text is carried out as a whole, and if none succeeds the
last one is reported and the target stays as it was.

Targets do not interact.  Hence the order of the specifications matters only
among those that share a target, and a run that may not fail leaves the same
texts behind as one that may.
-/

namespace Deobfuscate.Patch

/-- What a target holds once a specification is carried out. -/
def Outcome.held : Outcome → Option String
  | write text => some text
  | delete => none

theorem ofHunks_target (target : String) (hunks : List HunkReport) :
    (Report.ofHunks target hunks).target = target := by
  unfold Report.ofHunks
  dsimp only
  split
  · rfl
  · split <;> rfl

theorem tryHunks_target (options : Options) (target : String) (spec : Spec)
    (base : String) :
    (tryHunks options target spec base).1.target = target := by
  unfold tryHunks
  dsimp only
  split
  · exact ofHunks_target _ _
  · split <;> exact ofHunks_target _ _

/-- Hunks give an outcome just if they succeed. -/
theorem tryHunks_outcome (options : Options) (target : String) (spec : Spec)
    (base : String) :
    (tryHunks options target spec base).2.isSome =
      (tryHunks options target spec base).1.status.isSuccess := by
  unfold tryHunks
  dsimp only
  split
  · rename_i failed
    simpa using failed
  · rename_i succeeded
    split <;> simpa using succeeded

section Attempt

variable (set : WorkingSet) (options : Options) (target : String)
variable (spec : Spec)

/-- An attempt reports on its target. -/
theorem tryOn_target : (tryOn set options target spec).1.target = target := by
  unfold tryOn
  split
  · rfl
  · rfl
  · exact tryHunks_target options target spec ""
  · exact tryHunks_target options target spec _

/-- An attempt has an outcome just if it succeeds. -/
theorem tryOn_outcome :
    (tryOn set options target spec).2.isSome =
      (tryOn set options target spec).1.status.isSuccess := by
  unfold tryOn
  split
  · rfl
  · rfl
  · exact tryHunks_outcome options target spec ""
  · exact tryHunks_outcome options target spec _

end Attempt

/-- An attempt looks at nothing but its target. -/
theorem tryOn_congr {left right : WorkingSet} {target : String}
    (agree : left.get? target = right.get? target) (options : Options)
    (spec : Spec) :
    tryOn left options target spec = tryOn right options target spec := by
  unfold tryOn
  rw [agree]

theorem tryAll_congr {left right : WorkingSet} {target : String}
    (agree : left.get? target = right.get? target) (options : Options)
    (specs : List Spec) :
    tryAll left options target specs = tryAll right options target specs := by
  induction specs with
  | nil =>
      rfl
  | cons spec rest inductionHypothesis =>
      simp only [tryAll, tryOn_congr agree options spec, inductionHypothesis]

/-- How the competing specifications of a target settle what is reported of it
and what it holds afterwards. -/
inductive Settled (set : WorkingSet) (options : Options) (target : String)
    (competing : List Spec) : Report → Option String → Prop
  /-- The first specification that succeeds is carried out. -/
  | won (before : List Spec) (spec : Spec) (after : List Spec)
      (outcome : Outcome) (order : competing = before ++ spec :: after)
      (earlierFail : ∀ earlier ∈ before,
        (tryOn set options target earlier).1.status = .failure)
      (succeeds : (tryOn set options target spec).1.status ≠ .failure)
      (made : (tryOn set options target spec).2 = some outcome) :
      Settled set options target competing
        (tryOn set options target spec).1 outcome.held
  /-- If none succeeds, the last one is reported and nothing changes. -/
  | lost (before : List Spec) (last : Spec)
      (order : competing = before ++ [last])
      (allFail : ∀ spec ∈ competing,
        (tryOn set options target spec).1.status = .failure) :
      Settled set options target competing
        (tryOn set options target last).1 (set.get? target)

theorem isSuccess_iff {status : Status} :
    status.isSuccess = true ↔ status ≠ .failure := by
  cases status <;> simp [Status.isSuccess]

theorem Settled.target_eq {set : WorkingSet} {options : Options}
    {target : String} {competing : List Spec} {report : Report}
    {held : Option String}
    (settled : Settled set options target competing report held) :
    report.target = target := by
  cases settled with
  | won before spec after outcome order earlierFail succeeds made =>
      exact tryOn_target set options target spec
  | lost before last order allFail =>
      exact tryOn_target set options target last

/-- A specification that fails in front of others leaves the matter to them. -/
theorem Settled.cons {set : WorkingSet} {options : Options} {target : String}
    {spec : Spec} {competing : List Spec} {report : Report}
    {held : Option String}
    (fails : (tryOn set options target spec).1.status = .failure)
    (settled : Settled set options target competing report held) :
    Settled set options target (spec :: competing) report held := by
  cases settled with
  | won before winner after outcome order earlierFail succeeds made =>
      refine .won (spec :: before) winner after outcome (by simp [order]) ?_
        succeeds made
      intro earlier member
      rcases List.mem_cons.1 member with same | later
      · rw [same]
        exact fails
      · exact earlierFail earlier later
  | lost before last order allFail =>
      refine .lost (spec :: before) last (by simp [order]) ?_
      intro earlier member
      rcases List.mem_cons.1 member with same | later
      · rw [same]
        exact fails
      · exact allFail earlier later

/-- What a target holds once an outcome, if there is one, is carried out. -/
theorem get?_commit_self (set : WorkingSet) (target : String)
    (outcome : Option Outcome) :
    (commit set target outcome).get? target =
      (outcome.map Outcome.held).getD (set.get? target) := by
  rcases outcome with _ | ⟨text⟩ | _
  · rfl
  · exact Dict.get?_insert_self set target text
  · simp [commit, Outcome.held, Dict.get?_erase]

/-- Carrying out an outcome changes nothing but its target. -/
theorem get?_commit_of_ne {set : WorkingSet} {target path : String}
    (different : target ≠ path) (outcome : Option Outcome) :
    (commit set target outcome).get? path = set.get? path := by
  rcases outcome with _ | ⟨text⟩ | _
  · rfl
  · simp [commit, Dict.get?_insert, different]
  · simp [commit, Dict.get?_erase, different]

/-- Trying competing specifications in turn settles their target. -/
theorem tryAll_settled (set : WorkingSet) (options : Options)
    (target : String) {competing : List Spec} (nonempty : competing ≠ []) :
    ∃ report outcome,
      tryAll set options target competing = some (report, outcome) ∧
        Settled set options target competing report
          ((commit set target outcome).get? target) := by
  induction competing with
  | nil =>
      exact absurd rfl nonempty
  | cons spec rest inductionHypothesis =>
      have hasOutcome := tryOn_outcome set options target spec
      by_cases fails : (tryOn set options target spec).1.status = .failure
      · have unsuccessful :
            (tryOn set options target spec).1.status.isSuccess = false := by
          rw [fails]
          rfl
        cases rest with
        | nil =>
            have noOutcome : (tryOn set options target spec).2 = none := by
              simpa [unsuccessful] using hasOutcome
            refine ⟨(tryOn set options target spec).1, none, ?_,
              .lost [] spec rfl (by simpa using fails)⟩
            simp [tryAll, ← noOutcome]
        | cons next others =>
            obtain ⟨report, outcome, tried, settled⟩ :=
              inductionHypothesis (by simp)
            refine ⟨report, outcome, ?_, settled.cons fails⟩
            simpa [tryAll, unsuccessful] using tried
      · have successful :
            (tryOn set options target spec).1.status.isSuccess = true :=
          isSuccess_iff.2 fails
        obtain ⟨outcome, made⟩ : ∃ outcome,
            (tryOn set options target spec).2 = some outcome := by
          rw [successful] at hasOutcome
          exact Option.isSome_iff_exists.1 hasOutcome
        refine ⟨(tryOn set options target spec).1, some outcome, ?_, ?_⟩
        · simp [tryAll, successful, ← made]
        · rw [get?_commit_self]
          exact .won [] spec rest outcome rfl (by simp) fails made

/-! ## Applying the specifications of every target -/

/-- The specifications of a target, in order. -/
def competing (options : Options) (specs : List Spec) (target : String) :
    List Spec :=
  specs.filter (·.target options.strip = target)

/-- Targets are settled one by one, each by what it held at first. -/
theorem applyTargets_eq (options : Options) (specs : List Spec)
    {pending : List String} (distinct : pending.Nodup) (set : WorkingSet) :
    (applyTargets options specs set pending).2 =
        pending.filterMap (fun target =>
          (tryAll set options target (competing options specs target)).map
            Prod.fst) ∧
      ∀ path, (applyTargets options specs set pending).1.get? path =
        if path ∈ pending then
          (commit set path ((tryAll set options path
            (competing options specs path)).bind Prod.snd)).get? path
        else set.get? path := by
  induction pending generalizing set with
  | nil =>
      exact ⟨rfl, fun path => rfl⟩
  | cons target rest inductionHypothesis =>
      obtain ⟨fresh, distinctRest⟩ := List.nodup_cons.1 distinct
      cases tried : tryAll set options target
          (competing options specs target) with
      | none =>
          obtain ⟨reports, held⟩ := inductionHypothesis distinctRest set
          have unfolded : applyTargets options specs set (target :: rest) =
              applyTargets options specs set rest := by
            rw [applyTargets]
            unfold competing at tried
            simp only [tried]
          rw [unfolded]
          refine ⟨by simp [tried, reports], fun path => ?_⟩
          rw [held path]
          by_cases same : path = target
          · subst same
            simp [fresh, tried, commit]
          · simp [same]
      | some attempt =>
          obtain ⟨report, outcome⟩ := attempt
          obtain ⟨reports, held⟩ :=
            inductionHypothesis distinctRest (commit set target outcome)
          have unfolded : applyTargets options specs set (target :: rest) =
              ((applyTargets options specs (commit set target outcome)
                  rest).1,
                report :: (applyTargets options specs
                  (commit set target outcome) rest).2) := by
            rw [applyTargets]
            unfold competing at tried
            simp only [tried]
          -- The targets to come hold what they held at first.
          have agree : ∀ path, path ≠ target →
              (commit set target outcome).get? path = set.get? path :=
            fun path different => get?_commit_of_ne (Ne.symm different) outcome
          rw [unfolded]
          refine ⟨?_, fun path => ?_⟩
          · have later : ∀ path ∈ rest,
                (tryAll (commit set target outcome) options path
                    (competing options specs path)).map Prod.fst =
                  (tryAll set options path
                    (competing options specs path)).map Prod.fst := by
              intro path member
              have different : path ≠ target := by
                rintro rfl
                exact fresh member
              rw [tryAll_congr (agree path different)]
            simp only [reports, List.filterMap_cons, tried, Option.map_some,
              List.filterMap_congr later]
          · rw [held path]
            by_cases same : path = target
            · subst same
              simp [fresh, tried]
            · simp only [List.mem_cons, same, false_or, get?_commit_self,
                agree path same, tryAll_congr (agree path same)]

theorem nodup_eraseDups : ∀ items : List String, items.eraseDups.Nodup
  | [] => List.nodup_nil
  | item :: rest => by
      rw [List.eraseDups_cons, List.nodup_cons]
      refine ⟨?_, nodup_eraseDups _⟩
      simp [List.mem_eraseDups]
termination_by items => items.length
decreasing_by
  exact Nat.lt_succ_of_le (List.length_filter_le _ _)

theorem targets_nodup (options : Options) (specs : List Spec) :
    (targets options specs).Nodup :=
  nodup_eraseDups _

theorem mem_targets {options : Options} {specs : List Spec}
    {target : String} :
    target ∈ targets options specs ↔ competing options specs target ≠ [] := by
  simp [targets, competing, List.mem_eraseDups, List.filter_eq_nil_iff]

/-- The reports of a run, whether or not it was rejected. -/
def reportsOf : Except Rejection (List Report) → List Report
  | .ok reports => reports
  | .error rejection => rejection.reports

section Run

variable (set : WorkingSet) (specs : List Spec) (options : Options)

theorem apply_fst : (apply set specs options).1 =
    (applyTargets options specs set (targets options specs)).1 := by
  unfold apply
  dsimp only
  split <;> rfl

theorem reportsOf_apply : reportsOf (apply set specs options).2 =
    (applyTargets options specs set (targets options specs)).2 := by
  unfold apply
  dsimp only
  split <;> rfl

/-- What a path holds after a run. -/
theorem get?_apply (path : String) :
    (apply set specs options).1.get? path =
      if path ∈ targets options specs then
        (commit set path ((tryAll set options path
          (competing options specs path)).bind Prod.snd)).get? path
      else set.get? path := by
  rw [apply_fst]
  exact (applyTargets_eq options specs (targets_nodup options specs) set).2 path

theorem reportsOf_apply_eq : reportsOf (apply set specs options).2 =
    (targets options specs).filterMap fun target =>
      (tryAll set options target (competing options specs target)).map
        Prod.fst := by
  rw [reportsOf_apply]
  exact (applyTargets_eq options specs (targets_nodup options specs) set).1

theorem mem_reportsOf_apply {report : Report}
    (member : report ∈ reportsOf (apply set specs options).2) :
    report.target ∈ targets options specs ∧
      Settled set options report.target
        (competing options specs report.target) report
        ((apply set specs options).1.get? report.target) := by
  rw [reportsOf_apply_eq] at member
  obtain ⟨target, isTarget, found⟩ := List.mem_filterMap.1 member
  obtain ⟨chosen, outcome, tried, settled⟩ :=
    tryAll_settled set options target (mem_targets.1 isTarget)
  have same : chosen = report := by simpa [tried] using found
  subst same
  rw [settled.target_eq, get?_apply, if_pos isTarget, tried]
  exact ⟨isTarget, settled⟩

/-- There is one report for each target, in order. -/
theorem reportsOf_apply_targets :
    (reportsOf (apply set specs options).2).map Report.target =
      targets options specs := by
  have each : ∀ target ∈ targets options specs,
      ((tryAll set options target (competing options specs target)).map
        Prod.fst).map Report.target = some target := by
    intro target isTarget
    obtain ⟨report, outcome, tried, settled⟩ :=
      tryAll_settled set options target (mem_targets.1 isTarget)
    rw [tried]
    simp [settled.target_eq]
  rw [reportsOf_apply_eq, List.map_filterMap, List.filterMap_congr each,
    List.filterMap_some]

end Run

section AllowFailure

variable (options : Options) (allowed : Bool)

theorem run_allowFailure (index : Nat) (progress : Progress)
    (hunks : List Hunk) :
    Progress.run { options with allowFailure := allowed } index progress
        hunks =
      Progress.run options index progress hunks := by
  induction hunks generalizing index progress with
  | nil =>
      rfl
  | cons hunk rest inductionHypothesis =>
      simp only [Progress.run, inductionHypothesis]
      rfl

theorem applyHunks_allowFailure (lines : List String) (hunks : List Hunk) :
    applyHunks { options with allowFailure := allowed } lines hunks =
      applyHunks options lines hunks := by
  unfold applyHunks
  rw [run_allowFailure]

theorem tryHunks_allowFailure (target : String) (spec : Spec)
    (base : String) :
    tryHunks { options with allowFailure := allowed } target spec base =
      tryHunks options target spec base := by
  unfold tryHunks
  dsimp only
  rw [applyHunks_allowFailure]

theorem tryOn_allowFailure (set : WorkingSet) (target : String)
    (spec : Spec) :
    tryOn set { options with allowFailure := allowed } target spec =
      tryOn set options target spec := by
  simp only [tryOn, tryHunks_allowFailure]

theorem tryAll_allowFailure (set : WorkingSet) (target : String)
    (specs : List Spec) :
    tryAll set { options with allowFailure := allowed } target specs =
      tryAll set options target specs := by
  induction specs with
  | nil =>
      rfl
  | cons spec rest inductionHypothesis =>
      simp only [tryAll, tryOn_allowFailure, inductionHypothesis]

/-- Whether a run may fail has no influence on what it does to targets. -/
theorem applyTargets_allowFailure (specs : List Spec) (set : WorkingSet)
    (pending : List String) :
    applyTargets { options with allowFailure := allowed } specs set pending =
      applyTargets options specs set pending := by
  induction pending generalizing set with
  | nil =>
      rfl
  | cons target rest inductionHypothesis =>
      simp only [applyTargets, tryAll_allowFailure, inductionHypothesis]

end AllowFailure

theorem apply_fst_allowFailure (set : WorkingSet) (specs : List Spec)
    (options : Options) (allowed : Bool) :
    (apply set specs { options with allowFailure := allowed }).1 =
      (apply set specs options).1 := by
  rw [apply_fst, apply_fst, applyTargets_allowFailure]
  rfl

/-- Whatever a run may do, it leaves the same texts behind and comes with the
same reports as one that may fail. -/
theorem apply_allowed (set : WorkingSet) (specs : List Spec)
    (options : Options) :
    apply set specs { options with allowFailure := true } =
      ((apply set specs options).1,
        .ok (reportsOf (apply set specs options).2)) := by
  rw [apply_fst, reportsOf_apply]
  simp only [apply, applyTargets_allowFailure]
  rfl

def NamesFirstFailure (rejection : Rejection) : Prop :=
  ∃ before failed after,
    rejection.reports = before ++ failed :: after ∧
      (∀ report ∈ before, report.status ≠ .failure) ∧
      failed.status = .failure ∧
      rejection.target = failed.target ∧
      rejection.failure = failed.failure

/-- The two ways a run ends: it may fail or has no failure to report, or it is
rejected for the first failure. -/
theorem apply_cases (set : WorkingSet) (specs : List Spec)
    (options : Options) :
    ((options.allowFailure = true ∨
        ∀ report ∈ reportsOf (apply set specs options).2,
          report.status ≠ .failure) ∧
      ∃ reports, (apply set specs options).2 = .ok reports) ∨
    (options.allowFailure = false ∧
      (∃ report ∈ reportsOf (apply set specs options).2,
        report.status = .failure) ∧
      ∃ rejection, (apply set specs options).2 = .error rejection ∧
        NamesFirstFailure rejection) := by
  rw [reportsOf_apply]
  unfold apply
  generalize applyTargets options specs set (targets options specs) = applied
  obtain ⟨final, reports⟩ := applied
  dsimp only
  cases mode : options.allowFailure with
  | true =>
      exact Or.inl ⟨Or.inl rfl, reports, rfl⟩
  | false =>
      cases found : reports.find? (·.status = .failure) with
      | none =>
          refine Or.inl ⟨Or.inr ?_, reports, rfl⟩
          simpa using found
      | some failed =>
          obtain ⟨fails, before, after, order, earlier⟩ :=
            List.find?_eq_some_iff_append.1 found
          refine Or.inr ⟨rfl, ⟨failed, by simp [order], by simpa using fails⟩,
            _, rfl, before, failed, after, order, ?_, by simpa using fails,
            rfl, rfl⟩
          intro report member
          simpa using earlier report member

theorem apply_rejected_iff (set : WorkingSet) (specs : List Spec)
    (options : Options) :
    (∃ rejection, (apply set specs options).2 = .error rejection) ↔
      options.allowFailure = false ∧
        ∃ report ∈ reportsOf (apply set specs options).2,
          report.status = .failure := by
  rcases apply_cases set specs options with
    ⟨allowed, reports, accepted⟩ | ⟨mode, failure, rejection, rejected, _⟩
  · constructor
    · rintro ⟨rejection, rejected⟩
      rw [accepted] at rejected
      cases rejected
    · rintro ⟨mode, report, member, fails⟩
      rcases allowed with yes | none
      · rw [mode] at yes
        cases yes
      · exact absurd fails (none report member)
  · exact ⟨fun _ => ⟨mode, failure⟩, fun _ => ⟨rejection, rejected⟩⟩

theorem namesFirstFailure_of_rejected {set : WorkingSet} {specs : List Spec}
    {options : Options} {rejection : Rejection}
    (rejected : (apply set specs options).2 = .error rejection) :
    NamesFirstFailure rejection := by
  rcases apply_cases set specs options with
    ⟨_, reports, accepted⟩ | ⟨_, _, other, same, named⟩
  · rw [accepted] at rejected
    cases rejected
  · rw [rejected] at same
    cases same
    exact named

/-! ## Order of the specifications -/

/-- Two lists hold the same specifications of every target in the same order;
such lists are reorderings of each other. -/
def SameCompetitions (options : Options) (left right : List Spec) : Prop :=
  ∀ target, competing options left target = competing options right target

/-- Only the order among specifications of the same target matters. -/
theorem apply_reordered (set : WorkingSet) {options : Options}
    {left right : List Spec} (same : SameCompetitions options left right) :
    (apply set left options).1 = (apply set right options).1 ∧
      (reportsOf (apply set left options).2).Perm
        (reportsOf (apply set right options).2) := by
  have sameTargets : ∀ target,
      target ∈ targets options left ↔ target ∈ targets options right := by
    intro target
    rw [mem_targets, mem_targets, same target]
  constructor
  · apply Dict.ext_get?
    intro path
    rw [get?_apply, get?_apply, same path]
    simp only [sameTargets path]
  · rw [reportsOf_apply_eq, reportsOf_apply_eq]
    have permuted : (targets options left).Perm (targets options right) :=
      (List.perm_ext_iff_of_nodup (targets_nodup options left)
        (targets_nodup options right)).2 sameTargets
    simp only [same _]
    exact permuted.filterMap _

/-- There is one report for each target, in the order in which targets are first
seen, and each is settled by what it held at first; other paths stay as they
are.  A run that may not fail is rejected just if a target fails; it names the
first one and carries the reports of a run that may fail, and both leave the
same texts behind.  Specifications of different targets can change places. -/
theorem apply_settles (set : WorkingSet) (specs : List Spec)
    (options : Options) :
    (reportsOf (apply set specs options).2).map Report.target =
        (specs.map (·.target options.strip)).eraseDups ∧
      (∀ report ∈ reportsOf (apply set specs options).2,
        Settled set options report.target
          (competing options specs report.target) report
          ((apply set specs options).1.get? report.target)) ∧
      (∀ path, (∀ spec ∈ specs, spec.target options.strip ≠ path) →
        (apply set specs options).1.get? path = set.get? path) ∧
      ((∃ rejection, (apply set specs options).2 = .error rejection) ↔
        options.allowFailure = false ∧
          ∃ report ∈ reportsOf (apply set specs options).2,
            report.status = .failure) ∧
      (∀ rejection, (apply set specs options).2 = .error rejection →
        NamesFirstFailure rejection ∧
          (apply set specs { options with allowFailure := true }).2 =
            .ok rejection.reports) ∧
      (apply set specs { options with allowFailure := true }).1 =
        (apply set specs { options with allowFailure := false }).1 ∧
      (∀ reordered, SameCompetitions options reordered specs →
        (apply set reordered options).1 = (apply set specs options).1 ∧
          (reportsOf (apply set reordered options).2).Perm
            (reportsOf (apply set specs options).2)) := by
  refine ⟨reportsOf_apply_targets set specs options, ?_, ?_,
    apply_rejected_iff set specs options, ?_, ?_, ?_⟩
  · intro report member
    exact (mem_reportsOf_apply set specs options member).2
  · intro path other
    have noTarget : path ∉ targets options specs := by
      simpa [targets, List.mem_eraseDups] using other
    rw [get?_apply, if_neg noTarget]
  · intro rejection rejected
    refine ⟨namesFirstFailure_of_rejected rejected, ?_⟩
    rw [apply_allowed, rejected]
    rfl
  · exact (apply_fst_allowFailure set specs options true).trans
      (apply_fst_allowFailure set specs options false).symm
  · intro reordered same
    exact apply_reordered set same

/-- The first of two competing specifications fails, the second one succeeds,
and the target of the third one is missing. -/
def sampleSpecs : List Spec :=
  [⟨"F", "F", [⟨1, 1, 1, 1, [.remove "x", .add "y"], false, false⟩]⟩,
    ⟨"F", "F", [⟨1, 1, 1, 1, [.remove "a", .add "b"], false, false⟩]⟩,
    ⟨"G", "G", [⟨1, 1, 1, 1, [.remove "a", .add "b"], false, false⟩]⟩]

/-- The second specification is carried out and reported: the first one fails, and
with the order of the targets changed the result is the same. -/
theorem apply_settles_sample :
    let set : WorkingSet := Dict.empty.insert "F" "a\n"
    let reordered := sampleSpecs.rotate 2
    (∃ report ∈ reportsOf (apply set sampleSpecs {}).2,
      report.target = "F" ∧ report.status = .success ∧
        Settled set {} "F" (competing {} sampleSpecs "F") report
          (some "b\n")) ∧
      (tryOn set {} "F" sampleSpecs[0]).1.status = .failure ∧
      (apply set sampleSpecs {}).1.get? "F" = some "b\n" ∧
      SameCompetitions {} reordered sampleSpecs ∧
      (apply set reordered {}).1 = (apply set sampleSpecs {}).1 ∧
      (apply set sampleSpecs {}).1.get? "H" = set.get? "H" := by
  intro set reordered
  have same : SameCompetitions {} reordered sampleSpecs := by
    intro target
    by_cases known : target = "F" ∨ target = "G"
    · rcases known with rfl | rfl <;> decide
    · have unclaimed : ∀ specs : List Spec,
          (∀ spec ∈ specs, spec.target 0 = "F" ∨ spec.target 0 = "G") →
          competing {} specs target = [] := by
        intro specs claimed
        refine List.filter_eq_nil_iff.2 fun spec member => ?_
        have different : spec.target 0 ≠ target := fun same =>
          known (same ▸ claimed spec member)
        simpa using different
      rw [unclaimed reordered (by decide), unclaimed sampleSpecs (by decide)]
  have committed : (apply set sampleSpecs {}).1.get? "F" = some "b\n" := by
    decide +kernel
  have reported : ∃ report ∈ reportsOf (apply set sampleSpecs {}).2,
      report.target = "F" ∧ report.status = .success := by
    decide +kernel
  obtain ⟨_, settled, untouched, _, _, _, independent⟩ :=
    apply_settles set sampleSpecs {}
  obtain ⟨report, member, target, status⟩ := reported
  have settledHere := settled report member
  rw [target, committed] at settledHere
  exact ⟨⟨report, member, target, status, settledHere⟩, by decide +kernel,
    committed, same, (independent reordered same).1,
    untouched "H" (by decide)⟩

end Deobfuscate.Patch
