import Deobfuscate.Dict
import Deobfuscate.FileTree.Path

/-!
# The order of paths

Paths are ordered by their components, and two paths of which neither comes
first have the same components.  Sorting paths lists each of them once, in the
spelling that was given first; which components are listed, and in which order,
does not depend on the order or on repetitions.
-/

namespace Deobfuscate

namespace Component

theorem less_irrefl (component : Component) :
    component.less component = false := by
  cases component with
  | name text => exact decide_eq_false (String.lt_irrefl text)
  | _ => simp [less, rank]

theorem less_trans {left middle right : Component}
    (first : left.less middle = true) (second : middle.less right = true) :
    left.less right = true := by
  cases left with
  | name leftText =>
      cases middle with
      | name middleText =>
          cases right with
          | name rightText =>
              have before : leftText < middleText := of_decide_eq_true first
              have after : middleText < rightText := of_decide_eq_true second
              exact decide_eq_true (String.lt_trans before after)
          | _ => simp [less, rank] at second
      | _ => simp [less, rank] at first
  | _ => cases middle <;> cases right <;> simp_all [less, rank]

theorem less_total {left right : Component} (different : left ≠ right) :
    left.less right = true ∨ right.less left = true := by
  cases left with
  | name leftText =>
      cases right with
      | name rightText =>
          rcases Std.lt_trichotomy leftText rightText with
            before | same | after
          · exact Or.inl (decide_eq_true before)
          · exact absurd (congrArg name same) different
          · exact Or.inr (decide_eq_true after)
      | _ => simp [less, rank]
  | _ => cases right <;> simp_all [less, rank]

end Component

namespace Path

theorem lessComponents_irrefl (components : List Component) :
    lessComponents components components = false := by
  induction components with
  | nil =>
      rfl
  | cons component rest inductionHypothesis =>
      simp [lessComponents, inductionHypothesis]

theorem lessComponents_trans {left middle right : List Component}
    (first : lessComponents left middle = true)
    (second : lessComponents middle right = true) :
    lessComponents left right = true := by
  induction left generalizing middle right with
  | nil =>
      cases right with
      | nil => cases middle <;> simp [lessComponents] at second
      | cons _ _ => rfl
  | cons leftHead leftRest inductionHypothesis =>
      cases middle with
      | nil => simp [lessComponents] at first
      | cons middleHead middleRest =>
          cases right with
          | nil => simp [lessComponents] at second
          | cons rightHead rightRest =>
              rw [lessComponents] at first second ⊢
              by_cases leftSame : leftHead = middleHead
              · subst leftSame
                rw [if_pos rfl] at first
                by_cases rightSame : leftHead = rightHead
                · rw [if_pos rightSame] at second ⊢
                  exact inductionHypothesis first second
                · rw [if_neg rightSame] at second ⊢
                  exact second
              · rw [if_neg leftSame] at first
                by_cases rightSame : middleHead = rightHead
                · subst rightSame
                  rw [if_neg leftSame]
                  exact first
                · rw [if_neg rightSame] at second
                  have less := Component.less_trans first second
                  have different : leftHead ≠ rightHead := by
                    intro same
                    rw [same, Component.less_irrefl] at less
                    cases less
                  rw [if_neg different]
                  exact less

theorem lessComponents_total {left right : List Component}
    (different : left ≠ right) :
    lessComponents left right = true ∨ lessComponents right left = true := by
  induction left generalizing right with
  | nil =>
      cases right with
      | nil => exact absurd rfl different
      | cons _ _ => exact Or.inl rfl
  | cons leftHead leftRest inductionHypothesis =>
      cases right with
      | nil => exact Or.inr rfl
      | cons rightHead rightRest =>
          rw [lessComponents, lessComponents]
          by_cases same : leftHead = rightHead
          · subst same
            rw [if_pos rfl, if_pos rfl]
            apply inductionHypothesis
            intro equal
            exact different (by rw [equal])
          · rw [if_neg same, if_neg (Ne.symm same)]
            exact Component.less_total same

/-- Paths of which neither comes before the other have the same components. -/
theorem components_eq_of_not_less {left right : Path}
    (notBefore : ¬left.less right = true)
    (notAfter : ¬right.less left = true) :
    left.components = right.components := by
  apply Classical.byContradiction
  intro different
  rcases lessComponents_total different with before | after
  · exact notBefore before
  · exact notAfter after

theorem components_ne_of_less {left right : Path}
    (before : left.less right = true) :
    left.components ≠ right.components := by
  intro same
  rw [less, same, lessComponents_irrefl] at before
  cases before

/-- Paths in strictly increasing order. -/
def Increasing (paths : List Path) : Prop :=
  paths.Pairwise fun left right => left.less right = true

theorem mem_insertSorted {path other : Path} {sorted : List Path}
    (increasing : Increasing sorted) :
    other ∈ insertSorted path sorted ↔
      other ∈ sorted ∨
        other = path ∧
          ∀ held ∈ sorted, held.components ≠ path.components := by
  induction sorted with
  | nil =>
      simp [insertSorted]
  | cons head rest inductionHypothesis =>
      obtain ⟨headFirst, restIncreasing⟩ := List.pairwise_cons.1 increasing
      have hypothesis := inductionHypothesis restIncreasing
      rw [insertSorted]
      split
      · rename_i before
        have new : ∀ held ∈ head :: rest,
            held.components ≠ path.components := by
          intro held member
          rcases List.mem_cons.1 member with first | later
          · rw [first]
            exact (components_ne_of_less before).symm
          · exact (components_ne_of_less
              (lessComponents_trans before (headFirst held later))).symm
        simp only [List.mem_cons] at new ⊢
        constructor
        · rintro (same | held)
          · exact Or.inr ⟨same, new⟩
          · exact Or.inl held
        · rintro (held | ⟨same, _⟩)
          · exact Or.inr held
          · exact Or.inl same
      · split
        · rename_i after
          have different := components_ne_of_less after
          rw [List.mem_cons, List.mem_cons, hypothesis, List.forall_mem_cons]
          constructor
          · rintro (same | held | ⟨same, new⟩)
            · exact Or.inl (Or.inl same)
            · exact Or.inl (Or.inr held)
            · exact Or.inr ⟨same, different, new⟩
          · rintro ((same | held) | ⟨same, _, new⟩)
            · exact Or.inl same
            · exact Or.inr (Or.inl held)
            · exact Or.inr (Or.inr ⟨same, new⟩)
        · rename_i notBefore notAfter
          -- The path is listed in another spelling, which stays.
          have equal : head.components = path.components :=
            components_eq_of_not_less notAfter notBefore
          constructor
          · exact Or.inl
          · rintro (held | ⟨_, new⟩)
            · exact held
            · exact absurd equal (new head (by simp))

theorem insertSorted_increasing (path : Path) {sorted : List Path}
    (increasing : Increasing sorted) :
    Increasing (insertSorted path sorted) := by
  induction sorted with
  | nil =>
      exact List.pairwise_singleton _ _
  | cons head rest inductionHypothesis =>
      obtain ⟨headFirst, restIncreasing⟩ := List.pairwise_cons.1 increasing
      rw [insertSorted]
      split
      · rename_i before
        refine List.pairwise_cons.2 ⟨?_, increasing⟩
        intro held member
        rcases List.mem_cons.1 member with first | later
        · rw [first]
          exact before
        · exact lessComponents_trans before (headFirst held later)
      · split
        · rename_i after
          refine List.pairwise_cons.2
            ⟨?_, inductionHypothesis restIncreasing⟩
          intro held member
          rcases (mem_insertSorted restIncreasing).1 member with
            inside | ⟨new, _⟩
          · exact headFirst held inside
          · rw [new]
            exact after
        · exact increasing

/-! ## Enumerations -/

def firstSpelling (paths : List Path) (path : Path) : Option Path :=
  paths.find? fun other => other.components = path.components

/-- A list in path order that has every one of the given paths once, in the
spelling that was given first. -/
structure Enumerates (listed paths : List Path) : Prop where
  increasing : Increasing listed
  mem_iff : ∀ path, path ∈ listed ↔ firstSpelling paths path = some path

theorem firstSpelling_eq_some {paths : List Path} {path other : Path}
    (found : firstSpelling paths path = some other) :
    other ∈ paths ∧ other.components = path.components := by
  unfold firstSpelling at found
  exact ⟨List.mem_of_find?_eq_some found, by simpa using List.find?_some found⟩

theorem firstSpelling_eq_none {paths : List Path} {path : Path} :
    firstSpelling paths path = none ↔
      ∀ other ∈ paths, other.components ≠ path.components := by
  simp [firstSpelling]

namespace Enumerates

variable {listed paths : List Path}

theorem subset (enumerates : Enumerates listed paths) {path : Path}
    (member : path ∈ listed) : path ∈ paths :=
  (firstSpelling_eq_some ((enumerates.mem_iff path).1 member)).1

/-- Every given path is listed in one of its spellings. -/
theorem exists_mem (enumerates : Enumerates listed paths) {path : Path}
    (member : path ∈ paths) :
    ∃ other ∈ listed, other.components = path.components := by
  cases found : firstSpelling paths path with
  | none => exact absurd rfl (firstSpelling_eq_none.1 found path member)
  | some other =>
      have same := (firstSpelling_eq_some found).2
      refine ⟨other, (enumerates.mem_iff other).2 ?_, same⟩
      rw [← found, firstSpelling, firstSpelling, same]

/-- One more path is listed unless it has been. -/
theorem insertSorted (enumerates : Enumerates listed paths) (path : Path) :
    Enumerates (Path.insertSorted path listed) (paths ++ [path]) := by
  refine ⟨insertSorted_increasing path enumerates.increasing, ?_⟩
  intro other
  have unlisted : (∀ held ∈ listed, held.components ≠ path.components) ↔
      firstSpelling paths path = none := by
    rw [firstSpelling_eq_none]
    constructor
    · intro new given member same
      obtain ⟨held, inside, equal⟩ := enumerates.exists_mem member
      exact new held inside (equal.trans same)
    · intro new held inside
      exact new held (enumerates.subset inside)
  rw [mem_insertSorted enumerates.increasing, enumerates.mem_iff, unlisted,
    firstSpelling, firstSpelling, firstSpelling, List.find?_append]
  by_cases same : path.components = other.components
  · rw [← same]
    cases found : paths.find? fun given =>
        given.components = path.components with
    | none => simp [same, eq_comm]
    | some first =>
        simp
  · have different : other ≠ path := by
      intro equal
      exact same (by rw [equal])
    simp [same, different]

theorem foldl_insertSorted (enumerates : Enumerates listed paths)
    (more : List Path) :
    Enumerates
      (more.foldl (fun sorted path => Path.insertSorted path sorted) listed)
      (paths ++ more) := by
  induction more generalizing listed paths with
  | nil =>
      simpa using enumerates
  | cons path rest inductionHypothesis =>
      have next := inductionHypothesis (enumerates.insertSorted path)
      rwa [List.append_assoc] at next

end Enumerates

theorem enumerates_sortDistinct (paths : List Path) :
    Enumerates (sortDistinct paths) paths := by
  have start : Enumerates [] [] :=
    ⟨List.Pairwise.nil, fun path => by simp [firstSpelling]⟩
  exact start.foldl_insertSorted paths

/-- Paths in increasing order enumerate themselves. -/
theorem Increasing.enumerates {paths : List Path}
    (increasing : Increasing paths) : Enumerates paths paths := by
  refine ⟨increasing, fun path => ⟨?_, ?_⟩⟩
  · intro member
    obtain ⟨before, after, split⟩ := List.append_of_mem member
    refine List.find?_eq_some_iff_append.2
      ⟨by simp, before, after, split, ?_⟩
    intro other earlier
    rw [split] at increasing
    have less := (List.pairwise_append.1 increasing).2.2 other earlier path
      (by simp)
    simpa using components_ne_of_less less
  · intro found
    exact (firstSpelling_eq_some found).1

/-- Lists in strictly increasing order with the same members are equal. -/
private theorem eq_of_increasing {α : Type} (key : α → List Component)
    {left right : List α}
    (leftIncreasing : left.Pairwise fun first second =>
      lessComponents (key first) (key second) = true)
    (rightIncreasing : right.Pairwise fun first second =>
      lessComponents (key first) (key second) = true)
    (same : ∀ item, item ∈ left ↔ item ∈ right) : left = right := by
  have apart : ∀ {first second : α},
      lessComponents (key first) (key second) = true → first ≠ second := by
    intro first second before equal
    rw [equal, lessComponents_irrefl] at before
    cases before
  have permuted : left.Perm right :=
    (List.perm_ext_iff_of_nodup (leftIncreasing.imp apart)
      (rightIncreasing.imp apart)).2 same
  refine permuted.eq_of_pairwise ?_ leftIncreasing rightIncreasing
  intro first second _ _ before after
  exact absurd rfl (apart (lessComponents_trans before after))

/-- Lists in path order with the same components have them in the same
order. -/
theorem Increasing.map_components_eq {left right : List Path}
    (leftIncreasing : Increasing left) (rightIncreasing : Increasing right)
    (same : ∀ listed,
      listed ∈ left.map components ↔ listed ∈ right.map components) :
    left.map components = right.map components := by
  have leftSorted : (left.map components).Pairwise fun first second =>
      lessComponents first second = true := List.pairwise_map.2 leftIncreasing
  have rightSorted : (right.map components).Pairwise fun first second =>
      lessComponents first second = true := List.pairwise_map.2 rightIncreasing
  exact eq_of_increasing id leftSorted rightSorted same

/-- Neither the order in which paths are given nor repetitions change which
components are listed where. -/
theorem Enumerates.map_components_eq {left right leftPaths rightPaths : List Path}
    (leftEnumerates : Enumerates left leftPaths)
    (rightEnumerates : Enumerates right rightPaths)
    (same : ∀ path, path ∈ leftPaths ↔ path ∈ rightPaths) :
    left.map components = right.map components := by
  have included : ∀ {first second firstPaths secondPaths : List Path},
      Enumerates first firstPaths → Enumerates second secondPaths →
      (∀ path, path ∈ firstPaths → path ∈ secondPaths) →
      ∀ listed, listed ∈ first.map components →
        listed ∈ second.map components := by
    intro first second firstPaths secondPaths firstEnumerates
      secondEnumerates inside listed member
    obtain ⟨path, held, rfl⟩ := List.mem_map.1 member
    obtain ⟨other, otherHeld, equal⟩ := secondEnumerates.exists_mem
      (inside path (firstEnumerates.subset held))
    exact List.mem_map.2 ⟨other, otherHeld, equal⟩
  refine leftEnumerates.increasing.map_components_eq
    rightEnumerates.increasing fun listed => ⟨?_, ?_⟩
  · exact included leftEnumerates rightEnumerates
      (fun path => (same path).1) listed
  · exact included rightEnumerates leftEnumerates
      (fun path => (same path).2) listed

/-- There is one enumeration of given paths. -/
theorem Enumerates.unique {left right paths : List Path}
    (leftEnumerates : Enumerates left paths)
    (rightEnumerates : Enumerates right paths) : left = right := by
  refine eq_of_increasing components leftEnumerates.increasing
    rightEnumerates.increasing ?_
  intro path
  rw [leftEnumerates.mem_iff, rightEnumerates.mem_iff]

end Path

end Deobfuscate
