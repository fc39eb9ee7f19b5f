import Deobfuscate.Proofs.Patch.BestWindow

/-!
# Searching outward

The search for a window can be carried out by loops: over the fuzz, at each fuzz
over the distance from the expected position as far as the farther end, and at
each distance over the later and the earlier position.  A window is compared line
by line and given up at the first line to be removed that differs and when more
context lines differ than the fuzz allows.

The loops never ask for a line that is not there, and they find what sorting the
positions finds: the best window.
-/

namespace Deobfuscate.Patch

section Scanning

variable {canonical : Bool} {fuzz : Nat}

/-- The number of differing context lines, counted on from a number of them;
`none` if a line to be removed differs or the fuzz does not allow so many. -/
def countUpTo (canonical : Bool) (fuzz : Nat) :
    Nat → List String → List HunkLine → Option Nat
  | count, actual :: window, line :: old =>
      if agrees canonical (actual, line) then
        countUpTo canonical fuzz count window old
      else if line.isContext then
        if fuzz < count + 1 then none
        else countUpTo canonical fuzz (count + 1) window old
      else none
  | count, _, _ => some count

def scan (canonical : Bool) (window : List String) (old : List HunkLine)
    (fuzz : Nat) : Bool :=
  match countUpTo canonical fuzz 0 window old with
  | some count => count < old.length
  | none => false

/-- To count on is to add what is counted, as far as the fuzz allows it. -/
theorem countUpTo_eq_some_iff {window : List String} {old : List HunkLine}
    {count total : Nat} (allowed : count ≤ fuzz) :
    countUpTo canonical fuzz count window old = some total ↔
      ∃ more, mismatches canonical window old = some more ∧
        count + more = total ∧ total ≤ fuzz := by
  have nothing : ∀ start ≤ fuzz, some start = some total ↔
      ∃ more, some 0 = some more ∧ start + more = total ∧ total ≤ fuzz := by
    intro start below
    simp only [Option.some.injEq, exists_eq_left', Nat.add_zero]
    exact ⟨fun same => ⟨same, same ▸ below⟩, And.left⟩
  induction window generalizing old count with
  | nil => simpa only [countUpTo, mismatches] using nothing count allowed
  | cons actual window inductionHypothesis =>
      cases old with
      | nil => simpa only [countUpTo, mismatches] using nothing count allowed
      | cons line old =>
          rw [countUpTo, mismatches_cons]
          split
          · exact inductionHypothesis allowed
          · split
            · split
              · rename_i exceeded
                refine iff_of_false (by simp) ?_
                rintro ⟨more, counted, rfl, within⟩
                obtain ⟨fewer, _, rfl⟩ := Option.map_eq_some_iff.1 counted
                omega
              · rename_i room
                refine (inductionHypothesis (Nat.not_lt.1 room)).trans ?_
                simp only [Option.map_eq_some_iff]
                constructor
                · rintro ⟨fewer, counted, same, within⟩
                  exact ⟨fewer + 1, ⟨fewer, counted, rfl⟩, by omega, within⟩
                · rintro ⟨_, ⟨fewer, counted, rfl⟩, same, within⟩
                  exact ⟨fewer, counted, by omega, within⟩
            · simp

theorem scan_eq (window : List String) (old : List HunkLine) :
    scan canonical window old fuzz = windowMatches canonical window old fuzz := by
  have scanned : scan canonical window old fuzz = true ↔
      ∃ count, countUpTo canonical fuzz 0 window old = some count ∧
        count < old.length := by
    unfold scan
    cases countUpTo canonical fuzz 0 window old <;> simp
  rw [Bool.eq_iff_iff, scanned, windowMatches_iff_count]
  simp only [countUpTo_eq_some_iff (Nat.zero_le fuzz), Nat.zero_add]
  constructor
  · rintro ⟨count, ⟨_, counted, rfl, within⟩, fewer⟩
    exact ⟨_, counted, within, fewer⟩
  · rintro ⟨count, counted, within, fewer⟩
    exact ⟨count, ⟨count, counted, rfl, within⟩, fewer⟩

end Scanning

def slice? (lines : List String) (position size : Nat) :
    Option (List String) :=
  if position + size ≤ lines.length then
    some ((lines.drop position).take size)
  else none

/-- Whether an old side matches at a position that is not out of bounds; `none`
if a line is asked for that is not there. -/
def tryAt? (canonical : Bool) (lines : List String) (old : List HunkLine)
    (low high : Int) (fuzz : Nat) (position : Int) : Option Bool :=
  if position < low ∨ high < position then some false
  else do
    let window ← slice? lines position.toNat old.length
    return scan canonical window old fuzz

def searchOutward? (options : Options) (lines : List String)
    (old : List HunkLine) (expected : Int) (floor : Nat) :
    Option (Option (Nat × Nat)) :=
  if lines.length < old.length ∨ lines.length - old.length < floor then
    some none
  else
    let low : Int := floor
    let high : Int := (lines.length - old.length : Nat)
    let reach := max (expected - low).natAbs (high - expected).natAbs
    (List.range (options.maxFuzz + 1)).findSomeM? fun fuzz =>
      (List.range (reach + 1)).findSomeM? fun (distance : Nat) => do
        let found ← [expected + distance, expected - distance].findM?
          (tryAt? options.canonicalizeAccess lines old low high fuzz)
        return found.map fun position => (position.toNat, fuzz)

/-- The positions in the order of the loops. -/
def outward (expected : Int) (reach : Nat) : List Int :=
  (List.range (reach + 1)).flatMap fun (distance : Nat) =>
    [expected + distance, expected - distance]

theorem findSome?_distances {α : Type} (expected : Int) (reach : Nat)
    (test : Int → Bool) (value : Int → α) :
    ((List.range (reach + 1)).findSome? fun (distance : Nat) =>
        ([expected + distance, expected - distance].find? test).map value) =
      ((outward expected reach).find? test).map value := by
  rw [outward, List.find?_flatMap, List.map_findSome?]
  rfl

/-- A position is nearer to the expected one, or as near and not before. -/
def Sooner (expected left right : Int) : Prop :=
  distance left expected < distance right expected ∨
    distance left expected = distance right expected ∧ right ≤ left

theorem distance_of_mem {expected position : Int} {away : Nat}
    (member : position ∈ [expected + away, expected - away]) :
    distance position expected = away := by
  simp only [List.mem_cons, List.not_mem_nil, or_false] at member
  unfold distance
  omega

theorem pairwise_outward (expected : Int) (reach : Nat) :
    (outward expected reach).Pairwise (Sooner expected) := by
  rw [outward, List.pairwise_flatMap]
  constructor
  · intro away _
    refine List.pairwise_pair.2 (Or.inr ⟨?_, by omega⟩)
    unfold distance
    omega
  · refine List.pairwise_lt_range.imp fun {near far} less => ?_
    intro left atNear right atFar
    have nearer := distance_of_mem atNear
    have farther := distance_of_mem atFar
    exact Or.inl (by omega)

/-- Every position within reach is tried. -/
theorem mem_outward {expected position : Int} {reach : Nat}
    (near : distance position expected ≤ reach) :
    position ∈ outward expected reach := by
  refine List.mem_flatMap.2 ⟨distance position expected,
    List.mem_range.2 (Nat.lt_succ_of_le near), ?_⟩
  simp only [List.mem_cons, List.not_mem_nil, or_false]
  unfold distance
  omega

def matchesAt (canonical : Bool) (lines : List String) (old : List HunkLine)
    (floor fuzz : Nat) (position : Int) : Bool :=
  decide (floor ≤ position ∧ position + old.length ≤ lines.length) &&
    windowMatches canonical ((lines.drop position.toNat).take old.length) old
      fuzz

section Loops

variable {canonical : Bool} {lines : List String} {old : List HunkLine}
variable {floor fuzz : Nat}

theorem matchesAt_iff {position : Int} :
    matchesAt canonical lines old floor fuzz position = true ↔
      ∃ offset : Nat, position = (floor + offset : Nat) ∧
        Admissible canonical lines old floor fuzz (floor + offset) := by
  have here : ∀ offset : Nat,
      matchesAt canonical lines old floor fuzz (floor + offset : Nat) = true ↔
        Admissible canonical lines old floor fuzz (floor + offset) := by
    intro offset
    rw [admissible_iff canonical 0, mem_positions, matchesAt, Bool.and_eq_true,
      decide_eq_true_eq, List.length_drop, List.drop_drop, Int.toNat_natCast]
    refine and_congr_left fun found => ?_
    obtain ⟨count, _, _, fewer⟩ := (windowMatches_iff_count canonical).1 found
    omega
  constructor
  · intro found
    have bounds := found
    rw [matchesAt, Bool.and_eq_true, decide_eq_true_eq] at bounds
    obtain ⟨number, rfl⟩ := Int.eq_ofNat_of_zero_le (by omega : 0 ≤ position)
    obtain ⟨offset, rfl⟩ :=
      Nat.exists_eq_add_of_le (Int.ofNat_le.1 bounds.1.1)
    exact ⟨offset, rfl, (here offset).1 found⟩
  · rintro ⟨offset, rfl, admissible⟩
    exact (here offset).2 admissible

/-- No position that is tried is one at which lines are missing. -/
theorem tryAt?_eq (fits : old.length ≤ lines.length) (position : Int) :
    tryAt? canonical lines old floor (lines.length - old.length : Nat) fuzz
        position =
      some (matchesAt canonical lines old floor fuzz position) := by
  unfold tryAt? matchesAt
  split
  · rename_i outside
    have skipped : ¬ ((floor : Int) ≤ position ∧
        position + old.length ≤ lines.length) := by omega
    rw [decide_eq_false skipped, Bool.false_and]
  · rename_i inside
    have within : (floor : Int) ≤ position ∧
        position + old.length ≤ lines.length := by omega
    have there : position.toNat + old.length ≤ lines.length := by omega
    rw [decide_eq_true within, Bool.true_and, slice?, if_pos there, ← scan_eq]
    rfl

/-- The loops find at a fuzz what is found in the sorted positions. -/
theorem find?_outward {expected : Int} {reach : Nat}
    (within : ∀ position : Nat, floor ≤ position →
      position + old.length ≤ lines.length →
        distance position expected ≤ reach) :
    (outward expected reach).find? (matchesAt canonical lines old floor fuzz) =
      (windowAt canonical (lines.drop floor) old (expected - floor) fuzz).map
        fun offset => ((floor + offset : Nat) : Int) := by
  cases window :
      windowAt canonical (lines.drop floor) old (expected - floor) fuzz with
  | none =>
      rw [Option.map_none, List.find?_eq_none]
      intro position _ found
      obtain ⟨offset, _, admissible⟩ := matchesAt_iff.1 found
      exact windowAt_eq_none_iff.1 window _ admissible
  | some offset =>
      obtain ⟨admissible, nearest⟩ := nearest_of_windowAt window
      have tried : ((floor + offset : Nat) : Int) ∈ outward expected reach :=
        mem_outward (within _ admissible.above admissible.fits)
      have passes := matchesAt_iff.2 ⟨offset, rfl, admissible⟩
      cases found : (outward expected reach).find?
          (matchesAt canonical lines old floor fuzz) with
      | none => exact absurd passes (List.find?_eq_none.1 found _ tried)
      | some position =>
          obtain ⟨other, rfl, otherAdmissible⟩ :=
            matchesAt_iff.1 (List.find?_some found)
          have sooner := sooner_of_find? (pairwise_outward expected reach) found
            tried passes
          have later := nearest _ otherAdmissible
          unfold Sooner at sooner
          have same : offset = other := by omega
          rw [same, Option.map_some]

/-- Nothing is found only at a fuzz that is more than all lines. -/
theorem findSome?_windowAt {expected : Int} {limit : Nat} :
    ((List.range (limit + 1)).findSome? fun fuzz =>
        (windowAt canonical (lines.drop floor) old expected fuzz).map
          fun position => (position, fuzz)) =
      (List.range (min limit old.length + 1)).findSome? fun fuzz =>
        (windowAt canonical (lines.drop floor) old expected fuzz).map
          fun position => (position, fuzz) := by
  refine Option.ext fun found => ?_
  rw [findSome?_range_eq_some, findSome?_range_eq_some]
  constructor
  · rintro ⟨number, within, here, nothing⟩
    refine ⟨number, ?_, here, nothing⟩
    have possible : ∃ position,
        Admissible canonical lines old floor number position := by
      by_contra none
      rw [windowAt_eq_none_iff.2 (not_exists.1 none)] at here
      cases here
    obtain ⟨position, admissible⟩ := possible
    have few := differing_le canonical lines old position
    have least : number ≤ differing canonical lines old position := by
      by_contra lower
      have earlier := nothing _ (Nat.not_le.1 lower)
      rw [Option.map_eq_none_iff, windowAt_eq_none_iff] at earlier
      exact earlier position admissible.exact
    omega
  · rintro ⟨number, within, here, nothing⟩
    exact ⟨number, by omega, here, nothing⟩

theorem tryAt?_eq_pure (fits : old.length ≤ lines.length) :
    tryAt? canonical lines old floor (lines.length - old.length : Nat) fuzz =
      fun position => pure (matchesAt canonical lines old floor fuzz position) :=
  funext (tryAt?_eq fits)

/-- What the loops find at a fuzz and a distance. -/
def foundAt (canonical : Bool) (lines : List String) (old : List HunkLine)
    (expected : Int) (floor fuzz away : Nat) : Option (Nat × Nat) :=
  ([expected + away, expected - away].find?
      (matchesAt canonical lines old floor fuzz)).map
    fun position => (position.toNat, fuzz)

theorem searchOutward?_of_fits {options : Options} {expected : Int}
    (fits : floor + old.length ≤ lines.length) :
    searchOutward? options lines old expected floor =
      let reach := max (expected - floor).natAbs
        ((lines.length - old.length : Nat) - expected).natAbs
      some ((List.range (options.maxFuzz + 1)).findSome? fun fuzz =>
          (List.range (reach + 1)).findSome? (foundAt
            options.canonicalizeAccess lines old expected floor fuzz)) := by
  have inside : ¬ (lines.length < old.length ∨
      lines.length - old.length < floor) := by omega
  have within : old.length ≤ lines.length := by omega
  unfold searchOutward?
  rw [if_neg inside]
  dsimp only
  simp only [tryAt?_eq_pure within, List.findM?_pure, pure_bind,
    List.findSomeM?_pure]
  rfl

/-- The farther end is as far as any position at which the old side fits. -/
theorem distance_le_reach {expected : Int} {position : Nat}
    (above : floor ≤ position)
    (fits : position + old.length ≤ lines.length) :
    distance position expected ≤ max (expected - floor).natAbs
      ((lines.length - old.length : Nat) - expected).natAbs := by
  unfold distance
  omega

/-- The loops ask for no line that is not there, and find what is found in the
sorted positions. -/
theorem searchOutward?_eq (options : Options) (lines : List String)
    (old : List HunkLine) (expected : Int) (floor : Nat) :
    searchOutward? options lines old expected floor =
      some ((findWindow options (lines.drop floor) old (expected - floor)).map
        fun found => (floor + found.1, found.2)) := by
  by_cases fits : floor + old.length ≤ lines.length
  · rw [searchOutward?_of_fits fits, findWindow_eq, ← findSome?_windowAt,
      List.map_findSome?]
    refine congrArg some (congrArg (fun find => List.findSome? find _) ?_)
    funext fuzz
    unfold foundAt
    rw [findSome?_distances, find?_outward fun _ => distance_le_reach]
    simp only [Option.map_map, Function.comp_def, Int.toNat_natCast]
  · have nothing : findWindow options (lines.drop floor) old
        (expected - floor) = none := by
      refine findWindow_eq_none_iff.2 fun position admissible => ?_
      have above := admissible.above
      have fits := admissible.fits
      omega
    rw [searchOutward?, if_pos (by omega), nothing, Option.map_none]

end Loops

/-- The search from a floor on, carried out by the loops or in the sorted
positions, asks for no line that is not there.  It finds nothing just if no
position is admissible at the highest fuzz, and a window just if it is the best
one: at the least fuzz at which there is an admissible position, which is the
number of context lines that differ there, and of those positions at the nearest,
the later of two equally near ones. -/
theorem findWindow_best (options : Options) (lines : List String)
    (old : List HunkLine) (expected : Int) (floor : Nat) :
    ∃ found,
      searchOutward? options lines old expected floor = some found ∧
      (findWindow options (lines.drop floor) old (expected - floor)).map
          (fun window => (floor + window.1, window.2)) = found ∧
      (found = none ↔ ∀ position, ¬ Admissible options.canonicalizeAccess lines
        old floor options.maxFuzz position) ∧
      ∀ position fuzz, found = some (position, fuzz) ↔
        Best options.canonicalizeAccess lines old expected floor
          options.maxFuzz position fuzz := by
  refine ⟨_, searchOutward?_eq options lines old expected floor, rfl, ?_, ?_⟩
  · rw [Option.map_eq_none_iff]
    exact findWindow_eq_none_iff
  · intro position fuzz
    rw [Option.map_eq_some_iff]
    constructor
    · rintro ⟨⟨offset, used⟩, found, same⟩
      obtain ⟨rfl, rfl⟩ := Prod.mk.inj same
      exact best_of_findWindow found
    · intro best
      obtain ⟨offset, rfl⟩ := Nat.exists_eq_add_of_le best.admissible.above
      exact ⟨(offset, fuzz), findWindow_eq_some_iff.2 best, rfl⟩

/-- Of two lines that are as near the later one is found. -/
example :
    searchOutward? {} ["a", "b", "a"] [.context "a"] 1 0 =
      some (some (2, 0)) := by
  decide

end Deobfuscate.Patch
