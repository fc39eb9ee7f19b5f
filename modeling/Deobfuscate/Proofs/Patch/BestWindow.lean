import Deobfuscate.Proofs.Patch.Window
import Mathlib.Data.List.Count

/-!
# The best window

A position is admissible for the old side of a hunk if the lines fit there,
every line to be removed is the same, at most so many context lines differ as
the fuzz allows and at least one line is the same.

The search finds nothing just if no position is admissible at the highest fuzz.
Otherwise it finds the best position: no position is admissible at a lower fuzz,
and none that is admissible at the same fuzz is nearer, or as near and later.
-/

namespace Deobfuscate.Patch

def HunkLine.isContext : HunkLine → Bool
  | context _ => true
  | _ => false

def facing (lines : List String) (old : List HunkLine) (position : Nat) :
    List (String × HunkLine) :=
  ((lines.drop position).take old.length).zip old

def agrees (canonical : Bool) (pair : String × HunkLine) : Bool :=
  sameLine canonical pair.1 pair.2.text

def differs (canonical : Bool) (pair : String × HunkLine) : Bool :=
  pair.2.isContext && !agrees canonical pair

def differing (canonical : Bool) (lines : List String) (old : List HunkLine)
    (position : Nat) : Nat :=
  (facing lines old position).countP (differs canonical)

/-- An old side can go to a position that is not before the floor. -/
structure Admissible (canonical : Bool) (lines : List String)
    (old : List HunkLine) (floor fuzz position : Nat) : Prop where
  above : floor ≤ position
  fits : position + old.length ≤ lines.length
  /-- What is to be removed is there. -/
  removed : ∀ pair ∈ facing lines old position,
    pair.2.isContext = false → agrees canonical pair = true
  /-- Not too many context lines differ. -/
  fuzzy : differing canonical lines old position ≤ fuzz
  /-- Some line is the same. -/
  touched : ∃ pair ∈ facing lines old position, agrees canonical pair = true

theorem Admissible.mono {canonical : Bool} {lines : List String}
    {old : List HunkLine} {floor fuzz more position : Nat}
    (admissible : Admissible canonical lines old floor fuzz position)
    (raised : fuzz ≤ more) :
    Admissible canonical lines old floor more position :=
  { admissible with fuzzy := Nat.le_trans admissible.fuzzy raised }

instance (canonical : Bool) (lines : List String) (old : List HunkLine)
    (floor fuzz position : Nat) :
    Decidable (Admissible canonical lines old floor fuzz position) :=
  decidable_of_iff
    (floor ≤ position ∧ position + old.length ≤ lines.length ∧
      (∀ pair ∈ facing lines old position,
        pair.2.isContext = false → agrees canonical pair = true) ∧
      differing canonical lines old position ≤ fuzz ∧
      ∃ pair ∈ facing lines old position, agrees canonical pair = true)
    ⟨fun ⟨above, fits, removed, fuzzy, touched⟩ =>
        ⟨above, fits, removed, fuzzy, touched⟩,
      fun admissible => ⟨admissible.above, admissible.fits,
        admissible.removed, admissible.fuzzy, admissible.touched⟩⟩

/-- No fuzz allows that all lines differ. -/
example : ¬ Admissible false ["b"] [.context "a"] 0 1 0 := by
  decide

structure Best (canonical : Bool) (lines : List String) (old : List HunkLine)
    (expected : Int) (floor maxFuzz position fuzz : Nat) : Prop where
  allowed : fuzz ≤ maxFuzz
  admissible : Admissible canonical lines old floor fuzz position
  /-- The fuzz is used up. -/
  exact : differing canonical lines old position = fuzz
  /-- No position is admissible at a lower fuzz. -/
  least : ∀ less other,
    Admissible canonical lines old floor less other → fuzz ≤ less
  /-- No other position is nearer, and none as near is later. -/
  nearest : ∀ other, Admissible canonical lines old floor fuzz other →
    distance position expected < distance other expected ∨
      distance position expected = distance other expected ∧ other ≤ position

section Windows

variable (canonical : Bool)

/-- What one line more does to the number of differing context lines. -/
theorem mismatches_cons (actual : String) (window : List String)
    (line : HunkLine) (old : List HunkLine) :
    mismatches canonical (actual :: window) (line :: old) =
      if agrees canonical (actual, line) then mismatches canonical window old
      else if line.isContext then
        (mismatches canonical window old).map (· + 1)
      else none := by
  rw [mismatches]
  cases mismatches canonical window old with
  | none => cases agrees canonical (actual, line) <;> cases line <;> rfl
  | some count =>
      unfold agrees
      cases sameLine canonical actual line.text <;> cases line <;> rfl

/-- A window has a number of differing context lines if its other lines are the
same as those they face. -/
theorem mismatches_eq_some_iff {window : List String} {old : List HunkLine}
    {count : Nat} :
    mismatches canonical window old = some count ↔
      (∀ pair ∈ window.zip old,
        pair.2.isContext = false → agrees canonical pair = true) ∧
        (window.zip old).countP (differs canonical) = count := by
  induction window generalizing old count with
  | nil => simp [mismatches]
  | cons actual window inductionHypothesis =>
      cases old with
      | nil => simp [mismatches]
      | cons line old =>
          rw [mismatches_cons, List.zip_cons_cons, List.forall_mem_cons,
            List.countP_cons]
          cases same : agrees canonical (actual, line) with
          | true => simp [differs, same, inductionHypothesis]
          | false =>
              cases context : line.isContext with
              | true =>
                  simp [differs, same, context, inductionHypothesis, and_assoc]
              | false => simp

theorem windowMatches_iff_count {window : List String} {old : List HunkLine}
    {fuzz : Nat} :
    windowMatches canonical window old fuzz = true ↔
      ∃ count, mismatches canonical window old = some count ∧
        count ≤ fuzz ∧ count < old.length := by
  unfold windowMatches
  cases mismatches canonical window old <;> simp

/-- A window matches if its lines are the same as those they face, but for so
many context lines as the fuzz allows and not for all lines. -/
theorem windowMatches_iff {window : List String} {old : List HunkLine}
    (full : window.length = old.length) {fuzz : Nat} :
    windowMatches canonical window old fuzz = true ↔
      (∀ pair ∈ window.zip old,
        pair.2.isContext = false → agrees canonical pair = true) ∧
        (window.zip old).countP (differs canonical) ≤ fuzz ∧
        ∃ pair ∈ window.zip old, agrees canonical pair = true := by
  have length : (window.zip old).length = old.length := by
    rw [List.length_zip, full, Nat.min_self]
  rw [windowMatches_iff_count]
  simp only [mismatches_eq_some_iff, and_assoc, exists_and_left,
    exists_eq_left']
  refine and_congr_right fun removed => and_congr_right fun _ => ?_
  -- Since the lines to be removed are the same, all that differ are counted.
  have all : (window.zip old).countP (differs canonical) =
      (window.zip old).countP fun pair => !agrees canonical pair := by
    refine List.countP_congr fun pair member => ?_
    have same := removed pair member
    cases context : pair.2.isContext <;> simp_all [differs]
  rw [all, ← length, List.countP_lt_length_iff]
  simp

/-- A window of the length of an old side is found at the admissible positions,
counted from the floor. -/
theorem admissible_iff {lines : List String} {old : List HunkLine}
    {floor fuzz offset : Nat} (expected : Int) :
    Admissible canonical lines old floor fuzz (floor + offset) ↔
      offset ∈ positions expected (lines.drop floor).length old.length ∧
        windowMatches canonical
          (((lines.drop floor).drop offset).take old.length) old fuzz = true := by
  rw [mem_positions, List.length_drop, List.drop_drop]
  have full : offset + old.length ≤ lines.length - floor →
      ((lines.drop (floor + offset)).take old.length).length = old.length := by
    intro fits
    rw [List.length_take, List.length_drop]
    omega
  constructor
  · intro admissible
    have fits := admissible.fits
    have within : offset + old.length ≤ lines.length - floor := by omega
    exact ⟨within, (windowMatches_iff canonical (full within)).2
      ⟨admissible.removed, admissible.fuzzy, admissible.touched⟩⟩
  · rintro ⟨within, found⟩
    obtain ⟨removed, fuzzy, touched⟩ :=
      (windowMatches_iff canonical (full within)).1 found
    have nonempty : 0 < old.length := by
      obtain ⟨pair, member, _⟩ := touched
      exact List.length_pos_of_mem (List.of_mem_zip member).2
    exact ⟨Nat.le_add_right floor offset, by omega, removed, fuzzy, touched⟩

end Windows

/-! ## The search -/

/-- The least number for which there is something. -/
theorem findSome?_range_eq_some {α : Type} {find : Nat → Option α}
    {limit : Nat} {found : α} :
    (List.range limit).findSome? find = some found ↔
      ∃ number < limit, find number = some found ∧
        ∀ less < number, find less = none := by
  induction limit with
  | zero => simp
  | succ limit inductionHypothesis =>
      rw [List.range_succ, List.findSome?_append, Option.or_eq_some_iff,
        inductionHypothesis, List.findSome?_eq_none_iff]
      constructor
      · rintro (⟨number, below, here, least⟩ | ⟨nothing, last⟩)
        · exact ⟨number, Nat.lt_succ_of_lt below, here, least⟩
        · exact ⟨limit, Nat.lt_succ_self limit, by simpa using last,
            fun less below => nothing less (List.mem_range.2 below)⟩
      · rintro ⟨number, below, here, least⟩
        rcases Nat.lt_succ_iff_lt_or_eq.1 below with before | last
        · exact Or.inl ⟨number, before, here, least⟩
        · subst last
          exact Or.inr ⟨fun less member => least less (List.mem_range.1 member),
            by simpa using here⟩

/-- What is found comes before whatever else could be found. -/
theorem sooner_of_find? {α : Type} {order : α → α → Prop} {test : α → Bool}
    {tried : List α} {item other : α} (ordered : tried.Pairwise order)
    (found : tried.find? test = some item) (member : other ∈ tried)
    (passes : test other = true) : other = item ∨ order item other := by
  obtain ⟨_, before, after, rfl, earlier⟩ :=
    List.find?_eq_some_iff_append.1 found
  rcases List.mem_append.1 member with early | late
  · have fails := earlier other early
    rw [passes] at fails
    cases fails
  · rcases List.mem_cons.1 late with same | later
    · exact Or.inl same
    · have follows := (List.pairwise_append.1 ordered).2.1
      exact Or.inr ((List.pairwise_cons.1 follows).1 other later)

theorem triedBefore_iff {expected : Int} {left right : Nat} :
    triedBefore expected left right = true ↔
      distance left expected < distance right expected ∨
        distance left expected = distance right expected ∧ right ≤ left := by
  simp [triedBefore]

theorem distance_sub (expected : Int) (floor offset : Nat) :
    distance offset (expected - floor) =
      distance (floor + offset : Nat) expected := by
  unfold distance
  omega

def windowAt (canonical : Bool) (lines : List String) (old : List HunkLine)
    (expected : Int) (fuzz : Nat) : Option Nat :=
  (positions expected lines.length old.length).find? fun position =>
    windowMatches canonical ((lines.drop position).take old.length) old fuzz

section Search

variable {lines : List String} {old : List HunkLine} {expected : Int}
variable {floor : Nat}

theorem windowAt_eq_none_iff {canonical : Bool} {fuzz : Nat} :
    windowAt canonical (lines.drop floor) old expected fuzz = none ↔
      ∀ position, ¬ Admissible canonical lines old floor fuzz position := by
  rw [windowAt, List.find?_eq_none]
  constructor
  · intro nothing position admissible
    obtain ⟨offset, rfl⟩ := Nat.exists_eq_add_of_le admissible.above
    obtain ⟨tried, found⟩ := (admissible_iff canonical expected).1 admissible
    exact nothing offset tried found
  · intro nothing offset tried found
    exact nothing (floor + offset)
      ((admissible_iff canonical expected).2 ⟨tried, found⟩)

/-- The window at a fuzz is at the nearest of the admissible positions. -/
theorem nearest_of_windowAt {canonical : Bool} {fuzz offset : Nat}
    (found : windowAt canonical (lines.drop floor) old (expected - floor) fuzz =
      some offset) :
    Admissible canonical lines old floor fuzz (floor + offset) ∧
      ∀ other, Admissible canonical lines old floor fuzz other →
        distance (floor + offset : Nat) expected < distance other expected ∨
          distance (floor + offset : Nat) expected = distance other expected ∧
            other ≤ floor + offset := by
  have tried : offset ∈
      positions (expected - floor) (lines.drop floor).length old.length :=
    List.mem_of_find?_eq_some found
  have matched := List.find?_some found
  refine ⟨(admissible_iff canonical _).2 ⟨tried, matched⟩, ?_⟩
  intro other admissible
  obtain ⟨otherOffset, rfl⟩ := Nat.exists_eq_add_of_le admissible.above
  obtain ⟨otherTried, otherMatched⟩ :=
    (admissible_iff canonical (expected - floor)).1 admissible
  have ordered :=
    positions_pairwise (expected - floor) (lines.drop floor).length old.length
  have sooner := sooner_of_find? ordered found otherTried otherMatched
  rcases sooner with rfl | sooner
  · exact Or.inr ⟨rfl, Nat.le_refl _⟩
  · rw [triedBefore_iff, distance_sub, distance_sub] at sooner
    omega

variable {options : Options}

/-- The search takes the nearest window of the least fuzz. -/
theorem findWindow_eq :
    findWindow options lines old expected =
      (List.range (min options.maxFuzz old.length + 1)).findSome? fun fuzz =>
        (windowAt options.canonicalizeAccess lines old expected fuzz).map
          fun position => (position, fuzz) := by
  unfold findWindow windowAt
  simp only [List.find?_map, Option.map_map, Function.comp_def]

/-- A position is admissible at the fuzz that it takes. -/
theorem Admissible.exact {canonical : Bool} {fuzz position : Nat}
    (admissible : Admissible canonical lines old floor fuzz position) :
    Admissible canonical lines old floor
      (differing canonical lines old position) position :=
  { admissible with fuzzy := Nat.le_refl _ }

theorem differing_le (canonical : Bool) (lines : List String)
    (old : List HunkLine) (position : Nat) :
    differing canonical lines old position ≤ old.length := by
  refine Nat.le_trans List.countP_le_length ?_
  rw [facing, List.length_zip]
  exact Nat.min_le_right _ _

theorem findWindow_eq_none_iff :
    findWindow options (lines.drop floor) old expected = none ↔
      ∀ position, ¬ Admissible options.canonicalizeAccess lines old floor
        options.maxFuzz position := by
  rw [findWindow_eq, List.findSome?_eq_none_iff]
  simp only [List.mem_range, Option.map_eq_none_iff, windowAt_eq_none_iff]
  constructor
  · intro nothing position admissible
    have few := differing_le options.canonicalizeAccess lines old position
    have allowed := admissible.fuzzy
    exact nothing _ (by omega) position admissible.exact
  · intro nothing fuzz within position admissible
    exact nothing position (admissible.mono (by omega))

theorem best_of_findWindow {offset fuzz : Nat}
    (found : findWindow options (lines.drop floor) old (expected - floor) =
      some (offset, fuzz)) :
    Best options.canonicalizeAccess lines old expected floor options.maxFuzz
      (floor + offset) fuzz := by
  rw [findWindow_eq, findSome?_range_eq_some] at found
  obtain ⟨number, within, here, nothing⟩ := found
  obtain ⟨position, window, same⟩ := Option.map_eq_some_iff.1 here
  obtain ⟨rfl, rfl⟩ := Prod.mk.inj same
  obtain ⟨admissible, nearest⟩ := nearest_of_windowAt window
  simp only [Option.map_eq_none_iff, windowAt_eq_none_iff] at nothing
  have least : ∀ less other, Admissible options.canonicalizeAccess lines old
      floor less other → number ≤ less := by
    intro less other possible
    by_contra lower
    exact nothing less (by omega) other possible
  refine ⟨by omega, admissible, ?_, least, nearest⟩
  exact Nat.le_antisymm admissible.fuzzy (least _ _ admissible.exact)

/-- There is one best position at most. -/
theorem Best.unique {canonical : Bool} {maxFuzz left right fuzz other : Nat}
    (first : Best canonical lines old expected floor maxFuzz left fuzz)
    (second : Best canonical lines old expected floor maxFuzz right other) :
    left = right ∧ fuzz = other := by
  have sameFuzz : fuzz = other :=
    Nat.le_antisymm (first.least other right second.admissible)
      (second.least fuzz left first.admissible)
  subst sameFuzz
  have rightLater := first.nearest right second.admissible
  have leftLater := second.nearest left first.admissible
  exact ⟨by omega, rfl⟩

theorem findWindow_eq_some_iff {offset fuzz : Nat} :
    findWindow options (lines.drop floor) old (expected - floor) =
        some (offset, fuzz) ↔
      Best options.canonicalizeAccess lines old expected floor options.maxFuzz
        (floor + offset) fuzz := by
  refine ⟨best_of_findWindow, fun best => ?_⟩
  cases found :
      findWindow options (lines.drop floor) old (expected - floor) with
  | none =>
      have possible := best.admissible.mono best.allowed
      exact absurd possible (findWindow_eq_none_iff.1 found _)
  | some window =>
      obtain ⟨samePosition, sameFuzz⟩ :=
        (best_of_findWindow found).unique best
      rw [← sameFuzz, ← Nat.add_left_cancel samePosition]

end Search

end Deobfuscate.Patch
