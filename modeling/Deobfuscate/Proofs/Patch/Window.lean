import Deobfuscate.Patch.Window

/-!
# The order of the search for a window

Positions are tried by their distance from the expected one, the later of two
equally near ones first.  A window that holds the old side of a hunk at the
expected position is therefore found at once and without fuzz, whatever fuzz is
allowed.
-/

namespace Deobfuscate.Patch

theorem triedBefore_total (expected : Int) (left right : Nat) :
    triedBefore expected left right || triedBefore expected right left := by
  simp only [triedBefore, Bool.or_eq_true, Bool.and_eq_true, beq_iff_eq,
    decide_eq_true_eq]
  omega

theorem triedBefore_trans (expected : Int) (first second third : Nat)
    (firstSecond : triedBefore expected first second)
    (secondThird : triedBefore expected second third) :
    triedBefore expected first third := by
  simp only [triedBefore, Bool.or_eq_true, Bool.and_eq_true, beq_iff_eq,
    decide_eq_true_eq] at firstSecond secondThird ⊢
  omega

/-- Nothing but the expected position is tried before it. -/
theorem eq_of_triedBefore_expected {expected position : Nat}
    (before : triedBefore expected position expected) :
    position = expected := by
  have here : distance expected expected = 0 := by simp [distance]
  simp only [triedBefore, here, Bool.or_eq_true, Bool.and_eq_true,
    beq_iff_eq, decide_eq_true_eq, Nat.not_lt_zero, false_or] at before
  have near : ((position : Int) - expected).natAbs = 0 := before.1
  omega

theorem positions_pairwise (expected : Int) (total size : Nat) :
    (positions expected total size).Pairwise
      fun left right => triedBefore expected left right := by
  unfold positions
  split
  · exact List.Pairwise.nil
  · exact List.pairwise_mergeSort (triedBefore_trans expected)
      (triedBefore_total expected) _

/-- Exactly the positions at which the lines fit are tried. -/
theorem mem_positions {expected : Int} {total size position : Nat} :
    position ∈ positions expected total size ↔ position + size ≤ total := by
  unfold positions
  split
  · simp
    omega
  · simp
    omega

/-- The expected position is tried first, if the lines fit there. -/
theorem positions_eq_cons {expected total size : Nat}
    (fits : expected + size ≤ total) :
    ∃ rest, positions expected total size = expected :: rest := by
  have member : expected ∈ positions expected total size :=
    mem_positions.2 fits
  have ordered := positions_pairwise expected total size
  cases tried : positions expected total size with
  | nil =>
      rw [tried] at member
      cases member
  | cons first rest =>
      rw [tried] at member ordered
      rcases List.mem_cons.1 member with same | later
      · exact ⟨rest, by rw [same]⟩
      · have before := (List.pairwise_cons.1 ordered).1 expected later
        exact ⟨rest, by rw [eq_of_triedBefore_expected before]⟩

theorem sameLine_self (canonical : Bool) (line : String) :
    sameLine canonical line line := by
  simp [sameLine]

theorem mismatches_self (canonical : Bool) (old : List HunkLine) :
    mismatches canonical (old.map HunkLine.text) old = some 0 := by
  induction old with
  | nil =>
      rfl
  | cons line rest inductionHypothesis =>
      simp [mismatches, inductionHypothesis, sameLine_self]

/-- Lines match themselves at any fuzz. -/
theorem windowMatches_self (canonical : Bool) {old : List HunkLine}
    (nonempty : old ≠ []) (fuzz : Nat) :
    windowMatches canonical (old.map HunkLine.text) old fuzz := by
  have positive : 0 < old.length := List.length_pos_iff.2 nonempty
  simp [windowMatches, mismatches_self, positive]

/-- An old side that stands at the expected position is found there, without
fuzz. -/
theorem findWindow_of_exact (options : Options) {lines : List String}
    {old : List HunkLine} {expected : Nat} (nonempty : old ≠ [])
    (fits : expected + old.length ≤ lines.length)
    (exact : (lines.drop expected).take old.length =
      old.map HunkLine.text) :
    findWindow options lines old expected = some (expected, 0) := by
  obtain ⟨rest, tried⟩ := positions_eq_cons fits
  have matched : windowMatches options.canonicalizeAccess
      ((lines.drop expected).take old.length) old 0 := by
    rw [exact]
    exact windowMatches_self options.canonicalizeAccess nonempty 0
  simp [findWindow, tried, matched, List.range_succ_eq_map]

end Deobfuscate.Patch
