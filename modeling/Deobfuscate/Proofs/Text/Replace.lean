import Deobfuscate.Text.Search

/-!
# Replacing a piece of a text

Replacing a piece that does not occur changes nothing.  Where it occurs, the
result tells what was put in its place: its length gives the length of the
replacement, and the first occurrence shows the replacement itself.
-/

namespace Deobfuscate.Text

variable {piece : List Char}

/-- The length of the result grows by the same amount with every character of
the replacement. -/
theorem exists_length_replaceFrom (piece : List Char) (pending : Nat)
    (chars : List Char) :
    ∃ kept count, ∀ replacement,
      (replaceFrom piece replacement pending chars).length =
        kept + count * replacement.length := by
  induction chars generalizing pending with
  | nil =>
      exact ⟨0, 0, fun replacement => by simp [replaceFrom]⟩
  | cons char rest inductionHypothesis =>
      cases pending with
      | succ pending =>
          obtain ⟨kept, count, lengths⟩ := inductionHypothesis pending
          refine ⟨kept, count, fun replacement => ?_⟩
          rw [replaceFrom, lengths]
      | zero =>
          by_cases found : piece.isPrefixOf (char :: rest) = true
          · obtain ⟨kept, count, lengths⟩ :=
              inductionHypothesis (piece.length - 1)
            refine ⟨kept, count + 1, fun replacement => ?_⟩
            rw [replaceFrom, if_pos found, List.length_append, lengths,
              Nat.succ_mul]
            omega
          · obtain ⟨kept, count, lengths⟩ := inductionHypothesis 0
            refine ⟨kept + 1, count, fun replacement => ?_⟩
            rw [replaceFrom, if_neg found, List.length_cons, lengths]
            omega

theorem replaceFrom_of_absent {replacement chars : List Char}
    (absent : ¬piece <:+: chars) :
    replaceFrom piece replacement 0 chars = chars := by
  induction chars with
  | nil =>
      rfl
  | cons char rest inductionHypothesis =>
      rw [List.infix_cons_iff, not_or] at absent
      have here : ¬piece.isPrefixOf (char :: rest) = true :=
        fun found => absent.1 (List.isPrefixOf_iff_prefix.1 found)
      rw [replaceFrom, if_neg here, inductionHypothesis absent.2]

theorem replaceFrom_injective (nonempty : piece ≠ [])
    {left right chars : List Char} (occurs : piece <:+: chars)
    (same : replaceFrom piece left 0 chars =
      replaceFrom piece right 0 chars) : left = right := by
  induction chars with
  | nil =>
      exact absurd (List.infix_nil.1 occurs) nonempty
  | cons char rest inductionHypothesis =>
      rw [replaceFrom, replaceFrom] at same
      by_cases found : piece.isPrefixOf (char :: rest) = true
      · rw [if_pos found, if_pos found] at same
        obtain ⟨kept, count, lengths⟩ :=
          exists_length_replaceFrom piece (piece.length - 1) rest
        -- Equally long results come from equally long replacements, and these
        -- stand at the start of the results.
        have total := congrArg List.length same
        rw [List.length_append, List.length_append, lengths, lengths] at total
        have grown : (count + 1) * left.length =
            (count + 1) * right.length := by
          rw [Nat.succ_mul, Nat.succ_mul]
          omega
        have sameLength : left.length = right.length :=
          Nat.eq_of_mul_eq_mul_left (Nat.succ_pos count) grown
        exact (List.append_inj same sameLength).1
      · rw [if_neg found, if_neg found] at same
        rcases List.infix_cons_iff.1 occurs with here | later
        · exact absurd (List.isPrefixOf_iff_prefix.2 here) found
        · exact inductionHypothesis later (List.cons.inj same).2

theorem replaceAll_eq_replaceFrom (nonempty : piece ≠ [])
    (replacement chars : List Char) :
    replaceAll piece replacement chars =
      replaceFrom piece replacement 0 chars := by
  have filled : ¬piece.isEmpty = true := by simpa using nonempty
  rw [replaceAll, if_neg filled]

/-- Two replacements give the same text when they are the same or when there is
nothing to replace. -/
theorem replaceAll_eq_iff (nonempty : piece ≠ [])
    {left right chars : List Char} :
    replaceAll piece left chars = replaceAll piece right chars ↔
      (piece <:+: chars → left = right) := by
  rw [replaceAll_eq_replaceFrom nonempty, replaceAll_eq_replaceFrom nonempty]
  constructor
  · intro same occurs
    exact replaceFrom_injective nonempty occurs same
  · intro equal
    by_cases occurs : piece <:+: chars
    · rw [equal occurs]
    · rw [replaceFrom_of_absent occurs, replaceFrom_of_absent occurs]

end Deobfuscate.Text
