import Deobfuscate.Text.Decimal
import Deobfuscate.Text.Search
import Mathlib.Data.List.Basic

/-!
# Cutting texts that were put together

What is cut at a character or at a piece that was put between two parts are
these parts, if the first one does not have it.  A number that was written in
decimal is read back.
-/

namespace Deobfuscate.Text

theorem splitLast_cases (separator : Char) (chars : List Char) :
    (splitLast separator chars = none ∧ separator ∉ chars) ∨
      ∃ before after, splitLast separator chars = some (before, after) ∧
        chars = before ++ separator :: after := by
  induction chars with
  | nil => exact .inl ⟨rfl, List.not_mem_nil⟩
  | cons char rest inductionHypothesis =>
      rcases inductionHypothesis with ⟨none, absent⟩ | ⟨before, after, cut, whole⟩
      · by_cases here : char = separator
        · exact .inr ⟨[], rest, by rw [splitLast, none]; simp [here],
            by rw [here]; rfl⟩
        · refine .inl ⟨by rw [splitLast, none]; simp [here], ?_⟩
          simp [absent, Ne.symm here]
      · exact .inr ⟨char :: before, after, by rw [splitLast, cut],
          by rw [whole]; rfl⟩

theorem splitOnce_append {separator : Char} {before : List Char}
    (after : List Char) (absent : separator ∉ before) :
    splitOnce separator (before ++ separator :: after) =
      some (before, after) := by
  induction before with
  | nil => simp [splitOnce]
  | cons char rest inductionHypothesis =>
      obtain ⟨different, later⟩ := not_or.1 (mt List.mem_cons.2 absent)
      rw [List.cons_append, splitOnce, if_neg (Ne.symm different),
        inductionHypothesis later]
      rfl

theorem splitLast_append {separator : Char} {after : List Char}
    (before : List Char) (absent : separator ∉ after) :
    splitLast separator (before ++ separator :: after) =
      some (before, after) := by
  induction before with
  | nil =>
      rcases splitLast_cases separator after with
        ⟨none, _⟩ | ⟨start, rest, _, rfl⟩
      · simp [splitLast, none]
      · simp at absent
  | cons char before inductionHypothesis =>
      rw [List.cons_append, splitLast, inductionHypothesis]

/-- A text is cut at the last occurrence: there is none in what follows. -/
theorem splitLast_eq_some {separator : Char} {chars before after : List Char}
    (cut : splitLast separator chars = some (before, after)) :
    chars = before ++ separator :: after ∧ separator ∉ after := by
  induction chars generalizing before with
  | nil => cases cut
  | cons char rest inductionHypothesis =>
      rw [splitLast] at cut
      split at cut
      · rename_i parts found
        cases cut
        obtain ⟨whole, absent⟩ := inductionHypothesis found
        exact ⟨by rw [List.cons_append, ← whole], absent⟩
      · rename_i nowhere
        split at cut
        · rename_i here
          cases cut
          rcases splitLast_cases separator after with
            ⟨_, absent⟩ | ⟨_, _, found, _⟩
          · exact ⟨by rw [here]; rfl, absent⟩
          · rw [nowhere] at found
            cases found
        · cases cut

@[simp]
theorem stripStart_append (piece rest : List Char) :
    stripStart piece (piece ++ rest) = some rest := by
  induction piece with
  | nil => rfl
  | cons char piece inductionHypothesis =>
      rw [List.cons_append, stripStart, if_pos rfl, inductionHypothesis]

theorem stripStart_eq_some {piece chars rest : List Char}
    (stripped : stripStart piece chars = some rest) :
    chars = piece ++ rest := by
  induction piece generalizing chars with
  | nil => exact Option.some.inj stripped
  | cons expected piece inductionHypothesis =>
      cases chars with
      | nil => cases stripped
      | cons char chars =>
          rw [stripStart] at stripped
          split at stripped
          · rename_i same
            rw [inductionHypothesis stripped, same]
            rfl
          · cases stripped

/-- A piece is found behind characters it does not start with. -/
theorem findPiece_append {first : Char} {before : List Char}
    (piece rest : List Char) (absent : first ∉ before) :
    findPiece (first :: piece) (before ++ rest) =
      (findPiece (first :: piece) rest).map fun parts =>
        (before ++ parts.1, parts.2) := by
  induction before with
  | nil => simp
  | cons char before inductionHypothesis =>
      obtain ⟨different, later⟩ := not_or.1 (mt List.mem_cons.2 absent)
      rw [List.cons_append, findPiece, stripStart, if_neg different,
        inductionHypothesis later, Option.map_map]
      rfl

/-- A piece is found where it stands. -/
theorem findPiece_self {first : Char} {piece rest : List Char} :
    findPiece (first :: piece) (first :: piece ++ rest) = some ([], rest) := by
  rw [List.cons_append, findPiece, ← List.cons_append, stripStart_append]

theorem stripStart_eq_none_iff {piece chars : List Char} :
    stripStart piece chars = none ↔ ¬piece <+: chars := by
  constructor
  · rintro none ⟨rest, rfl⟩
    rw [stripStart_append] at none
    cases none
  · intro absent
    rcases found : stripStart piece chars with _ | rest
    · rfl
    · exact absurd ⟨rest, (stripStart_eq_some found).symm⟩ absent

/-- No piece is found just if it does not occur. -/
theorem findLastPiece_eq_none_iff {piece chars : List Char} :
    findLastPiece piece chars = none ↔ ¬piece <:+: chars := by
  induction chars with
  | nil => cases piece <;> simp [findLastPiece]
  | cons char rest inductionHypothesis =>
      rw [findLastPiece, List.infix_cons_iff, not_or, ← inductionHypothesis,
        ← stripStart_eq_none_iff]
      rcases findLastPiece piece rest with _ | parts
      · simp
      · simp

/-- A text is cut at the last occurrence of a piece: no other one begins behind
it. -/
theorem findLastPiece_eq_some {piece chars before after : List Char}
    (found : findLastPiece piece chars = some (before, after)) :
    chars = before ++ piece ++ after ∧
      ∀ front, front ++ piece <+: chars → front.length ≤ before.length := by
  induction chars generalizing before with
  | nil =>
      rw [findLastPiece] at found
      split at found
      · rename_i empty
        cases found
        obtain rfl := List.isEmpty_iff.1 empty
        refine ⟨rfl, fun front occurs => ?_⟩
        simpa using occurs
      · cases found
  | cons char rest inductionHypothesis =>
      rw [findLastPiece] at found
      split at found
      · rename_i parts later
        cases found
        obtain ⟨whole, last⟩ := inductionHypothesis later
        refine ⟨by rw [whole]; rfl, ?_⟩
        rintro (_ | ⟨first, front⟩) occurs
        · exact Nat.zero_le _
        · obtain ⟨_, occurs⟩ := List.cons_prefix_cons.1 occurs
          exact Nat.succ_le_succ (last front occurs)
      · rename_i nowhere
        obtain ⟨rest', stripped, same⟩ := Option.map_eq_some_iff.1 found
        cases same
        refine ⟨stripStart_eq_some stripped, ?_⟩
        rintro (_ | ⟨first, front⟩) occurs
        · exact Nat.le_refl _
        · obtain ⟨_, occurs⟩ := List.cons_prefix_cons.1 occurs
          have inside : piece <:+: rest :=
            (List.suffix_append front piece).isInfix.trans occurs.isInfix
          exact absurd inside (findLastPiece_eq_none_iff.1 nowhere)

/-- A text writes a number in decimal, perhaps behind a plus sign. -/
def Writes (chars : List Char) (number : Nat) : Prop :=
  ∃ digits, (chars = digits ∨ chars = '+' :: digits) ∧ digits ≠ [] ∧
    (∀ digit ∈ digits, digit.isDigit = true) ∧
    Nat.ofDigitChars 10 digits 0 = number

theorem digitsValue_eq_ofDigitChars (digits : List Char) :
    digitsValue digits = Nat.ofDigitChars 10 digits 0 := by
  unfold digitsValue Nat.ofDigitChars
  congr 1
  funext value digit
  rw [Nat.mul_comm]

/-- What is read is the number that is written, if it is below the bound. -/
theorem readBounded_eq_some_iff {bound number : Nat} {chars : List Char} :
    readBounded bound chars = some number ↔
      Writes chars number ∧ number < bound := by
  have checked : ∀ digits : List Char,
      (if digits.isEmpty || !digits.all Char.isDigit then none
        else if digitsValue digits < bound then some (digitsValue digits)
        else none) = some number ↔
      (digits ≠ [] ∧ (∀ digit ∈ digits, digit.isDigit = true) ∧
        Nat.ofDigitChars 10 digits 0 = number) ∧ number < bound := by
    intro digits
    rw [digitsValue_eq_ofDigitChars]
    grind
  unfold readBounded
  split
  · rename_i rest
    rw [checked]
    refine and_congr_left fun _ => ⟨fun written => ⟨rest, .inr rfl, written⟩, ?_⟩
    rintro ⟨digits, rfl | same, written⟩
    · exact absurd (written.2.1 '+' List.mem_cons_self) (by decide)
    · rwa [(List.cons.inj same).2]
  · rename_i unsigned
    rw [checked]
    refine and_congr_left fun _ => ⟨fun written => ⟨chars, .inl rfl, written⟩, ?_⟩
    rintro ⟨digits, rfl | rfl, written⟩
    · exact written
    · exact absurd rfl (unsigned digits)

theorem isDigit_of_mem_repr {number : Nat} {char : Char}
    (member : char ∈ number.repr.toList) : char.isDigit = true := by
  rw [Nat.repr_eq_ofList_toDigits, String.toList_ofList] at member
  exact Nat.isDigit_of_mem_toDigits (by decide) (by decide) member

/-- A number that was written is read back if it is below the bound. -/
theorem readBounded_repr {bound number : Nat} (below : number < bound) :
    readBounded bound number.repr.toList = some number := by
  refine readBounded_eq_some_iff.2 ⟨⟨_, .inl rfl, ?_, ?_, ?_⟩, below⟩
  · rw [Nat.repr_eq_ofList_toDigits, String.toList_ofList]
    simp
  · exact fun digit member => isDigit_of_mem_repr member
  · rw [Nat.repr_eq_ofList_toDigits, String.toList_ofList]
    exact Nat.ofDigitChars_toDigits (by decide) (by decide)

theorem lt_of_readBounded {bound number : Nat} {chars : List Char}
    (read : readBounded bound chars = some number) : number < bound :=
  (readBounded_eq_some_iff.1 read).2

end Deobfuscate.Text
