import Deobfuscate.Proofs.Source.Identifier
import Mathlib.Data.List.TakeWhile

/-!
# The front of declaration lines

A declaration line is indented by whole groups of four spaces or by tabs.  Then
come words with one space after each, and the declared name.  What was put
together in this way is cut again at the same places.
-/

namespace Deobfuscate.Source

open Deobfuscate.Text

/-- A property is checked for the characters of a list, not for all characters
there are. -/
theorem forall_mem_of_all {property : Char → Prop} [DecidablePred property]
    {chars : List Char}
    (checked : (chars.all fun char => decide (property char)) = true) :
    ∀ char ∈ chars, property char := by
  simpa using checked

/-- No range of blanks meets a range of word characters. -/
theorem blankRanges_apart {blanks word : Nat × Nat}
    (inBlanks : blanks ∈ blankRanges) (inWord : word ∈ wordRanges) :
    blanks.2 < word.1 ∨ word.2 < blanks.1 := by
  have checked : (blankRanges.all fun blanks => wordRanges.all fun word =>
      Nat.blt blanks.2 word.1 || Nat.blt word.2 blanks.1) = true := by
    decide +kernel
  have here := List.all_eq_true.1 (List.all_eq_true.1 checked blanks inBlanks)
    word inWord
  rwa [Bool.or_eq_true, Nat.blt_eq, Nat.blt_eq] at here

theorem isBlank_eq_false_of_isWordChar {char : Char}
    (word : isWordChar char = true) : isBlank char = false := by
  by_cases ascii : char.toNat < 128
  · have checked : ∀ code < 128, isWordChar (Char.ofNat code) = true →
        isBlank (Char.ofNat code) = false := by
      decide
    have here := checked char.toNat ascii
    rw [Char.ofNat_toNat] at here
    exact here word
  · rw [isWordChar, if_neg ascii] at word
    obtain ⟨range, inWord, above, below⟩ := CharClass.has_iff.1 word
    by_contra blank
    have isBlank : blankRanges.has char = true := by simpa [isBlank] using blank
    obtain ⟨blanks, inBlanks, least, greatest⟩ := CharClass.has_iff.1 isBlank
    have apart := blankRanges_apart inBlanks inWord
    omega

theorem isBlank_eq_false_of_isTypeChar {char : Char}
    (typed : isTypeChar char = true) : isBlank char = false := by
  simp only [isTypeChar, Bool.or_eq_true, beq_iff_eq] at typed
  rcases typed with (((word | rfl) | rfl) | rfl) | rfl
  · exact isBlank_eq_false_of_isWordChar word
  · decide
  · decide
  · decide
  · decide

theorem isTypeChar_of_isMemberChar {char : Char}
    (member : isMemberChar char = true) : isTypeChar char = true := by
  have word : isWordChar char = true := by
    simp only [isMemberChar, Char.isAlphanum, Bool.or_eq_true] at member
    rcases member with (letter | digit) | underscore
    · exact isWordChar_of_isNameLetter (by simp [isNameLetter, letter])
    · refine isWordChar_of_isDecimal ?_
      have within : char.val ≥ '0'.val ∧ char.val ≤ '9'.val := by
        simpa [Char.isDigit] using digit
      have ascii : char.toNat < 128 :=
        Nat.lt_of_le_of_lt within.2 (by decide)
      rw [isDecimal, if_pos ascii, digit]
    · rw [beq_iff_eq.1 underscore]
      exact isWordChar_underscore
  simp [isTypeChar, word]

/-- Whole groups of four spaces, or tabs. -/
inductive IsIndent : List Char → Prop
  | spaces (more : Nat) : IsIndent (List.replicate (4 * (more + 1)) ' ')
  | tabs (more : Nat) : IsIndent (List.replicate (more + 1) '\t')

theorem IsIndent.eq_or_eq {indent : List Char} (indented : IsIndent indent) :
    (∀ char ∈ indent, char = ' ') ∨ ∀ char ∈ indent, char = '\t' := by
  cases indented with
  | spaces more => exact .inl fun char => List.eq_of_mem_replicate
  | tabs more => exact .inr fun char => List.eq_of_mem_replicate

theorem IsIndent.isBlank {indent : List Char} (indented : IsIndent indent) :
    ∀ char ∈ indent, isBlank char = true := by
  intro char member
  rcases indented.eq_or_eq with spaces | tabs
  · rw [spaces char member]
    decide
  · rw [tabs char member]
    decide

theorem IsIndent.not_mem {indent : List Char} (indented : IsIndent indent)
    {char : Char} (visible : Text.isBlank char = false) : char ∉ indent := by
  intro member
  rw [indented.isBlank char member] at visible
  cases visible

def StartsShown (body : List Char) : Prop :=
  ∃ first rest, body = first :: rest ∧ isBlank first = false

theorem StartsShown.append {body : List Char} (shown : StartsShown body)
    (more : List Char) : StartsShown (body ++ more) := by
  obtain ⟨first, rest, rfl, visible⟩ := shown
  exact ⟨first, rest ++ more, rfl, visible⟩

theorem trimStartChars_indented {indent body : List Char}
    (indented : IsIndent indent) (shown : StartsShown body) :
    trimStartChars (indent ++ body) = body := by
  obtain ⟨first, rest, rfl, visible⟩ := shown
  rw [trimStartChars, List.dropWhile_append_of_pos indented.isBlank,
    List.dropWhile_cons_of_neg (by simp [visible])]

/-- The indentation of a line is found again. -/
theorem splitIndent_append {indent body : List Char}
    (indented : IsIndent indent) (shown : StartsShown body) :
    splitIndent (indent ++ body) = some (indent, body) := by
  obtain ⟨first, rest, rfl, visible⟩ := shown
  have notSpace : (first == ' ') = false := by
    rw [beq_eq_false_iff_ne]
    rintro rfl
    revert visible
    decide
  have notTab : (first == '\t') = false := by
    rw [beq_eq_false_iff_ne]
    rintro rfl
    revert visible
    decide
  unfold splitIndent
  dsimp only
  cases indented with
  | spaces more =>
      have taken : (List.replicate (4 * (more + 1)) ' ' ++
          first :: rest).takeWhile (· == ' ') =
            List.replicate (4 * (more + 1)) ' ' :=
        takeWhile_append_of_head (by simp) (by simpa using notSpace)
      rw [taken]
      simp [List.length_replicate]
  | tabs more =>
      have noSpaces : (List.replicate (more + 1) '\t' ++
          first :: rest).takeWhile (· == ' ') = [] := by
        simp [List.replicate_succ]
      have taken : (List.replicate (more + 1) '\t' ++
          first :: rest).takeWhile (· == '\t') =
            List.replicate (more + 1) '\t' :=
        takeWhile_append_of_head (by simp) (by simpa using notTab)
      rw [noSpaces, taken]
      simp

theorem isIndent_of_splitIndent {line indent body : List Char}
    (split : splitIndent line = some (indent, body)) : IsIndent indent := by
  have replicated : ∀ char : Char, line.takeWhile (· == char) =
      List.replicate (line.takeWhile (· == char)).length char := fun char =>
    List.eq_replicate_iff.2
      ⟨rfl, fun other member => by simpa using List.mem_takeWhile_imp member⟩
  unfold splitIndent at split
  dsimp only at split
  split at split
  · rename_i some
    split at split
    · rename_i grouped
      cases split
      have filled : line.takeWhile (· == ' ') ≠ [] := by simpa using some
      have positive := List.length_pos_iff.2 filled
      obtain ⟨groups, total⟩ := Nat.dvd_of_mod_eq_zero grouped
      obtain ⟨more, rfl⟩ : ∃ more, groups = more + 1 :=
        Nat.exists_eq_succ_of_ne_zero (by rintro rfl; omega)
      rw [replicated ' ', total]
      exact .spaces more
    · cases split
  · split at split
    · rename_i some
      cases split
      have filled : line.takeWhile (· == '\t') ≠ [] := by simpa using some
      have positive := List.length_pos_iff.2 filled
      obtain ⟨more, total⟩ := Nat.exists_eq_succ_of_ne_zero positive.ne'
      rw [replicated '\t', total]
      exact .tabs more
    · cases split

def spaced (words : List (List Char)) : List Char :=
  words.flatMap fun word => word ++ [' ']

theorem spaced_cons (word : List Char) (words : List (List Char)) :
    spaced (word :: words) = word ++ ' ' :: spaced words := by
  simp [spaced]

/-- The characters of a word belong to the word under way. -/
theorem splitWords_word {word : List Char}
    (typed : ∀ char ∈ word, isTypeChar char = true) (count : Nat)
    (start rest : List Char) :
    splitWords count start (word ++ rest) =
      splitWords count (word.reverse ++ start) rest := by
  induction word generalizing start with
  | nil => rfl
  | cons char word inductionHypothesis =>
      obtain ⟨first, later⟩ := List.forall_mem_cons.1 typed
      rw [List.cons_append, splitWords, if_pos first,
        inductionHypothesis later, List.reverse_cons, List.append_assoc,
        List.singleton_append]

/-- A word ends at a space before another word. -/
theorem splitWords_space {start rest : List Char} (count : Nat)
    (filled : start ≠ []) (follows : ∃ next more, rest = next :: more ∧
      isTypeChar next = true) :
    splitWords count start (' ' :: rest) = splitWords (count + 1) [] rest := by
  obtain ⟨next, more, rfl, typed⟩ := follows
  have space : ¬ isTypeChar ' ' = true := by decide
  rw [splitWords, if_neg space, if_pos ⟨rfl, filled, by simpa using typed⟩]

/-- The words before a name and the name are told apart. -/
theorem splitWords_spaced {words : List (List Char)} {name rest : List Char}
    (typed : ∀ word ∈ words, word ≠ [] ∧ ∀ char ∈ word, isTypeChar char = true)
    (filled : name ≠ []) (named : ∀ char ∈ name, isTypeChar char = true)
    (count : Nat) :
    splitWords count [] (spaced words ++ (name ++ '(' :: rest)) =
      (count + words.length, name, '(' :: rest) := by
  induction words generalizing count with
  | nil =>
      have stops : ¬ isTypeChar '(' = true := by decide
      rw [spaced, List.flatMap_nil, List.nil_append, splitWords_word named,
        splitWords, if_neg stops, if_neg (by simp)]
      simp
  | cons word words inductionHypothesis =>
      obtain ⟨⟨wordFilled, wordTyped⟩, later⟩ := List.forall_mem_cons.1 typed
      have follows : ∃ next more,
          spaced words ++ (name ++ '(' :: rest) = next :: more ∧
            isTypeChar next = true := by
        cases words with
        | nil =>
            obtain ⟨next, more, rfl⟩ := List.exists_cons_of_ne_nil filled
            exact ⟨next, more ++ '(' :: rest, rfl, named next (by simp)⟩
        | cons other others =>
            obtain ⟨otherFilled, otherTyped⟩ := later other List.mem_cons_self
            obtain ⟨next, more, rfl⟩ := List.exists_cons_of_ne_nil otherFilled
            exact ⟨next, _, by rw [spaced_cons]; rfl, otherTyped next (by simp)⟩
      rw [spaced_cons, List.append_assoc, splitWords_word wordTyped,
        List.cons_append, splitWords_space _ (by simpa using wordFilled) follows,
        inductionHypothesis later, List.length_cons, Nat.add_right_comm,
        Nat.add_assoc]

end Deobfuscate.Source
