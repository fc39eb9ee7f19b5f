import Deobfuscate.Proofs.Text.Search
import Deobfuscate.Source.Renamer
import Mathlib.Data.List.TakeWhile

/-!
# The parameters of a declaration line

The parameter list of a line goes from its first parenthesis to the one that
closes it, and is cut at the commas outside brackets.  The type of a parameter
ends at a space outside angle brackets that does not follow `final`.

The search for that space does not stop at the end of the parameter.  So type
arguments come behind the parameter, or behind the list, if the parameter has no
such space.
-/

namespace Deobfuscate.Source

open Deobfuscate.Text

/-- The number of open angle brackets after one more character. -/
def angle (depth : Nat) (char : Char) : Nat :=
  if char = '<' then depth + 1
  else if char = '>' then depth - 1
  else depth

/-- The number of open brackets after one more character. -/
def bracket (depth : Nat) (char : Char) : Nat :=
  if char = '(' ∨ char = '<' then depth + 1
  else if char = ')' ∨ char = '>' then depth - 1
  else depth

/-- The number of open parentheses after one more character. -/
def parenthesis (depth : Nat) (char : Char) : Nat :=
  if char = '(' then depth + 1
  else if char = ')' then depth - 1
  else depth

def untilClosed : Nat → List Char → List Char
  | _, [] => []
  | depth, char :: rest =>
      if char = ')' ∧ depth = 0 then []
      else char :: untilClosed (parenthesis depth char) rest

/-- The pieces of a text between the commas outside brackets. -/
def splitParameters : Nat → List Char → List (List Char)
  | _, [] => [[]]
  | depth, char :: rest =>
      if char = ',' ∧ depth = 0 then [] :: splitParameters 0 rest
      else (splitParameters (bracket depth char) rest).modifyHead (char :: ·)

/-- The parameters of a line.  An empty list has one, the empty one. -/
def parametersOf (line : List Char) : List (List Char) :=
  match splitOnce '(' line with
  | some (_, list) => splitParameters 0 (untilClosed 0 list)
  | none => []

theorem untilClosed_append (depth : Nat) (chars : List Char) :
    ∃ closing, chars = untilClosed depth chars ++ closing ∧
      (closing = [] ∨ ∃ tail, closing = ')' :: tail) := by
  induction chars generalizing depth with
  | nil => exact ⟨[], rfl, .inl rfl⟩
  | cons char rest inductionHypothesis =>
      rw [untilClosed]
      split
      · rename_i closes
        exact ⟨char :: rest, rfl, .inr ⟨rest, by rw [closes.1]⟩⟩
      · obtain ⟨closing, whole, ends⟩ :=
          inductionHypothesis (parenthesis depth char)
        exact ⟨closing, congrArg (char :: ·) whole, ends⟩

/-- What follows a text goes on with its last piece. -/
theorem splitParameters_append (depth : Nat) (chars : List Char) :
    ∃ pieces last, splitParameters depth chars = pieces ++ [last] ∧
      ∀ rest, splitParameters depth (chars ++ rest) =
        pieces ++ (splitParameters (chars.foldl bracket depth) rest).modifyHead
          (last ++ ·) := by
  induction chars generalizing depth with
  | nil =>
      refine ⟨[], [], rfl, fun rest => ?_⟩
      rw [List.nil_append, List.nil_append, List.foldl_nil]
      cases splitParameters depth rest <;> rfl
  | cons char chars inductionHypothesis =>
      by_cases cuts : char = ',' ∧ depth = 0
      · obtain ⟨pieces, last, whole, goesOn⟩ := inductionHypothesis 0
        have still : bracket depth char = 0 := by
          rw [cuts.1, cuts.2]
          rfl
        refine ⟨[] :: pieces, last, ?_, fun rest => ?_⟩
        · rw [splitParameters, if_pos cuts, whole]
          rfl
        · rw [List.cons_append, splitParameters, if_pos cuts, goesOn,
            List.foldl_cons, still]
          rfl
      · obtain ⟨pieces, last, whole, goesOn⟩ :=
          inductionHypothesis (bracket depth char)
        have step : ∀ rest, splitParameters depth (char :: rest) =
            (splitParameters (bracket depth char) rest).modifyHead
              (char :: ·) := by
          intro rest
          rw [splitParameters, if_neg cuts]
        cases pieces with
        | nil =>
            refine ⟨[], char :: last, ?_, fun rest => ?_⟩
            · rw [step, whole]
              rfl
            · rw [List.cons_append, step, goesOn, List.foldl_cons]
              cases splitParameters (chars.foldl bracket (bracket depth char))
                rest <;> rfl
        | cons piece pieces =>
            refine ⟨(char :: piece) :: pieces, last, ?_, fun rest => ?_⟩
            · rw [step, whole]
              rfl
            · rw [List.cons_append, step, goesOn]
              rfl

theorem length_splitParameters_pos (depth : Nat) (chars : List Char) :
    0 < (splitParameters depth chars).length := by
  obtain ⟨pieces, last, whole, _⟩ := splitParameters_append depth chars
  rw [whole, List.length_append]
  exact Nat.lt_add_left _ Nat.one_pos

theorem splitParameters_eq_cons (depth : Nat) (chars : List Char) :
    ∃ first others, splitParameters depth chars = first :: others :=
  List.exists_cons_of_length_pos (length_splitParameters_pos depth chars)

theorem length_splitParameters_append (depth : Nat) (chars rest : List Char) :
    (splitParameters depth (chars ++ rest)).length + 1 =
      (splitParameters depth chars).length +
        (splitParameters (chars.foldl bracket depth) rest).length := by
  obtain ⟨pieces, last, whole, goesOn⟩ := splitParameters_append depth chars
  rw [whole, goesOn, List.length_append, List.length_append,
    List.length_modifyHead, List.length_singleton]
  omega

theorem length_splitParameters_le {depth : Nat} {start chars : List Char}
    (isStart : start <+: chars) :
    (splitParameters depth start).length ≤
      (splitParameters depth chars).length := by
  obtain ⟨rest, rfl⟩ := isStart
  have total := length_splitParameters_append depth start rest
  have more :=
    length_splitParameters_pos (start.foldl bracket depth) rest
  omega

/-- A text with one piece is that piece. -/
theorem splitParameters_of_length_eq_one {depth : Nat} {chars : List Char}
    (one : (splitParameters depth chars).length = 1) :
    splitParameters depth chars = [chars] := by
  induction chars generalizing depth with
  | nil => rfl
  | cons char chars inductionHypothesis =>
      rw [splitParameters] at one ⊢
      split at one
      · have more := length_splitParameters_pos 0 chars
        rw [List.length_cons] at one
        omega
      · rename_i inside
        rw [List.length_modifyHead] at one
        rw [if_neg inside, inductionHypothesis one]
        rfl

/-- The first piece stands at the start of the text. -/
theorem splitParameters_first {depth : Nat} {chars own : List Char}
    {others : List (List Char)}
    (pieces : splitParameters depth chars = own :: others) :
    own <+: chars ∧ (splitParameters depth own).length = 1 := by
  induction chars generalizing depth own others with
  | nil =>
      obtain ⟨rfl, _⟩ := List.cons.inj pieces
      exact ⟨List.prefix_refl _, rfl⟩
  | cons char chars inductionHypothesis =>
      rw [splitParameters] at pieces
      split at pieces
      · obtain ⟨rfl, _⟩ := List.cons.inj pieces
        exact ⟨List.nil_prefix, rfl⟩
      · rename_i inside
        obtain ⟨first, rest, later⟩ :=
          splitParameters_eq_cons (bracket depth char) chars
        rw [later] at pieces
        obtain ⟨rfl, _⟩ := List.cons.inj pieces
        obtain ⟨isStart, one⟩ := inductionHypothesis later
        refine ⟨(List.prefix_cons_inj char).2 isStart, ?_⟩
        rw [splitParameters, if_neg inside, List.length_modifyHead, one]

/-- A text with one piece goes on with what is no comma. -/
theorem splitParameters_append_cons {depth : Nat} {chars : List Char}
    {char : Char} (rest : List Char)
    (one : (splitParameters depth chars).length = 1) (goesOn : char ≠ ',') :
    ∃ more others, splitParameters depth (chars ++ char :: rest) =
      (chars ++ char :: more) :: others := by
  obtain ⟨pieces, last, whole, follows⟩ := splitParameters_append depth chars
  rw [splitParameters_of_length_eq_one one] at whole
  obtain ⟨rfl, rfl⟩ : [] = pieces ∧ chars = last := by
    cases pieces with
    | nil => exact ⟨rfl, (List.cons.inj whole).1⟩
    | cons piece pieces => simp at whole
  obtain ⟨more, others, later⟩ := splitParameters_eq_cons
    (bracket (chars.foldl bracket depth) char) rest
  refine ⟨more, others, ?_⟩
  rw [follows, splitParameters, if_neg (fun cuts => goesOn cuts.1), later]
  rfl

/-! ## Passing over parameters -/

theorem skipParameters_cons (count depth : Nat) (char : Char)
    (rest : List Char) :
    skipParameters (count + 1) depth (char :: rest) =
      if char = ')' ∧ depth = 0 then none
      else if char = ',' ∧ depth = 0 then skipParameters count 0 rest
      else skipParameters (count + 1) (bracket depth char) rest := by
  rw [skipParameters, bracket]
  by_cases opens : char = '(' ∨ char = '<'
  · have noClosing : char ≠ ')' ∧ char ≠ ',' := by
      rcases opens with rfl | rfl <;> decide
    simp [opens, noClosing]
  · by_cases closes : char = ')' ∧ depth = 0
    · simp [closes]
    · by_cases ends : char = ')' ∨ char = '>'
      · have noComma : char ≠ ',' := by
          rcases ends with rfl | rfl <;> decide
        simp [opens, closes, ends, noComma]
      · simp [opens, closes, ends]

/-- `count + 1` parameters, the last one without the comma behind it, that close
all brackets and no parenthesis that is not open. -/
structure IsPassed (depth count : Nat) (front : List Char) : Prop where
  closed : front.foldl bracket depth = 0
  pieces : (splitParameters depth front).length = count + 1
  opened : ∀ before after, front = before ++ ')' :: after →
    0 < before.foldl bracket depth

theorem isPassed_nil_iff {depth count : Nat} :
    IsPassed depth count [] ↔ depth = 0 ∧ count = 0 := by
  constructor
  · intro passed
    exact ⟨passed.closed, (Nat.succ.inj passed.pieces).symm⟩
  · rintro ⟨rfl, rfl⟩
    exact ⟨rfl, rfl, by simp⟩

theorem IsPassed.of_cons {depth count : Nat} {char : Char}
    {front : List Char} (passed : IsPassed depth count (char :: front)) :
    ¬ (char = ')' ∧ depth = 0) ∧
      ∀ before after, front = before ++ ')' :: after →
        0 < before.foldl bracket (bracket depth char) := by
  constructor
  · rintro ⟨rfl, rfl⟩
    exact absurd (passed.opened [] front rfl) (Nat.lt_irrefl 0)
  · intro before after whole
    exact passed.opened (char :: before) after (by rw [whole]; rfl)

theorem isPassed_cons {depth count : Nat} {char : Char} {front : List Char}
    (closed : front.foldl bracket (bracket depth char) = 0)
    (pieces : (splitParameters depth (char :: front)).length = count + 1)
    (first : ¬ (char = ')' ∧ depth = 0))
    (later : ∀ before after, front = before ++ ')' :: after →
      0 < before.foldl bracket (bracket depth char)) :
    IsPassed depth count (char :: front) := by
  refine ⟨closed, pieces, ?_⟩
  intro before after whole
  cases before with
  | nil =>
      obtain ⟨rfl, _⟩ := List.cons.inj whole
      exact Nat.pos_of_ne_zero fun none => first ⟨rfl, none⟩
  | cons start before =>
      obtain ⟨rfl, rest⟩ := List.cons.inj whole
      exact later before after rest

theorem isPassed_cons_iff {depth count : Nat} {char : Char}
    {front : List Char} :
    IsPassed depth count (char :: front) ↔
      ¬ (char = ')' ∧ depth = 0) ∧
        if char = ',' ∧ depth = 0 then
          ∃ fewer, count = fewer + 1 ∧ IsPassed 0 fewer front
        else IsPassed (bracket depth char) count front := by
  by_cases cuts : char = ',' ∧ depth = 0
  · obtain ⟨rfl, rfl⟩ := cuts
    have cut : ∀ pieces, (splitParameters 0 (',' :: front)).length = pieces ↔
        (splitParameters 0 front).length + 1 = pieces := by
      intro pieces
      rw [splitParameters, if_pos ⟨rfl, rfl⟩, List.length_cons]
    rw [if_pos ⟨rfl, rfl⟩]
    constructor
    · intro passed
      obtain ⟨first, later⟩ := passed.of_cons
      have pieces := (cut _).1 passed.pieces
      have positive := length_splitParameters_pos 0 front
      exact ⟨first, count - 1, by omega, passed.closed, by omega, later⟩
    · rintro ⟨first, fewer, rfl, passed⟩
      exact isPassed_cons passed.closed
        ((cut _).2 (by rw [passed.pieces])) first passed.opened
  · have inside : (splitParameters depth (char :: front)).length =
        (splitParameters (bracket depth char) front).length := by
      rw [splitParameters, if_neg cuts, List.length_modifyHead]
    rw [if_neg cuts]
    constructor
    · intro passed
      obtain ⟨first, later⟩ := passed.of_cons
      exact ⟨first, passed.closed, inside ▸ passed.pieces, later⟩
    · rintro ⟨first, passed⟩
      exact isPassed_cons passed.closed (inside.trans passed.pieces) first
        passed.opened

/-- What is left after passing over parameters follows the comma behind
them. -/
theorem skipParameters_eq_some_iff {count depth : Nat}
    {chars rest : List Char} :
    skipParameters (count + 1) depth chars = some rest ↔
      ∃ front, chars = front ++ ',' :: rest ∧ IsPassed depth count front := by
  induction chars generalizing count depth with
  | nil => simp [skipParameters]
  | cons char chars inductionHypothesis =>
      -- Either the comma comes first, or the first character is passed over.
      have first : (∃ front, char :: chars = front ++ ',' :: rest ∧
            IsPassed depth count front) ↔
          (char = ',' ∧ chars = rest ∧ depth = 0 ∧ count = 0) ∨
            ∃ front, chars = front ++ ',' :: rest ∧
              IsPassed depth count (char :: front) := by
        constructor
        · rintro ⟨front, whole, passed⟩
          cases front with
          | nil =>
              obtain ⟨rfl, rfl⟩ := List.cons.inj whole
              exact .inl ⟨rfl, rfl, isPassed_nil_iff.1 passed⟩
          | cons start front =>
              obtain ⟨rfl, later⟩ := List.cons.inj whole
              exact .inr ⟨front, later, passed⟩
        · rintro (⟨rfl, rfl, none⟩ | ⟨front, rfl, passed⟩)
          · exact ⟨[], rfl, isPassed_nil_iff.2 none⟩
          · exact ⟨char :: front, rfl, passed⟩
      rw [skipParameters_cons, first]
      simp only [isPassed_cons_iff]
      by_cases closes : char = ')' ∧ depth = 0
      · obtain ⟨rfl, rfl⟩ := closes
        simp
      · rw [if_neg closes]
        by_cases cuts : char = ',' ∧ depth = 0
        · obtain ⟨rfl, rfl⟩ := cuts
          cases count with
          | zero => simp [skipParameters]
          | succ count => simp [inductionHypothesis]
        · rw [if_neg cuts, inductionHypothesis]
          have noComma : ¬ (char = ',' ∧ chars = rest ∧ depth = 0 ∧ count = 0) :=
            fun here => cuts ⟨here.1, here.2.2.1⟩
          simp [closes, cuts, noComma]

/-- The first parameters of a list with the commas behind them. -/
inductive IsSkipped : Nat → List Char → Prop
  | nothing : IsSkipped 0 []
  | through {count : Nat} {front : List Char}
      (passed : IsPassed 0 count front) : IsSkipped (count + 1) (front ++ [','])

theorem skipParameters_iff {index : Nat} {chars rest : List Char} :
    skipParameters index 0 chars = some rest ↔
      ∃ skipped, chars = skipped ++ rest ∧ IsSkipped index skipped := by
  cases index with
  | zero =>
      rw [skipParameters]
      constructor
      · intro same
        exact ⟨[], Option.some.inj same, .nothing⟩
      · rintro ⟨skipped, rfl, isSkipped⟩
        cases isSkipped
        rfl
  | succ count =>
      rw [skipParameters_eq_some_iff]
      constructor
      · rintro ⟨front, rfl, passed⟩
        exact ⟨front ++ [','], by simp, .through passed⟩
      · rintro ⟨skipped, rfl, isSkipped⟩
        cases isSkipped with
        | through passed => exact ⟨_, by simp, passed⟩

/-- The pieces of a list are those passed over and those of the rest. -/
theorem IsSkipped.pieces_append {index : Nat} {skipped : List Char}
    (isSkipped : IsSkipped index skipped) :
    ∃ pieces : List (List Char), pieces.length = index ∧
      ∀ rest, splitParameters 0 (skipped ++ rest) =
        pieces ++ splitParameters 0 rest := by
  cases isSkipped with
  | nothing => exact ⟨[], rfl, fun rest => rfl⟩
  | @through count front passed =>
      obtain ⟨pieces, last, whole, goesOn⟩ := splitParameters_append 0 front
      have length := passed.pieces
      rw [whole] at length
      refine ⟨pieces ++ [last], length, fun rest => ?_⟩
      rw [List.append_assoc, goesOn, passed.closed, List.singleton_append,
        splitParameters, if_pos ⟨rfl, rfl⟩]
      simp

/-- A start of what is passed over has no piece of the index. -/
theorem IsSkipped.length_le {index : Nat} {start more : List Char}
    (isSkipped : IsSkipped index (start ++ more)) (longer : more ≠ []) :
    (splitParameters 0 start).length ≤ index := by
  generalize whole : start ++ more = skipped at isSkipped
  cases isSkipped with
  | nothing => exact absurd (List.append_eq_nil_iff.1 whole).2 longer
  | @through count front passed =>
      have isStart : start <+: front := by
        rw [← List.dropLast_append_getLast longer, ← List.append_assoc] at whole
        obtain ⟨same, _⟩ := List.append_inj' whole rfl
        exact ⟨_, same⟩
      exact passed.pieces ▸ length_splitParameters_le isStart

/-! ## The end of a type -/

def endsType (start : List Char) (depth : Nat) (type : List Char) : Bool :=
  type.foldl angle depth == 0 &&
    !endsWith "final".toList (trimEndChars (start ++ type))

theorem endsType_cons (start : List Char) (depth : Nat) (char : Char)
    (type : List Char) :
    endsType start depth (char :: type) =
      endsType (start ++ [char]) (angle depth char) type := by
  rw [endsType, endsType, List.foldl_cons, List.append_assoc,
    List.singleton_append]

theorem splitTypeEnd_cons (start : List Char) (depth : Nat) (char : Char)
    (rest : List Char) :
    splitTypeEnd start.reverse depth (char :: rest) =
      if char = ' ' ∧ endsType start depth [] = true then
        some (start, char :: rest)
      else splitTypeEnd (start ++ [char]).reverse (angle depth char) rest := by
  rw [splitTypeEnd, List.reverse_reverse, List.reverse_append,
    List.reverse_singleton, List.singleton_append, angle, endsType,
    List.foldl_nil, List.append_nil]
  generalize endsWith "final".toList (trimEndChars start) = final
  by_cases opens : char = '<'
  · have noSpace : char ≠ ' ' := by
      rw [opens]
      decide
    simp [opens]
  · by_cases closes : char = '>'
    · simp [closes]
    · by_cases space : char = ' ' ∧ depth = 0
      · obtain ⟨rfl, rfl⟩ := space
        cases final <;> simp
      · by_cases here : char = ' '
        · have inside : depth ≠ 0 := fun none => space ⟨here, none⟩
          simp [here, inside]
        · simp [opens, closes, here]

/-- A line is cut before the first space where the type may end. -/
theorem splitTypeEnd_eq_some_iff {start : List Char} {depth : Nat}
    {rest before after : List Char} :
    splitTypeEnd start.reverse depth rest = some (before, after) ↔
      ∃ type more, rest = type ++ ' ' :: more ∧ before = start ++ type ∧
        after = ' ' :: more ∧ endsType start depth type = true ∧
        ∀ shorter between, type = shorter ++ ' ' :: between →
          endsType start depth shorter = false := by
  induction rest generalizing start depth with
  | nil => simp [splitTypeEnd]
  | cons char rest inductionHypothesis =>
      rw [splitTypeEnd_cons]
      by_cases here : char = ' ' ∧ endsType start depth [] = true
      · obtain ⟨rfl, ends⟩ := here
        rw [if_pos ⟨rfl, ends⟩]
        constructor
        · intro found
          obtain ⟨rfl, rfl⟩ := Prod.mk.inj (Option.some.inj found)
          exact ⟨[], rest, rfl, (List.append_nil _).symm, rfl, ends, by simp⟩
        · rintro ⟨type, more, whole, rfl, rfl, _, least⟩
          cases type with
          | nil => rw [List.append_nil, whole, List.nil_append]
          | cons first type =>
              obtain ⟨rfl, _⟩ := List.cons.inj whole
              rw [least [] type rfl] at ends
              cases ends
      · rw [if_neg here, inductionHypothesis]
        constructor
        · rintro ⟨type, more, rfl, rfl, rfl, ends, least⟩
          refine ⟨char :: type, more, rfl, by simp, rfl,
            by rw [endsType_cons, ends], ?_⟩
          intro shorter between whole
          cases shorter with
          | nil =>
              obtain ⟨rfl, _⟩ := List.cons.inj whole
              simpa using here
          | cons first shorter =>
              obtain ⟨rfl, later⟩ := List.cons.inj whole
              rw [endsType_cons]
              exact least shorter between later
        · rintro ⟨type, more, whole, rfl, rfl, ends, least⟩
          cases type with
          | nil =>
              obtain ⟨rfl, _⟩ := List.cons.inj whole
              exact absurd ⟨rfl, ends⟩ here
          | cons first type =>
              obtain ⟨rfl, rfl⟩ := List.cons.inj whole
              refine ⟨type, more, rfl, by simp, rfl,
                by rw [← endsType_cons, ends], ?_⟩
              intro shorter between later
              rw [← endsType_cons]
              exact least (char :: shorter) between (by rw [later]; rfl)

/-- The blanks at the end of a text reach no further than a mark in it. -/
theorem trimEndChars_append {mark : Char} (before own : List Char)
    (shown : isBlank mark = false) :
    trimEndChars (before ++ mark :: own) =
      before ++ mark :: trimEndChars own := by
  have backward : (before ++ mark :: own).reverse =
      own.reverse ++ mark :: before.reverse := by
    simp
  have stops : (mark :: before.reverse).dropWhile isBlank =
      mark :: before.reverse :=
    List.dropWhile_cons_of_neg (by simp [shown])
  unfold trimEndChars
  rw [backward, List.dropWhile_append, stops]
  split
  · rename_i none
    rw [List.isEmpty_iff.1 none]
    simp
  · simp

/-- A mark that is neither blank nor a letter of the word keeps the word at the
end of a text apart from what comes before. -/
theorem endsWith_trimEndChars_append {word : List Char} {mark : Char}
    (before own : List Char) (shown : isBlank mark = false)
    (apart : mark ∉ word) :
    endsWith word (trimEndChars (before ++ mark :: own)) =
      endsWith word (trimEndChars own) := by
  have isEnd : mark :: trimEndChars own <:+
      before ++ mark :: trimEndChars own :=
    List.suffix_append _ _
  rw [trimEndChars_append before own shown, endsWith, endsWith,
    Bool.eq_iff_iff, List.isSuffixOf_iff_suffix, List.isSuffixOf_iff_suffix]
  constructor
  · intro ends
    by_cases longer : word.length ≤ (trimEndChars own).length
    · exact List.suffix_of_suffix_length_le ends
        ((List.suffix_cons _ _).trans isEnd) longer
    · have within : mark :: trimEndChars own <:+ word :=
        List.suffix_of_suffix_length_le isEnd ends (by
          rw [List.length_cons]
          omega)
      exact absurd (within.subset List.mem_cons_self) apart
  · intro ends
    exact (ends.trans (List.suffix_cons _ _)).trans isEnd

/-- What stands before a parameter does not make it end in `final`. -/
theorem IsSkipped.endsWith_final {index : Nat} {skipped : List Char}
    (isSkipped : IsSkipped index skipped) (head own : List Char) :
    endsWith "final".toList
        (trimEndChars (head ++ '(' :: skipped ++ own)) =
      endsWith "final".toList (trimEndChars own) := by
  cases isSkipped with
  | nothing =>
      rw [List.append_assoc, List.cons_append, List.nil_append]
      exact endsWith_trimEndChars_append head own (by decide) (by decide)
  | @through count front passed =>
      have lastComma : head ++ '(' :: (front ++ [',']) ++ own =
          (head ++ '(' :: front) ++ ',' :: own := by
        simp
      rw [lastComma]
      exact endsWith_trimEndChars_append _ own (by decide) (by decide)

theorem splitParameterType_eq {line head skipped rest : List Char}
    {index : Nat}
    (opened : splitOnce '(' line = some (head, skipped ++ rest))
    (isSkipped : IsSkipped index skipped) :
    splitParameterType line index =
      splitTypeEnd
        (head ++ '(' :: skipped ++ rest.takeWhile isAsciiBlank).reverse 0
        (rest.dropWhile isAsciiBlank) := by
  have passed : skipParameters index 0 (skipped ++ rest) = some rest :=
    skipParameters_iff.2 ⟨skipped, rfl, isSkipped⟩
  have whole : line = head ++ '(' :: skipped ++ rest.takeWhile isAsciiBlank ++
      rest.dropWhile isAsciiBlank := by
    rw [List.append_assoc, List.takeWhile_append_dropWhile,
      (splitOnce_eq_some opened).1]
    simp
  have taken : line.take (line.length - (rest.dropWhile isAsciiBlank).length) =
      head ++ '(' :: skipped ++ rest.takeWhile isAsciiBlank := by
    rw [whole, List.length_append, Nat.add_sub_cancel, List.take_left]
  unfold splitParameterType
  rw [opened]
  simp only [Option.bind_eq_bind, Option.bind_some, passed, taken]

theorem foldl_angle_blanks {blanks : List Char} (depth : Nat)
    (blank : ∀ char ∈ blanks, isAsciiBlank char = true) :
    blanks.foldl angle depth = depth := by
  induction blanks with
  | nil => rfl
  | cons char blanks inductionHypothesis =>
      have first := blank char List.mem_cons_self
      have still : angle depth char = depth := by
        have noAngle : char ≠ '<' ∧ char ≠ '>' := by
          constructor
          · rintro rfl
            exact absurd first (by decide)
          · rintro rfl
            exact absurd first (by decide)
        simp [angle, noAngle]
      rw [List.foldl_cons, still]
      exact inductionHypothesis fun other member =>
        blank other (List.mem_cons_of_mem _ member)

/-- A text that a type may be: it is not only blanks, closes its angle brackets
and does not end in `final`. -/
structure IsType (type : List Char) : Prop where
  shown : ∃ char ∈ type, isAsciiBlank char = false
  closed : type.foldl angle 0 = 0
  notFinal : endsWith "final".toList (trimEndChars type) = false

/-- A parameter has a type, which a space follows. -/
def HasType (own : List Char) : Prop :=
  ∃ type more, own = type ++ ' ' :: more ∧ IsType type

/-- Blanks before a type end where it starts. -/
theorem dropWhile_append_of_exists {inClass : Char → Bool}
    {chars : List Char} (rest : List Char)
    (stops : ∃ char ∈ chars, inClass char = false) :
    (chars ++ rest).takeWhile inClass = chars.takeWhile inClass ∧
      (chars ++ rest).dropWhile inClass = chars.dropWhile inClass ++ rest := by
  induction chars with
  | nil => simp at stops
  | cons char chars inductionHypothesis =>
      by_cases here : inClass char = true
      · obtain ⟨other, member, stop⟩ := stops
        have later : ∃ char ∈ chars, inClass char = false := by
          rcases List.mem_cons.1 member with rfl | member
          · rw [here] at stop
            cases stop
          · exact ⟨other, member, stop⟩
        obtain ⟨taken, dropped⟩ := inductionHypothesis later
        simp [here, taken, dropped]
      · simp [here]

/-- What stands between blanks and a space is not only blanks. -/
theorem exists_shown_of_dropWhile {rest type : List Char} (more : List Char)
    (dropped : rest.dropWhile isAsciiBlank = type ++ ' ' :: more) :
    ∃ char ∈ type, isAsciiBlank char = false := by
  have stopped := List.head?_dropWhile_not isAsciiBlank rest
  rw [dropped] at stopped
  cases type with
  | nil => simp [isAsciiBlank] at stopped
  | cons char type => exact ⟨char, List.mem_cons_self, by simpa using stopped⟩

/-- Where a type may end behind blanks. -/
theorem IsSkipped.endsType_iff {index : Nat} {skipped blanks type : List Char}
    (isSkipped : IsSkipped index skipped) (head : List Char)
    (blank : ∀ char ∈ blanks, isAsciiBlank char = true)
    (shown : ∃ char ∈ type, isAsciiBlank char = false) :
    endsType (head ++ '(' :: skipped ++ blanks) 0 type = true ↔
      IsType (blanks ++ type) := by
  have closed : (blanks ++ type).foldl angle 0 = type.foldl angle 0 := by
    rw [List.foldl_append, foldl_angle_blanks 0 blank]
  rw [endsType, List.append_assoc, isSkipped.endsWith_final head,
    Bool.and_eq_true, beq_iff_eq, Bool.not_eq_true', ← closed]
  obtain ⟨char, member, visible⟩ := shown
  exact ⟨fun ends =>
      ⟨⟨char, List.mem_append_right _ member, visible⟩, ends.1, ends.2⟩,
    fun isType => ⟨isType.closed, isType.notFinal⟩⟩

/-- A line is cut behind the parameters passed over and the shortest type that a
space follows. -/
theorem splitParameterType_eq_some_iff
    {line head skipped rest before after : List Char} {index : Nat}
    (opened : splitOnce '(' line = some (head, skipped ++ rest))
    (isSkipped : IsSkipped index skipped) :
    splitParameterType line index = some (before, after) ↔
      ∃ type more, rest = type ++ ' ' :: more ∧
        before = head ++ '(' :: skipped ++ type ∧ after = ' ' :: more ∧
        IsType type ∧ ∀ shorter between, type = shorter ++ ' ' :: between →
          ¬ IsType shorter := by
  have blank : ∀ char ∈ rest.takeWhile isAsciiBlank,
      isAsciiBlank char = true :=
    fun char => List.mem_takeWhile_imp
  have splitRest : rest =
      rest.takeWhile isAsciiBlank ++ rest.dropWhile isAsciiBlank :=
    List.takeWhile_append_dropWhile.symm
  rw [splitParameterType_eq opened isSkipped, splitTypeEnd_eq_some_iff]
  constructor
  · rintro ⟨type, more, dropped, rfl, rfl, ends, least⟩
    have shown := exists_shown_of_dropWhile more dropped
    refine ⟨rest.takeWhile isAsciiBlank ++ type, more, ?_, ?_, rfl,
      (isSkipped.endsType_iff head blank shown).1 ends, ?_⟩
    · rw [List.append_assoc, ← dropped]
      exact splitRest
    · rw [List.append_assoc]
    · intro shorter between whole isType
      rcases List.append_eq_append_iff.1 whole with
        ⟨inner, rfl, later⟩ | ⟨inner, early, _⟩
      · have inShorter : ∃ char ∈ inner, isAsciiBlank char = false :=
          exists_shown_of_dropWhile (between ++ ' ' :: more)
            (by rw [dropped, later]; simp)
        have last := (isSkipped.endsType_iff head blank inShorter).2 isType
        rw [least inner between later] at last
        cases last
      · obtain ⟨char, member, visible⟩ := isType.shown
        rw [blank char (by rw [early]; exact List.mem_append_left _ member)]
          at visible
        cases visible
  · rintro ⟨type, more, rfl, rfl, rfl, isType, least⟩
    obtain ⟨taken, dropped⟩ :=
      dropWhile_append_of_exists (' ' :: more) isType.shown
    have splitType : type.takeWhile isAsciiBlank ++
        type.dropWhile isAsciiBlank = type :=
      List.takeWhile_append_dropWhile
    refine ⟨type.dropWhile isAsciiBlank, more, dropped, ?_, rfl, ?_, ?_⟩
    · rw [taken, List.append_assoc (head ++ '(' :: skipped), splitType]
    · refine (isSkipped.endsType_iff head blank
        (exists_shown_of_dropWhile more dropped)).2 ?_
      rwa [taken, splitType]
    · intro shorter between whole
      have inShorter : ∃ char ∈ shorter, isAsciiBlank char = false :=
        exists_shown_of_dropWhile (between ++ ' ' :: more)
          (by rw [dropped, whole]; simp)
      refine Bool.eq_false_iff.2 fun ends => ?_
      refine least _ between ?_
        ((isSkipped.endsType_iff head blank inShorter).1 ends)
      rw [taken, List.append_assoc, ← whole, splitType]

/-! ## Inside a parameter -/

/-- A position of a line is in a parameter: it is before the end of the list, and
as many commas outside brackets stand before it. -/
def InParameter (line : List Char) (index : Nat) (before : List Char) : Prop :=
  ∃ head list inside, splitOnce '(' line = some (head, list) ∧
    before = head ++ '(' :: inside ∧ inside <+: untilClosed 0 list ∧
    (splitParameters 0 inside).length = index + 1

/-- All brackets of the parameter list of a line are closed where it ends, unless
the line ends before. -/
def ListCloses (line : List Char) : Prop :=
  ∀ head list, splitOnce '(' line = some (head, list) →
    untilClosed 0 list = list ∨ (untilClosed 0 list).foldl bracket 0 = 0

theorem parametersOf_eq {line head list : List Char}
    (opened : splitOnce '(' line = some (head, list)) :
    parametersOf line = splitParameters 0 (untilClosed 0 list) := by
  rw [parametersOf, opened]

/-- No further parameter comes behind a list that closes its brackets, or behind
the end of the line. -/
theorem skipParameters_eq_none {inner closing : List Char} {index : Nat}
    (ends : closing = [] ∨
      ∃ tail, closing = ')' :: tail ∧ inner.foldl bracket 0 = 0)
    (fewer : (splitParameters 0 inner).length ≤ index) :
    skipParameters index 0 (inner ++ closing) = none := by
  have positive := length_splitParameters_pos 0 inner
  cases index with
  | zero => omega
  | succ count =>
      refine Option.eq_none_iff_forall_ne_some.2 fun rest found => ?_
      obtain ⟨front, later, passed⟩ := skipParameters_eq_some_iff.1 found
      rcases List.append_eq_append_iff.1 later with
        ⟨beyond, rfl, behind⟩ | ⟨within, rfl, behind⟩
      · rcases ends with rfl | ⟨tail, rfl, closed⟩
        · simp at behind
        · cases beyond with
          | nil => simp at behind
          | cons first beyond =>
              obtain ⟨rfl, _⟩ := List.cons.inj behind
              have opened := passed.opened inner beyond rfl
              omega
      · cases within with
        | nil => rcases ends with rfl | ⟨tail, rfl, _⟩ <;> simp at behind
        | cons first within =>
            obtain ⟨rfl, _⟩ := List.cons.inj behind
            have total := length_splitParameters_append 0 front (',' :: within)
            have more := length_splitParameters_pos 0 within
            rw [passed.closed, splitParameters, if_pos ⟨rfl, rfl⟩,
              List.length_cons, passed.pieces] at total
            omega

theorem skipParameters_untilClosed {list : List Char} {index : Nat}
    (closes : untilClosed 0 list = list ∨
      (untilClosed 0 list).foldl bracket 0 = 0)
    (fewer : (splitParameters 0 (untilClosed 0 list)).length ≤ index) :
    skipParameters index 0 list = none := by
  obtain ⟨closing, whole, ends⟩ := untilClosed_append 0 list
  rw [whole]
  refine skipParameters_eq_none ?_ fewer
  rcases ends with none | ⟨tail, rfl⟩
  · exact .inl none
  · rcases closes with unclosed | closed
    · rw [unclosed] at whole
      simp at whole
    · exact .inr ⟨tail, rfl, closed⟩

section Cut

variable {line before after : List Char} {index : Nat}

/-- A cut is behind the parameters passed over and the shortest type that a
space follows. -/
theorem exists_skipped_of_cut
    (cut : splitParameterType line index = some (before, after)) :
    ∃ head skipped type more,
      splitOnce '(' line = some (head, skipped ++ (type ++ ' ' :: more)) ∧
        IsSkipped index skipped ∧ before = head ++ '(' :: (skipped ++ type) ∧
        after = ' ' :: more ∧ IsType type ∧
        ∀ shorter between, type = shorter ++ ' ' :: between →
          ¬ IsType shorter := by
  have found := cut
  unfold splitParameterType at found
  simp only [Option.bind_eq_bind, Option.bind_eq_some_iff] at found
  obtain ⟨⟨head, list⟩, opened, rest, skips, _⟩ := found
  obtain ⟨skipped, rfl, isSkipped⟩ := skipParameters_iff.1 skips
  obtain ⟨type, more, rfl, rfl, rfl, isType, least⟩ :=
    (splitParameterType_eq_some_iff opened isSkipped).1 cut
  exact ⟨head, skipped, type, more, opened, isSkipped, by simp, rfl, isType,
    least⟩

theorem append_of_cut
    (cut : splitParameterType line index = some (before, after)) :
    before ++ after = line := by
  obtain ⟨head, skipped, type, more, opened, _, rfl, rfl, _⟩ :=
    exists_skipped_of_cut cut
  rw [(splitOnce_eq_some opened).1]
  simp

/-- A cut that is in a parameter is behind the type of that parameter. -/
theorem hasType_of_inParameter
    (cut : splitParameterType line index = some (before, after))
    (inside : InParameter line index before) :
    ∃ own, (parametersOf line)[index]? = some own ∧ HasType own := by
  obtain ⟨head, skipped, type, more, opened, isSkipped, rfl, rfl, isType, _⟩ :=
    exists_skipped_of_cut cut
  obtain ⟨sameHead, list, inner, again, place, isStart, pieces⟩ := inside
  obtain ⟨rfl, rfl⟩ := Prod.mk.inj (Option.some.inj (opened.symm.trans again))
  obtain rfl : skipped ++ type = inner := by simpa using place
  obtain ⟨passed, length, goesOn⟩ := isSkipped.pieces_append
  have one : (splitParameters 0 type).length = 1 := by
    rw [goesOn, List.length_append, length] at pieces
    omega
  -- The space behind the type belongs to the list.
  obtain ⟨later, isList⟩ := isStart
  obtain ⟨closing, whole, ends⟩ :=
    untilClosed_append 0 (skipped ++ (type ++ ' ' :: more))
  rw [← isList, List.append_assoc, List.append_assoc,
    List.append_cancel_left_eq, List.append_cancel_left_eq] at whole
  obtain ⟨other, rfl⟩ : ∃ other, later = ' ' :: other := by
    cases later with
    | nil => rcases ends with rfl | ⟨tail, rfl⟩ <;> simp at whole
    | cons first other =>
        obtain ⟨rfl, _⟩ := List.cons.inj whole
        exact ⟨other, rfl⟩
  obtain ⟨own, others, behind⟩ :=
    splitParameters_append_cons other one (by decide : ' ' ≠ ',')
  refine ⟨type ++ ' ' :: own, ?_, type, own, rfl, isType⟩
  rw [parametersOf_eq opened, ← isList, List.append_assoc, goesOn, behind,
    List.getElem?_append_right (Nat.le_of_eq length), length, Nat.sub_self]
  rfl

/-- A cut is in the parameter if that has a type. -/
theorem inParameter_of_hasType {own : List Char}
    (cut : splitParameterType line index = some (before, after))
    (parameter : (parametersOf line)[index]? = some own)
    (hasType : HasType own) : InParameter line index before := by
  obtain ⟨head, skipped, type, more, opened, isSkipped, rfl, rfl, _, least⟩ :=
    exists_skipped_of_cut cut
  obtain ⟨closing, whole, _⟩ :=
    untilClosed_append 0 (skipped ++ (type ++ ' ' :: more))
  rw [parametersOf_eq opened] at parameter
  refine ⟨head, _, skipped ++ type, opened, rfl, ?_⟩
  generalize untilClosed 0 (skipped ++ (type ++ ' ' :: more)) = list
    at parameter whole ⊢
  obtain ⟨passed, length, goesOn⟩ := isSkipped.pieces_append
  -- The list does not end in what is passed over, so the parameter is there.
  obtain ⟨listRest, rfl, behind⟩ : ∃ listRest, list = skipped ++ listRest ∧
      type ++ ' ' :: more = listRest ++ closing := by
    rcases List.append_eq_append_iff.1 whole with
      ⟨inner, inList, rest⟩ | ⟨beyond, early, rest⟩
    · exact ⟨inner, inList, rest⟩
    · cases beyond with
      | nil =>
          rw [List.append_nil] at early
          exact ⟨[], by rw [early, List.append_nil], by simpa using rest.symm⟩
      | cons first beyond =>
          rw [early] at isSkipped
          have fewer := isSkipped.length_le (List.cons_ne_nil first beyond)
          obtain ⟨within, _⟩ := List.getElem?_eq_some_iff.1 parameter
          omega
  rw [goesOn, List.getElem?_append_right (Nat.le_of_eq length), length,
    Nat.sub_self] at parameter
  obtain ⟨first, others, pieces⟩ := splitParameters_eq_cons 0 listRest
  rw [pieces] at parameter
  obtain rfl : first = own := Option.some.inj parameter
  obtain ⟨⟨listEnd, rfl⟩, one⟩ := splitParameters_first pieces
  obtain ⟨ownType, ownMore, rfl, isType⟩ := hasType
  have within : type <+: ownType := by
    rw [List.append_assoc, List.append_assoc, List.cons_append] at behind
    rcases List.append_eq_append_iff.1 behind with
      ⟨inner, longer, _⟩ | ⟨beyond, rfl, space⟩
    · exact ⟨inner, longer.symm⟩
    · cases beyond with
      | nil => exact ⟨[], by simp⟩
      | cons first beyond =>
          obtain ⟨rfl, _⟩ := List.cons.inj space
          exact absurd isType (least ownType beyond rfl)
  have inOwn : type <+: ownType ++ ' ' :: ownMore :=
    within.trans (List.prefix_append _ _)
  have fewer : (splitParameters 0 type).length ≤ 1 :=
    one ▸ length_splitParameters_le inOwn
  have positive := length_splitParameters_pos 0 type
  constructor
  · exact (List.prefix_append_right_inj skipped).2
      (inOwn.trans (List.prefix_append _ _))
  · rw [goesOn, List.length_append, length]
    omega

end Cut

/-- A place found for type arguments of a parameter is in that parameter just if
the parameter has a type.  A line without the parameter, whose brackets are
closed where the list ends, is reported. -/
theorem splitParameterType_inside_iff (line : List Char) (index : Nat) :
    (∀ before after, splitParameterType line index = some (before, after) →
        before ++ after = line ∧
          (InParameter line index before ↔
            ∃ own, (parametersOf line)[index]? = some own ∧ HasType own)) ∧
      (ListCloses line → (parametersOf line).length ≤ index →
        splitParameterType line index = none ∧
          ∀ file number position entry rest, entry.slot = .parameter index →
            Renamer.applies file entry line = true →
            Renamer.insertSuffixes file number line
                ((position, entry) :: rest) =
              .error ⟨file, number, .parameter index, entry.suffix,
                String.ofList line⟩) := by
  constructor
  · intro before after cut
    refine ⟨append_of_cut cut, hasType_of_inParameter cut, ?_⟩
    rintro ⟨own, parameter, hasType⟩
    exact inParameter_of_hasType cut parameter hasType
  · intro closes fewer
    have nothing : splitParameterType line index = none := by
      cases opened : splitOnce '(' line with
      | none => simp [splitParameterType, opened]
      | some parts =>
          obtain ⟨head, list⟩ := parts
          rw [parametersOf_eq opened] at fewer
          have passed :=
            skipParameters_untilClosed (closes head list opened) fewer
          simp [splitParameterType, opened, passed]
    refine ⟨nothing, ?_⟩
    intro file number position entry rest slot applies
    rw [Renamer.insertSuffixes, if_pos applies, insertSuffix, slot, splitSlot,
      nothing]
    rfl

theorem splitParameterType_inside_iff_final :
    let line := "void func_1_a(Map<A, B> p_1_1_, final List p_1_2_) \x7b"
    let before := "void func_1_a(Map<A, B> p_1_1_, final List"
    splitParameterType line.toList 1 =
        some (before.toList, " p_1_2_) \x7b".toList) ∧
      InParameter line.toList 1 before.toList ∧
      splitParameterType line.toList 2 = none := by
  intro line before
  obtain ⟨found, _⟩ := splitParameterType_inside_iff line.toList 1
  obtain ⟨_, missing⟩ := splitParameterType_inside_iff line.toList 2
  have cut : splitParameterType line.toList 1 =
      some (before.toList, " p_1_2_) \x7b".toList) := by
    decide
  refine ⟨cut, (found _ _ cut).2.2 ⟨" final List p_1_2_".toList, by decide,
    " final List".toList, "p_1_2_".toList, by decide, ?_⟩, ?_⟩
  · exact ⟨⟨'f', by decide⟩, by decide, by decide⟩
  · refine (missing ?_ (by decide)).1
    intro head list opened
    have here : splitOnce '(' line.toList = some ("void func_1_a".toList,
        "Map<A, B> p_1_1_, final List p_1_2_) \x7b".toList) := by
      decide
    obtain ⟨rfl, rfl⟩ := Prod.mk.inj (Option.some.inj (here.symm.trans opened))
    exact .inr (by decide)

/-- Behind an empty list the search goes on, so type arguments of its first
parameter come behind the list. -/
theorem suffix_behind_empty_list :
    let line := "    public List func_101_b() \x7b".toList
    let entry : GenericEntry :=
      ⟨"net/Foo.java", "net.Foo", "func_101_b", .parameter 0,
        "java.util.List", "<String>"⟩
    splitParameterType line 0 =
        some ("    public List func_101_b()".toList, " \x7b".toList) ∧
      ¬ InParameter line 0 "    public List func_101_b()".toList ∧
      Renamer.insertSuffixes "net/Foo.java" 3 line [(0, entry)] =
        .ok ("    public List func_101_b()<String> \x7b".toList, [0]) := by
  intro line entry
  have cut : splitParameterType line 0 =
      some ("    public List func_101_b()".toList, " \x7b".toList) := by
    decide
  refine ⟨cut, fun inside => ?_, by decide⟩
  obtain ⟨own, parameter, type, more, whole, _⟩ :=
    hasType_of_inParameter cut inside
  have empty : (parametersOf line)[0]? = some [] := by decide
  rw [empty] at parameter
  obtain rfl := Option.some.inj parameter
  simp at whole

end Deobfuscate.Source
