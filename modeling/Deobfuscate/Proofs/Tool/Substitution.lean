import Deobfuscate.Proofs.Archive.Separate
import Deobfuscate.Proofs.Text.Replace
import Deobfuscate.Proofs.Text.Search
import Deobfuscate.Stage.ExternalTool
import Mathlib.Data.List.Infix
import Mathlib.Tactic.LinearCombination
import Mathlib.Tactic.Zify

/-!
# Replacing one after another and all at once

A template says for each name in braces that a value goes there.  To put in all
values at once is to read the template once and to leave the values as they are.
To put them in one after another reads the values as well, and so a value, or a
value together with what stands around it, can become a placeholder of a later
name.  Just as long as no such placeholder comes up, both give the same text.
-/

namespace Deobfuscate.Template

/-- A name without braces. -/
def Braceless (name : String) : Prop :=
  '{' ∉ name.toList ∧ '}' ∉ name.toList

instance (name : String) : Decidable (Braceless name) :=
  inferInstanceAs (Decidable (_ ∧ _))

theorem placeholder_eq (name : String) :
    placeholder name = '{' :: (name.toList ++ ['}']) :=
  rfl

theorem placeholder_ne_nil (name : String) : placeholder name ≠ [] :=
  List.cons_ne_nil _ _

theorem not_placeholder_prefix {name : String} {char : Char} {rest : List Char}
    (other : char ≠ '{') : ¬placeholder name <+: char :: rest := by
  intro begins
  exact other (List.cons_prefix_cons.1 begins).1.symm

/-- A text begins with the placeholders of no two names. -/
theorem name_eq_of_begins {left right : String} (leftPlain : Braceless left)
    (rightPlain : Braceless right) {chars : List Char}
    (first : placeholder left <+: chars) (second : placeholder right <+: chars) :
    left = right := by
  obtain ⟨leftRest, rfl⟩ := first
  obtain ⟨rightRest, same⟩ := second
  unfold placeholder at same
  simp only [List.cons_append, List.append_assoc, List.nil_append,
    List.cons.injEq, true_and] at same
  have cut := congrArg (Text.splitOnce '}') same
  rw [Text.splitOnce_append _ leftPlain.2, Text.splitOnce_append _ rightPlain.2]
    at cut
  exact String.toList_injective (Prod.mk.inj (Option.some.inj cut)).1.symm

/-- A placeholder that begins before a brace ends before it. -/
theorem placeholder_prefix_append_iff {name : String} (plain : Braceless name)
    {char : Char} {before after : List Char} :
    placeholder name <+: char :: before ++ '{' :: after ↔
      placeholder name <+: char :: before := by
  refine ⟨fun begins => ?_, fun begins => begins.trans (List.prefix_append _ _)⟩
  rcases Nat.le_total (placeholder name).length (char :: before).length with
    short | long
  · exact List.prefix_of_prefix_length_le begins (List.prefix_append _ _) short
  · obtain ⟨rest, whole⟩ :=
      List.prefix_of_prefix_length_le (List.prefix_append _ _) begins long
    cases rest with
    | nil =>
        rw [List.append_nil] at whole
        rw [whole]
    | cons first rest =>
        rw [← whole, List.prefix_append_right_inj] at begins
        obtain ⟨rfl, _⟩ := List.cons_prefix_cons.1 begins
        have inside : '{' ∈ name.toList ++ ['}'] := by
          have tail : before ++ '{' :: rest = name.toList ++ ['}'] :=
            (List.cons.inj whole).2
          rw [← tail]
          exact List.mem_append_right _ List.mem_cons_self
        simp [plain.1] at inside

/-- The number of places at which a piece occurs. -/
def occurrences (piece chars : List Char) : Nat :=
  chars.tails.countP fun rest => piece.isPrefixOf rest

theorem occurrences_eq_zero_iff {piece chars : List Char} :
    occurrences piece chars = 0 ↔ ¬piece <:+: chars := by
  unfold occurrences
  rw [List.countP_eq_zero, List.infix_iff_prefix_suffix]
  simp only [List.mem_tails, List.isPrefixOf_iff_prefix]
  grind

theorem occurrences_cons {piece : List Char} {char : Char} {rest : List Char} :
    occurrences piece (char :: rest) = occurrences piece rest +
      if piece.isPrefixOf (char :: rest) then 1 else 0 := by
  unfold occurrences
  rw [List.tails_cons, List.countP_cons]

theorem occurrences_append_of_notMem {name : String} {before : List Char}
    (after : List Char) (absent : '{' ∉ before) :
    occurrences (placeholder name) (before ++ after) =
      occurrences (placeholder name) after := by
  induction before with
  | nil => rfl
  | cons char before inductionHypothesis =>
      obtain ⟨other, later⟩ := not_or.1 (mt List.mem_cons.2 absent)
      have here : ¬(placeholder name).isPrefixOf
          (char :: (before ++ after)) = true := fun begins =>
        not_placeholder_prefix (Ne.symm other)
          (List.isPrefixOf_iff_prefix.1 begins)
      rw [List.cons_append, occurrences_cons, if_neg here, Nat.add_zero,
        inductionHypothesis later]

/-- The occurrences on both sides of a placeholder are those beside it. -/
theorem occurrences_split {name : String} (plain : Braceless name)
    (before after : List Char) :
    occurrences (placeholder name) (before ++ placeholder name ++ after) =
      occurrences (placeholder name) before + 1 +
        occurrences (placeholder name) after := by
  induction before with
  | nil =>
      have begins : (placeholder name).isPrefixOf
          (placeholder name ++ after) = true :=
        List.isPrefixOf_iff_prefix.2 (List.prefix_append _ _)
      have none : occurrences (placeholder name) [] = 0 :=
        occurrences_eq_zero_iff.2 fun inside =>
          placeholder_ne_nil name (List.infix_nil.1 inside)
      have rest : '{' ∉ name.toList ++ ['}'] := by simp [plain.1]
      rw [List.nil_append, none, Nat.zero_add, Nat.add_comm]
      unfold placeholder at begins ⊢
      rw [List.cons_append, List.cons_append] at begins ⊢
      rw [occurrences_cons, if_pos begins]
      exact congrArg (· + 1) (occurrences_append_of_notMem after rest)
  | cons char before inductionHypothesis =>
      have same : (placeholder name).isPrefixOf
          (char :: (before ++ placeholder name ++ after)) =
          (placeholder name).isPrefixOf (char :: before) := by
        rw [Bool.eq_iff_iff, List.isPrefixOf_iff_prefix,
          List.isPrefixOf_iff_prefix, List.append_assoc]
        exact placeholder_prefix_append_iff plain
      rw [List.cons_append, List.cons_append, occurrences_cons,
        occurrences_cons, same, inductionHypothesis]
      omega

/-- A text is taken apart at the occurrences of a placeholder. -/
theorem split_induction {name : String} {motive : List Char → Prop}
    (absent : ∀ chars, ¬placeholder name <:+: chars → motive chars)
    (split : ∀ before after, motive before → motive after →
      motive (before ++ placeholder name ++ after)) (chars : List Char) :
    motive chars := by
  induction length : chars.length using Nat.strong_induction_on
    generalizing chars with
  | _ size inductionHypothesis =>
      by_cases inside : placeholder name <:+: chars
      · obtain ⟨before, after, rfl⟩ := inside
        have filled := List.length_pos_of_ne_nil (placeholder_ne_nil name)
        rw [List.length_append, List.length_append] at length
        exact split before after
          (inductionHypothesis _ (by omega) before rfl)
          (inductionHypothesis _ (by omega) after rfl)
      · exact absent chars inside

def leading (bindings : List (String × String)) (chars : List Char) :
    Option (String × String) :=
  bindings.find? fun binding => (placeholder binding.1).isPrefixOf chars

/-- Put the values in for the placeholders of a text, from left to right; the
first `pending` characters belong to a placeholder already replaced.  Values are
not read again. -/
def substituteFrom (bindings : List (String × String)) :
    Nat → List Char → List Char
  | _, [] => []
  | pending + 1, _ :: rest => substituteFrom bindings pending rest
  | 0, char :: rest =>
      match leading bindings (char :: rest) with
      | some binding => binding.2.toList ++
          substituteFrom bindings ((placeholder binding.1).length - 1) rest
      | none => char :: substituteFrom bindings 0 rest

/-- An argument with all its placeholders replaced at once. -/
def substitute (bindings : List (String × String)) (argument : String) :
    String :=
  String.ofList (substituteFrom bindings 0 argument.toList)

def valueOf (bindings : List (String × String)) (name : String) : List Char :=
  ((Bindings.get? name bindings).map String.toList).getD (placeholder name)

theorem leading_eq_none_iff {bindings : List (String × String)}
    {chars : List Char} : leading bindings chars = none ↔
      ∀ binding ∈ bindings, ¬placeholder binding.1 <+: chars := by
  unfold leading
  simp [List.find?_eq_none]

theorem prefix_of_leading {bindings : List (String × String)}
    {chars : List Char} {binding : String × String}
    (found : leading bindings chars = some binding) :
    binding ∈ bindings ∧ placeholder binding.1 <+: chars := by
  unfold leading at found
  have begins := List.find?_some found
  exact ⟨List.mem_of_find?_eq_some found, List.isPrefixOf_iff_prefix.1 begins⟩

/-- Texts that begin with the same placeholders have the same leading one. -/
theorem leading_congr {bindings : List (String × String)}
    {left right : List Char}
    (same : ∀ binding ∈ bindings,
      placeholder binding.1 <+: left ↔ placeholder binding.1 <+: right) :
    leading bindings left = leading bindings right := by
  induction bindings with
  | nil => rfl
  | cons binding rest inductionHypothesis =>
      obtain ⟨here, later⟩ := List.forall_mem_cons.1 same
      have begins : (placeholder binding.1).isPrefixOf left =
          (placeholder binding.1).isPrefixOf right := by
        rwa [Bool.eq_iff_iff, List.isPrefixOf_iff_prefix,
          List.isPrefixOf_iff_prefix]
      unfold leading at inductionHypothesis ⊢
      rw [List.find?_cons, List.find?_cons, begins, inductionHypothesis later]

theorem substituteFrom_nil (pending : Nat) (chars : List Char) :
    substituteFrom [] pending chars = chars.drop pending := by
  induction chars generalizing pending with
  | nil => simp [substituteFrom]
  | cons char rest inductionHypothesis =>
      cases pending with
      | zero => exact congrArg (char :: ·) (inductionHypothesis 0)
      | succ pending => exact inductionHypothesis pending

/-- One placeholder is replaced like any piece of a text. -/
theorem replaceFrom_placeholder (binding : String × String) (pending : Nat)
    (chars : List Char) :
    Text.replaceFrom (placeholder binding.1) binding.2.toList pending chars =
      substituteFrom [binding] pending chars := by
  induction chars generalizing pending with
  | nil => simp [Text.replaceFrom, substituteFrom]
  | cons char rest inductionHypothesis =>
      cases pending with
      | succ pending => exact inductionHypothesis pending
      | zero =>
          rw [Text.replaceFrom, substituteFrom, leading, List.find?_singleton]
          split
          · rw [inductionHypothesis]
          · rw [inductionHypothesis]

theorem expandOne_eq (chars : List Char) (binding : String × String) :
    expandOne chars binding = substituteFrom [binding] 0 chars := by
  unfold expandOne
  rw [Text.replaceAll_eq_replaceFrom (placeholder_ne_nil _),
    replaceFrom_placeholder]

theorem substituteFrom_length (bindings : List (String × String))
    (before after : List Char) :
    substituteFrom bindings before.length (before ++ after) =
      substituteFrom bindings 0 after := by
  induction before with
  | nil => rfl
  | cons char before inductionHypothesis => exact inductionHypothesis

theorem substituteFrom_append_of_notMem (bindings : List (String × String))
    {before : List Char} (after : List Char) (absent : '{' ∉ before) :
    substituteFrom bindings 0 (before ++ after) =
      before ++ substituteFrom bindings 0 after := by
  induction before with
  | nil => rfl
  | cons char before inductionHypothesis =>
      obtain ⟨other, later⟩ := not_or.1 (mt List.mem_cons.2 absent)
      have none : leading bindings (char :: (before ++ after)) = none :=
        leading_eq_none_iff.2 fun _ _ => not_placeholder_prefix (Ne.symm other)
      rw [List.cons_append, substituteFrom, none, inductionHypothesis later]
      rfl

/-- A name of which no placeholder occurs can be left out. -/
theorem substituteFrom_append_of_absent {binding : String × String}
    (bindings : List (String × String)) (pending : Nat) {chars : List Char}
    (absent : ¬placeholder binding.1 <:+: chars) :
    substituteFrom (bindings ++ [binding]) pending chars =
      substituteFrom bindings pending chars := by
  induction chars generalizing pending with
  | nil => simp [substituteFrom]
  | cons char rest inductionHypothesis =>
      rw [List.infix_cons_iff, not_or] at absent
      cases pending with
      | succ pending => exact inductionHypothesis pending absent.2
      | zero =>
          have here : ¬(placeholder binding.1).isPrefixOf
              (char :: rest) = true := fun begins =>
            absent.1 (List.isPrefixOf_iff_prefix.1 begins)
          have same : leading (bindings ++ [binding]) (char :: rest) =
              leading bindings (char :: rest) := by
            unfold leading
            rw [List.find?_append, List.find?_singleton, if_neg here,
              Option.or_none]
          rw [substituteFrom, substituteFrom, same]
          split
          · rw [inductionHypothesis _ absent.2]
          · rw [inductionHypothesis _ absent.2]

/-- A text without placeholders stays as it is. -/
theorem substituteFrom_of_absent {bindings : List (String × String)}
    {chars : List Char}
    (absent : ∀ binding ∈ bindings, ¬placeholder binding.1 <:+: chars) :
    substituteFrom bindings 0 chars = chars := by
  induction bindings using List.reverseRecOn with
  | nil => rw [substituteFrom_nil, List.drop_zero]
  | append_singleton bindings binding inductionHypothesis =>
      rw [substituteFrom_append_of_absent bindings 0
        (absent binding List.mem_concat_self)]
      exact inductionHypothesis fun other member =>
        absent other (List.mem_append_left _ member)

section Plain

variable {bindings : List (String × String)}
  (plain : ∀ binding ∈ bindings, Braceless binding.1)

include plain

theorem leading_placeholder {name : String} (braceless : Braceless name)
    (after : List Char) :
    leading bindings (placeholder name ++ after) =
      (Bindings.get? name bindings).map fun value => (name, value) := by
  induction bindings with
  | nil => rfl
  | cons binding rest inductionHypothesis =>
      obtain ⟨here, later⟩ := List.forall_mem_cons.1 plain
      have begins : placeholder name <+: placeholder name ++ after :=
        List.prefix_append _ _
      unfold leading at inductionHypothesis ⊢
      rw [List.find?_cons, Bindings.get?]
      by_cases same : binding.1 = name
      · rw [if_pos same, same, List.isPrefixOf_iff_prefix.2 begins, ← same]
        rfl
      · have other : (placeholder binding.1).isPrefixOf
            (placeholder name ++ after) = false := by
          rw [Bool.eq_false_iff, ne_eq, List.isPrefixOf_iff_prefix]
          exact fun also => same (name_eq_of_begins here braceless also begins)
        rw [if_neg same, other, inductionHypothesis later]

/-- Before and behind a placeholder values are put in apart. -/
theorem substituteFrom_split {name : String} (braceless : Braceless name)
    (before after : List Char) {pending : Nat}
    (inside : pending ≤ before.length) :
    substituteFrom bindings pending (before ++ placeholder name ++ after) =
      substituteFrom bindings pending before ++ valueOf bindings name ++
        substituteFrom bindings 0 after := by
  induction before generalizing pending with
  | nil =>
      obtain rfl : pending = 0 := Nat.le_zero.1 inside
      have found := leading_placeholder plain braceless after
      have absent : '{' ∉ name.toList ++ ['}'] := by simp [braceless.1]
      unfold valueOf
      rw [placeholder_eq, List.cons_append] at found
      rw [List.nil_append, placeholder_eq, List.cons_append, substituteFrom,
        substituteFrom, found]
      rcases Bindings.get? name bindings with _ | value
      · have kept := substituteFrom_append_of_notMem bindings after absent
        exact congrArg ('{' :: ·) kept
      · have passed := substituteFrom_length bindings
          (name.toList ++ ['}']) after
        simp only [Option.map_some, Option.getD_some, placeholder_eq,
          List.length_cons, Nat.add_sub_cancel, passed]
        rfl
  | cons char before inductionHypothesis =>
      rw [List.cons_append, List.cons_append]
      cases pending with
      | succ pending =>
          exact inductionHypothesis (Nat.le_of_succ_le_succ inside)
      | zero =>
          have same : leading bindings
              (char :: (before ++ placeholder name ++ after)) =
              leading bindings (char :: before) := by
            refine leading_congr fun binding member => ?_
            rw [List.append_assoc]
            exact placeholder_prefix_append_iff (plain binding member)
          rw [substituteFrom, substituteFrom, same]
          rcases found : leading bindings (char :: before) with _ | binding
          · have later := inductionHypothesis (Nat.zero_le before.length)
            simp only [later, List.cons_append]
          · obtain ⟨_, begins⟩ := prefix_of_leading found
            have fits : (placeholder binding.1).length - 1 ≤ before.length :=
              Nat.sub_le_of_le_add begins.length_le
            dsimp only
            rw [inductionHypothesis fits, List.append_assoc, List.append_assoc,
              List.append_assoc]

end Plain

/-! ## One more value -/

section Step

variable {bindings : List (String × String)} {binding : String × String}
  (plain : ∀ other ∈ bindings ++ [binding], Braceless other.1)
  (fresh : binding.1 ∉ bindings.map Prod.fst)

include plain

theorem braceless_last : Braceless binding.1 :=
  plain binding List.mem_concat_self

include fresh

theorem substituteFrom_fresh_split (before after : List Char) :
    substituteFrom bindings 0 (before ++ placeholder binding.1 ++ after) =
      substituteFrom bindings 0 before ++ placeholder binding.1 ++
        substituteFrom bindings 0 after := by
  rw [substituteFrom_split (fun other member => plain other (by simp [member]))
    (braceless_last plain) _ _ (Nat.zero_le _), valueOf,
    Bindings.get?_eq_none_iff.2 fresh]
  rfl

theorem substituteFrom_last_split (before after : List Char) :
    substituteFrom (bindings ++ [binding]) 0
        (before ++ placeholder binding.1 ++ after) =
      substituteFrom (bindings ++ [binding]) 0 before ++ binding.2.toList ++
        substituteFrom (bindings ++ [binding]) 0 after := by
  rw [substituteFrom_split plain (braceless_last plain) _ _ (Nat.zero_le _),
    valueOf, Bindings.get?_append, Bindings.get?_eq_none_iff.2 fresh]
  simp [Bindings.get?]

/-- Putting in other values does not take a placeholder away. -/
theorem occurrences_le (chars : List Char) :
    occurrences (placeholder binding.1) chars ≤
      occurrences (placeholder binding.1) (substituteFrom bindings 0 chars) := by
  have here := braceless_last plain
  induction chars using @split_induction binding.1 with
  | absent chars absent =>
      rw [occurrences_eq_zero_iff.2 absent]
      exact Nat.zero_le _
  | split before after first second =>
      rw [substituteFrom_fresh_split plain fresh, occurrences_split here,
        occurrences_split here]
      omega

/-- A placeholder that is put in for itself changes nothing. -/
theorem substituteFrom_last_of_own
    (own : binding.2.toList = placeholder binding.1) (chars : List Char) :
    substituteFrom (bindings ++ [binding]) 0 chars =
      substituteFrom bindings 0 chars := by
  induction chars using @split_induction binding.1 with
  | absent chars absent =>
      exact substituteFrom_append_of_absent bindings 0 absent
  | split before after first second =>
      rw [substituteFrom_last_split plain fresh, first, second, own,
        substituteFrom_fresh_split plain fresh]

/-- Each place for a value makes the text longer by as much as the value is
longer than its placeholder. -/
theorem length_substituteFrom_last (chars : List Char) :
    (substituteFrom (bindings ++ [binding]) 0 chars).length +
        occurrences (placeholder binding.1) chars *
          (placeholder binding.1).length =
      (substituteFrom bindings 0 chars).length +
        occurrences (placeholder binding.1) chars *
          binding.2.toList.length := by
  have here := braceless_last plain
  induction chars using @split_induction binding.1 with
  | absent chars absent =>
      rw [substituteFrom_append_of_absent bindings 0 absent,
        occurrences_eq_zero_iff.2 absent, Nat.zero_mul, Nat.zero_mul]
  | split before after first second =>
      rw [substituteFrom_last_split plain fresh,
        substituteFrom_fresh_split plain fresh, occurrences_split here]
      simp only [List.length_append, Nat.add_mul, Nat.one_mul]
      omega

end Step

/-- Two numbers of pieces by which a text grows alike are equal if a piece makes
it grow at all. -/
theorem count_eq_of_growth {size start first second long short : Nat}
    (different : long ≠ short)
    (once : size + first * short = start + first * long)
    (again : size + second * short = start + second * long) :
    first = second := by
  zify at once again
  have product : ((first : Int) - second) * (short - long) = 0 := by
    linear_combination once - again
  rcases mul_eq_zero.1 product with same | same
  · omega
  · omega

section Single

variable {binding : String × String} (braceless : Braceless binding.1)

include braceless

theorem substituteFrom_single_split (before after : List Char) :
    substituteFrom [binding] 0 (before ++ placeholder binding.1 ++ after) =
      substituteFrom [binding] 0 before ++ binding.2.toList ++
        substituteFrom [binding] 0 after :=
  @substituteFrom_last_split [] binding (by simpa using braceless) (by simp)
    before after

theorem substituteFrom_of_own
    (own : binding.2.toList = placeholder binding.1) (chars : List Char) :
    substituteFrom [binding] 0 chars = chars := by
  have kept := @substituteFrom_last_of_own [] binding (by simpa using braceless)
    (by simp) own chars
  rwa [substituteFrom_nil] at kept

theorem length_substituteFrom_single (chars : List Char) :
    (substituteFrom [binding] 0 chars).length +
        occurrences (placeholder binding.1) chars *
          (placeholder binding.1).length =
      chars.length + occurrences (placeholder binding.1) chars *
        binding.2.toList.length := by
  have lengths := @length_substituteFrom_last [] binding
    (by simpa using braceless) (by simp) chars
  rwa [substituteFrom_nil] at lengths

/-- A text that stays as it is has no place for the value, or the value is its
own placeholder. -/
theorem own_of_substituteFrom_eq {chars : List Char}
    (kept : substituteFrom [binding] 0 chars = chars) :
    occurrences (placeholder binding.1) chars = 0 ∨
      binding.2.toList = placeholder binding.1 := by
  have filled := placeholder_ne_nil binding.1
  have own : Text.replaceAll (placeholder binding.1) (placeholder binding.1)
      chars = chars := by
    have same := @substituteFrom_of_own
      (binding.1, String.ofList (placeholder binding.1)) braceless
      String.toList_ofList chars
    rwa [← expandOne_eq, expandOne, String.toList_ofList] at same
  rw [occurrences_eq_zero_iff, or_iff_not_imp_left, not_not]
  rw [← expandOne_eq, expandOne] at kept
  exact (Text.replaceAll_eq_iff filled).1 (kept.trans own.symm)

end Single

section Last

variable {bindings : List (String × String)} {binding : String × String}
  (plain : ∀ other ∈ bindings ++ [binding], Braceless other.1)
  (fresh : binding.1 ∉ bindings.map Prod.fst)

include plain fresh

/-- One more value is put in behind the others as if all were put in at once, as
long as the others make no new place for it. -/
theorem substituteFrom_last_of_occurrences {chars : List Char}
    (kept : occurrences (placeholder binding.1)
        (substituteFrom bindings 0 chars) =
      occurrences (placeholder binding.1) chars) :
    substituteFrom [binding] 0 (substituteFrom bindings 0 chars) =
      substituteFrom (bindings ++ [binding]) 0 chars := by
  have here := braceless_last plain
  induction chars using @split_induction binding.1 with
  | absent chars absent =>
      rw [occurrences_eq_zero_iff.2 absent, occurrences_eq_zero_iff] at kept
      rw [substituteFrom_of_absent (by simpa using kept),
        substituteFrom_append_of_absent bindings 0 absent]
  | split before after first second =>
      rw [substituteFrom_fresh_split plain fresh] at kept ⊢
      rw [occurrences_split here, occurrences_split here] at kept
      have left := occurrences_le plain fresh before
      have right := occurrences_le plain fresh after
      rw [substituteFrom_single_split here, first (by omega),
        second (by omega), substituteFrom_last_split plain fresh]

/-- Places made by other values show when a value is as long as its
placeholder: what is behind them stays where it was. -/
theorem occurrences_eq_of_length_eq
    (short : binding.2.toList.length = (placeholder binding.1).length)
    {chars : List Char}
    (same : substituteFrom [binding] 0 (substituteFrom bindings 0 chars) =
      substituteFrom (bindings ++ [binding]) 0 chars) :
    occurrences (placeholder binding.1) (substituteFrom bindings 0 chars) =
        occurrences (placeholder binding.1) chars ∨
      binding.2.toList = placeholder binding.1 := by
  have here := braceless_last plain
  induction chars using @split_induction binding.1 with
  | absent chars absent =>
      rw [substituteFrom_append_of_absent bindings 0 absent] at same
      rw [occurrences_eq_zero_iff.2 absent]
      exact own_of_substituteFrom_eq here same
  | split before after first second =>
      rw [substituteFrom_fresh_split plain fresh,
        substituteFrom_single_split here,
        substituteFrom_last_split plain fresh, List.append_assoc,
        List.append_assoc] at same
      have single := length_substituteFrom_single here
        (substituteFrom bindings 0 before)
      have last := length_substituteFrom_last plain fresh before
      rw [short] at single last
      obtain ⟨sameBefore, sameRest⟩ := List.append_inj same (by omega)
      have sameAfter := List.append_cancel_left sameRest
      rw [substituteFrom_fresh_split plain fresh, occurrences_split here,
        occurrences_split here]
      rcases first sameBefore with equal | own
      · rcases second sameAfter with equalAfter | own
        · exact .inl (by rw [equal, equalAfter])
        · exact .inr own
      · exact .inr own

/-- One more value is put in as if all were put in at once just if the others
make no new place for it, or if it is its own placeholder. -/
theorem substituteFrom_last_iff {chars : List Char} :
    substituteFrom [binding] 0 (substituteFrom bindings 0 chars) =
        substituteFrom (bindings ++ [binding]) 0 chars ↔
      occurrences (placeholder binding.1) (substituteFrom bindings 0 chars) =
          occurrences (placeholder binding.1) chars ∨
        binding.2.toList = placeholder binding.1 := by
  have here := braceless_last plain
  constructor
  · intro same
    by_cases short : binding.2.toList.length = (placeholder binding.1).length
    · exact occurrences_eq_of_length_eq plain fresh short same
    · -- The lengths differ by as much for each place, so there are as many.
      have single := length_substituteFrom_single here
        (substituteFrom bindings 0 chars)
      have last := length_substituteFrom_last plain fresh chars
      rw [same] at single
      exact .inl (count_eq_of_growth short single last)
  · rintro (kept | own)
    · exact substituteFrom_last_of_occurrences plain fresh kept
    · rw [substituteFrom_of_own here own,
        substituteFrom_last_of_own plain fresh own]

end Last

/-! ## Whole templates -/

/-- The values put in before make no new place for another one: its placeholder
is as often in the argument as before, or the value is that placeholder. -/
def Undisturbed (earlier : List (String × String)) (binding : String × String)
    (argument : String) : Prop :=
  occurrences (placeholder binding.1) (substitute earlier argument).toList =
      occurrences (placeholder binding.1) argument.toList ∨
    binding.2.toList = placeholder binding.1

instance (earlier : List (String × String)) (binding : String × String)
    (argument : String) : Decidable (Undisturbed earlier binding argument) :=
  inferInstanceAs (Decidable (_ ∨ _))

theorem expandArgument_concat (earlier : List (String × String))
    (binding : String × String) (argument : String) :
    (expandArgument (earlier ++ [binding]) argument).toList =
      substituteFrom [binding] 0 (expandArgument earlier argument).toList := by
  unfold expandArgument
  rw [List.foldl_append, String.toList_ofList, String.toList_ofList,
    ← expandOne_eq]
  rfl

theorem leading_perm {bindings order : List (String × String)}
    (same : order.Perm bindings) (distinct : (bindings.map Prod.fst).Nodup)
    (plain : ∀ binding ∈ bindings, Braceless binding.1) (chars : List Char) :
    leading order chars = leading bindings chars := by
  rcases found : leading bindings chars with _ | binding
  · rw [leading_eq_none_iff] at found ⊢
    exact fun other member => found other (same.mem_iff.1 member)
  · obtain ⟨member, begins⟩ := prefix_of_leading found
    rcases also : leading order chars with _ | other
    · exact absurd begins
        (leading_eq_none_iff.1 also binding (same.mem_iff.2 member))
    · obtain ⟨otherMember, otherBegins⟩ := prefix_of_leading also
      have otherMember := same.mem_iff.1 otherMember
      have name := name_eq_of_begins (plain other otherMember)
        (plain binding member) otherBegins begins
      rw [List.inj_on_of_nodup_map distinct otherMember member name]

/-- All values are put in at once, so their order does not matter. -/
theorem substitute_perm {bindings order : List (String × String)}
    (same : order.Perm bindings) (distinct : (bindings.map Prod.fst).Nodup)
    (plain : ∀ binding ∈ bindings, Braceless binding.1) :
    substitute order = substitute bindings := by
  have from_eq : ∀ pending chars, substituteFrom order pending chars =
      substituteFrom bindings pending chars := by
    intro pending chars
    induction chars generalizing pending with
    | nil => simp [substituteFrom]
    | cons char rest inductionHypothesis =>
        cases pending with
        | succ pending => exact inductionHypothesis pending
        | zero =>
            rw [substituteFrom, substituteFrom,
              leading_perm same distinct plain]
            simp only [inductionHypothesis]
  funext argument
  unfold substitute
  rw [from_eq]

section Expansion

variable {template : List String} {bindings : List (String × String)}

theorem expandPlaceholders_eq_iff {expand : String → String} :
    expandPlaceholders template bindings = template.map expand ↔
      ∀ argument ∈ template, expandArgument bindings argument =
        expand argument := by
  unfold expandPlaceholders
  exact List.map_inj_left

theorem expandArgument_concat_iff {earlier : List (String × String)}
    {binding : String × String} {argument : String}
    (plain : ∀ other ∈ earlier ++ [binding], Braceless other.1)
    (fresh : binding.1 ∉ earlier.map Prod.fst)
    (before : expandArgument earlier argument = substitute earlier argument) :
    expandArgument (earlier ++ [binding]) argument =
        substitute (earlier ++ [binding]) argument ↔
      Undisturbed earlier binding argument := by
  unfold Undisturbed
  rw [← String.toList_inj, expandArgument_concat, before]
  unfold substitute
  rw [String.toList_ofList, String.toList_ofList]
  exact substituteFrom_last_iff plain fresh

end Expansion

/-- Of pairs with different names without braces, those at the start of the list
are put in as if all were put in at once, in whatever order, just if none of
them disturbs a later one in any argument. -/
theorem expandPlaceholders_initial_iff {template : List String}
    {bindings : List (String × String)}
    (distinct : (bindings.map Prod.fst).Nodup)
    (plain : ∀ binding ∈ bindings, Braceless binding.1) :
    (∀ initial, initial <+: bindings → ∀ order, order.Perm initial →
        expandPlaceholders template initial =
          template.map (substitute order)) ↔
      ∀ earlier binding, earlier ++ [binding] <+: bindings →
        ∀ argument ∈ template, Undisturbed earlier binding argument := by
  have names : ∀ initial, initial <+: bindings →
      (initial.map Prod.fst).Nodup ∧
        ∀ binding ∈ initial, Braceless binding.1 := by
    intro initial begins
    exact ⟨(begins.sublist.map _).nodup distinct,
      fun binding member => plain binding (begins.subset member)⟩
  have fresh : ∀ earlier (binding : String × String),
      earlier ++ [binding] <+: bindings →
        binding.1 ∉ earlier.map Prod.fst := by
    intro earlier binding begins
    have nodup := (names _ begins).1
    rw [List.map_append, List.nodup_append] at nodup
    intro member
    exact nodup.2.2 _ member _ List.mem_cons_self rfl
  constructor
  · intro expanded earlier binding begins argument member
    have start : earlier <+: bindings :=
      (List.prefix_append _ _).trans begins
    have before := expandPlaceholders_eq_iff.1
      (expanded earlier start earlier (.refl _)) argument member
    have after := expandPlaceholders_eq_iff.1
      (expanded _ begins _ (.refl _)) argument member
    exact (expandArgument_concat_iff (names _ begins).2
      (fresh earlier binding begins) before).1 after
  · intro undisturbed initial begins order same
    rw [substitute_perm same (names initial begins).1 (names initial begins).2,
      expandPlaceholders_eq_iff]
    clear same order
    intro argument member
    induction initial using List.reverseRecOn with
    | nil =>
        unfold expandArgument substitute
        rw [substituteFrom_nil]
        rfl
    | append_singleton earlier binding inductionHypothesis =>
        have start : earlier <+: bindings :=
          (List.prefix_append _ _).trans begins
        exact (expandArgument_concat_iff (names _ begins).2
          (fresh earlier binding begins) (inductionHypothesis start)).2
            (undisturbed earlier binding begins argument member)

/-- The names that a tool knows have no braces and are different. -/
theorem bindings_plain (paths : StagePaths) :
    ((ExternalTool.bindings paths).map Prod.fst).Nodup ∧
      ∀ binding ∈ ExternalTool.bindings paths, Braceless binding.1 := by
  constructor
  · change ["input", "output", "temp"].Nodup
    decide
  · simp only [ExternalTool.bindings, List.forall_mem_cons]
    exact ⟨by decide, by decide, by decide, by simp⟩

/-- The paths of a run whose input is named like a placeholder. -/
def bracedPaths : StagePaths :=
  ⟨some ⟨"{output}"⟩, ⟨"o"⟩, ⟨"t"⟩⟩

theorem expandPlaceholders_initial_iff_braced :
    ((ExternalTool.bindings bracedPaths).map Prod.fst).Nodup ∧
      (∀ binding ∈ ExternalTool.bindings bracedPaths,
        Braceless binding.1) ∧
      ∀ order, order.Perm (ExternalTool.bindings bracedPaths) →
        expandPlaceholders ["-o", "{output}", "{unknown}"]
            (ExternalTool.bindings bracedPaths) =
          ["-o", "{output}", "{unknown}"].map (substitute order) := by
  obtain ⟨distinct, plain⟩ := bindings_plain bracedPaths
  refine ⟨distinct, plain, ?_⟩
  have undisturbed : ∀ initial ∈ (ExternalTool.bindings bracedPaths).inits,
      ∀ argument ∈ ["-o", "{output}", "{unknown}"],
        Undisturbed initial.dropLast (initial.getLastD ("", "")) argument := by
    decide
  refine (expandPlaceholders_initial_iff distinct plain).2 ?_ _
    (List.prefix_refl _)
  intro earlier binding begins argument member
  have here := undisturbed _ ((List.mem_inits _ _).2 begins) argument member
  simpa using here

/-- The input is not passed to the tool: its name is read again, and what comes
of it depends on the order of the pairs. -/
theorem input_read_again :
    ((ExternalTool.bindings bracedPaths).map Prod.fst).Nodup ∧
      (∀ binding ∈ ExternalTool.bindings bracedPaths,
        Braceless binding.1) ∧
      ["{input}"].map (substitute (ExternalTool.bindings bracedPaths)) =
        ["{output}"] ∧
      expandPlaceholders ["{input}"] (ExternalTool.bindings bracedPaths) =
        ["o"] ∧
      expandPlaceholders ["{input}"]
        (ExternalTool.bindings bracedPaths).reverse = ["{output}"] :=
  ⟨(bindings_plain _).1, (bindings_plain _).2, by decide,
    by decide, by decide⟩

/-- Braces of the template can make a placeholder out of a plain value. -/
example : expandPlaceholders ["{{input}}"]
    [("input", "output"), ("output", "o")] = ["o"] := by
  decide

end Deobfuscate.Template
