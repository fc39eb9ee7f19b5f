import Deobfuscate.Proofs.Source.ParameterList
import Mathlib.Data.List.Infix
import Mathlib.Data.List.Nodup

/-!
# Type arguments on well-formed declarations

On a declaration whose types close their angle brackets, type arguments come
directly behind the return type or the type of a parameter, whatever was put
behind the other types before.  So entries for different types may be carried
out in any order.
-/

namespace Deobfuscate.Source

open Deobfuscate.Text

/-- A text that closes each angle bracket it opens and no other, has characters
of a kind only inside them and no parentheses. -/
structure IsNested (inside text : List Char) : Prop where
  balanced : text.count '<' = text.count '>'
  opened : ∀ start, start <+: text → start.count '>' ≤ start.count '<'
  within : ∀ start char, start ++ [char] <+: text → char ∈ inside →
    start.count '>' < start.count '<'
  noParenthesis : '(' ∉ text ∧ ')' ∉ text

instance (inside text : List Char) : Decidable (IsNested inside text) :=
  decidable_of_iff
    (text.count '<' = text.count '>' ∧
      (∀ start ∈ text.inits, start.count '>' ≤ start.count '<') ∧
      (∀ start ∈ text.inits, inside.all fun char =>
        start ++ [char] ∈ text.inits → start.count '>' < start.count '<') ∧
      '(' ∉ text ∧ ')' ∉ text)
    (by
      simp only [List.mem_inits, List.all_eq_true, decide_eq_true_eq]
      constructor
      · rintro ⟨balanced, opened, within, noParenthesis⟩
        exact ⟨balanced, opened, fun start char isStart member =>
          within start ((List.prefix_append _ _).trans isStart) char member
            isStart, noParenthesis⟩
      · rintro ⟨balanced, opened, within, noParenthesis⟩
        exact ⟨balanced, opened, fun start _ char member isStart =>
          within start char isStart member, noParenthesis⟩)

theorem foldl_angle_add_count {text : List Char}
    (opened : ∀ start, start <+: text → start.count '>' ≤ start.count '<') :
    text.foldl angle 0 + text.count '>' = text.count '<' := by
  induction text using List.reverseRecOn with
  | nil => rfl
  | append_singleton text char inductionHypothesis =>
      have before := inductionHypothesis fun start isStart =>
        opened start (isStart.trans (List.prefix_append _ _))
      have whole := opened _ (List.prefix_refl _)
      rw [List.count_append, List.count_append] at whole ⊢
      rw [List.foldl_append, List.foldl_cons, List.foldl_nil, angle]
      by_cases opens : char = '<'
      · subst opens
        simp at whole ⊢
        omega
      · by_cases closes : char = '>'
        · subst closes
          simp at whole ⊢
          omega
        · simpa [opens, closes] using before

theorem foldl_bracket_eq {text : List Char} (depth : Nat)
    (noParenthesis : '(' ∉ text ∧ ')' ∉ text) :
    text.foldl bracket depth = text.foldl angle depth := by
  induction text generalizing depth with
  | nil => rfl
  | cons char text inductionHypothesis =>
      simp only [List.mem_cons, not_or] at noParenthesis
      obtain ⟨⟨noOpening, openingLater⟩, noClosing, closingLater⟩ :=
        noParenthesis
      have same : bracket depth char = angle depth char := by
        simp [bracket, angle, Ne.symm noOpening, Ne.symm noClosing]
      rw [List.foldl_cons, List.foldl_cons, same]
      exact inductionHypothesis _ ⟨openingLater, closingLater⟩

section Nested

variable {inside text : List Char}

theorem IsNested.closed (nested : IsNested inside text) :
    text.foldl angle 0 = 0 := by
  have total := foldl_angle_add_count nested.opened
  have balanced := nested.balanced
  omega

/-- Before a character of the kind some angle bracket is open. -/
theorem IsNested.angle_pos (nested : IsNested inside text)
    {start more : List Char} {char : Char}
    (whole : text = start ++ char :: more) (member : char ∈ inside) :
    0 < start.foldl angle 0 := by
  have isStart : start ++ [char] <+: text := ⟨more, by rw [whole]; simp⟩
  have total := foldl_angle_add_count fun before isBefore =>
    nested.opened before
      (isBefore.trans ((List.prefix_append _ _).trans isStart))
  have opened := nested.within start char isStart member
  omega

end Nested

/-- Texts between commas outside brackets that close no parenthesis. -/
structure IsRow (count : Nat) (text : List Char) : Prop where
  closed : text.foldl bracket 0 = 0
  pieces : (splitParameters 0 text).length = count
  noClosing : ')' ∉ text

theorem IsRow.append {count more : Nat} {left right : List Char}
    (isRow : IsRow (count + 1) left) (follows : IsRow (more + 1) right) :
    IsRow (count + more + 1) (left ++ right) where
  closed := by rw [List.foldl_append, isRow.closed, follows.closed]
  pieces := by
    have total := length_splitParameters_append 0 left right
    rw [isRow.closed, isRow.pieces, follows.pieces] at total
    omega
  noClosing := by simp [isRow.noClosing, follows.noClosing]

theorem isRow_comma : IsRow 2 [','] := ⟨rfl, rfl, by decide⟩

theorem isRow_space : IsRow 1 [' '] := ⟨rfl, rfl, by decide⟩

/-- A text without commas outside brackets is one piece. -/
theorem length_splitParameters_eq_one {depth : Nat} {text : List Char}
    (inside : ∀ start more, text = start ++ ',' :: more →
      0 < start.foldl bracket depth) :
    (splitParameters depth text).length = 1 := by
  induction text generalizing depth with
  | nil => rfl
  | cons char text inductionHypothesis =>
      have noCut : ¬ (char = ',' ∧ depth = 0) := by
        rintro ⟨rfl, rfl⟩
        exact absurd (inside [] text rfl) (Nat.lt_irrefl 0)
      rw [splitParameters, if_neg noCut, List.length_modifyHead]
      refine inductionHypothesis fun start more whole => ?_
      exact inside (char :: start) more (by rw [whole]; rfl)

theorem IsNested.isRow {inside text : List Char}
    (nested : IsNested inside text) (comma : ',' ∈ inside) :
    IsRow 1 text where
  closed := by rw [foldl_bracket_eq 0 nested.noParenthesis, nested.closed]
  noClosing := nested.noParenthesis.2
  pieces := by
    refine length_splitParameters_eq_one fun start more whole => ?_
    have noParenthesis : '(' ∉ start ∧ ')' ∉ start := by
      have none := nested.noParenthesis
      rw [whole] at none
      simp only [List.mem_append, not_or] at none
      exact ⟨none.1.1, none.2.1⟩
    rw [foldl_bracket_eq 0 noParenthesis]
    exact nested.angle_pos whole comma

theorem isRow_word {text : List Char}
    (word : ∀ char ∈ text, isWordChar char = true) : IsRow 1 text := by
  induction text with
  | nil => exact ⟨rfl, rfl, List.not_mem_nil⟩
  | cons char text inductionHypothesis =>
      have first : IsRow 1 [char] := by
        have apart : ∀ mark ∈ ['(', ')', '<', '>', ','], char ≠ mark := by
          rintro mark member rfl
          have inWord := word char List.mem_cons_self
          have noWord := List.all_eq_true.1
            (by decide : ['(', ')', '<', '>', ','].all
              (fun mark => !isWordChar mark) = true) char member
          rw [inWord] at noWord
          cases noWord
        simp only [List.mem_cons, List.not_mem_nil, or_false, forall_eq_or_imp,
          forall_eq] at apart
        constructor
        · simp [bracket, apart]
        · simp [splitParameters, apart]
        · simp [Ne.symm apart.2.1]
      exact first.append (inductionHypothesis fun other member =>
        word other (List.mem_cons_of_mem _ member))

structure Parameter where
  isFinal : Bool := false
  type : List Char
  suffix : List Char := []
  name : List Char
  deriving DecidableEq

def Parameter.front (parameter : Parameter) : List Char :=
  (if parameter.isFinal then "final ".toList else []) ++ parameter.type

def Parameter.text (parameter : Parameter) : List Char :=
  parameter.front ++ parameter.suffix ++ ' ' :: parameter.name

/-- Parameters, separated by a comma and a space. -/
def listText (parameters : List Parameter) : List Char :=
  ", ".toList.intercalate (parameters.map Parameter.text)

/-- A line that declares a method, with the type arguments put behind the return
type. -/
structure MethodLine where
  head : List Char
  suffix : List Char := []
  name : List Char
  parameters : List Parameter
  tail : List Char
  deriving DecidableEq

namespace MethodLine

def opening (line : MethodLine) : List Char :=
  line.head ++ line.suffix ++ ' ' :: line.name

def text (line : MethodLine) : List Char :=
  line.opening ++ '(' :: (listText line.parameters ++ ')' :: line.tail)

end MethodLine

/-- A parameter is well formed: its type is shown and closes its angle brackets,
and what stands before the type arguments does not end in `final`. -/
structure Parameter.IsSound (parameter : Parameter) : Prop where
  type : IsNested [' ', ','] parameter.type
  shown : ∃ char ∈ parameter.type, isAsciiBlank char = false
  notFinal :
    endsWith "final".toList (trimEndChars parameter.front) = false
  suffix : IsNested [','] parameter.suffix
  name : ∀ char ∈ parameter.name, isWordChar char = true

structure MethodLine.IsSound (line : MethodLine) : Prop where
  head : '(' ∉ line.head
  suffix : '(' ∉ line.suffix
  name : ' ' ∉ line.name ∧ '(' ∉ line.name ∧ ')' ∉ line.name
  filled : line.parameters ≠ []
  parameters : ∀ parameter ∈ line.parameters, parameter.IsSound

/-! ## The parameter list -/

theorem isRow_final : IsRow 1 "final ".toList :=
  ⟨by decide, by decide, by decide⟩

theorem Parameter.IsSound.isRow {parameter : Parameter}
    (sound : parameter.IsSound) : IsRow 1 parameter.text := by
  have type : IsRow 1 parameter.type := sound.type.isRow (by decide)
  have front : IsRow 1 parameter.front := by
    unfold front
    split
    · exact isRow_final.append type
    · exact type
  exact (front.append (sound.suffix.isRow (by decide))).append
    (isRow_space.append (isRow_word sound.name))

theorem listText_cons_cons (first second : Parameter)
    (others : List Parameter) :
    listText (first :: second :: others) =
      first.text ++ (", ".toList ++ listText (second :: others)) := by
  rw [listText, List.map_cons, List.map_cons, List.intercalate_cons_cons,
    List.append_assoc]
  rfl

theorem listText_append {before after : List Parameter} (some : before ≠ [])
    (more : after ≠ []) :
    listText (before ++ after) =
      listText before ++ (", ".toList ++ listText after) := by
  induction before with
  | nil => exact absurd rfl some
  | cons first before inductionHypothesis =>
      cases before with
      | nil =>
          obtain ⟨second, others, rfl⟩ := List.exists_cons_of_ne_nil more
          rw [List.singleton_append, listText_cons_cons]
          simp [listText]
      | cons second before =>
          rw [List.cons_append, List.cons_append, listText_cons_cons,
            listText_cons_cons, ← List.cons_append,
            inductionHypothesis (List.cons_ne_nil _ _)]
          simp only [List.append_assoc]

/-- A list goes on behind its first parameter whatever that is. -/
theorem listText_cons (others : List Parameter) :
    ∃ more, ∀ first : Parameter,
      listText (first :: others) = first.text ++ more := by
  cases others with
  | nil => exact ⟨[], fun first => by simp [listText]⟩
  | cons second others => exact ⟨_, fun first => listText_cons_cons _ _ _⟩

theorem isRow_listText {parameters : List Parameter} (some : parameters ≠ [])
    (sound : ∀ parameter ∈ parameters, parameter.IsSound) :
    IsRow parameters.length (listText parameters) := by
  induction parameters with
  | nil => exact absurd rfl some
  | cons first others inductionHypothesis =>
      have firstRow := (sound first List.mem_cons_self).isRow
      cases others with
      | nil => simpa [listText] using firstRow
      | cons second others =>
          have rest := inductionHypothesis (List.cons_ne_nil _ _)
            fun parameter member =>
              sound parameter (List.mem_cons_of_mem _ member)
          have separator : IsRow 2 ", ".toList := isRow_comma.append isRow_space
          have count : 0 + (1 + others.length) + 1 =
              (first :: second :: others).length := by
            simp only [List.length_cons]
            omega
          rw [listText_cons_cons, ← count]
          exact firstRow.append (separator.append rest)

/-- A parameter stands behind the ones passed over, whatever its type arguments
are. -/
theorem listText_split {before : List Parameter} (after : List Parameter)
    (sound : ∀ parameter ∈ before, parameter.IsSound) :
    ∃ skipped lead more, IsSkipped before.length skipped ∧
      (lead = [] ∨ lead = [' ']) ∧ ∀ parameter : Parameter,
        listText (before ++ parameter :: after) =
          skipped ++ (lead ++ parameter.text ++ more) := by
  obtain ⟨more, follows⟩ := listText_cons after
  cases before with
  | nil => exact ⟨[], [], more, .nothing, .inl rfl, follows⟩
  | cons first others =>
      have isRow := isRow_listText (List.cons_ne_nil first others) sound
      have passed : IsPassed 0 others.length (listText (first :: others)) := by
        refine ⟨isRow.closed, isRow.pieces, fun start rest whole => ?_⟩
        have closing := isRow.noClosing
        rw [whole] at closing
        simp at closing
      refine ⟨_, [' '], more, .through passed, .inr rfl, fun parameter => ?_⟩
      rw [listText_append (List.cons_ne_nil _ _) (List.cons_ne_nil _ _),
        follows]
      simp

theorem endsWith_final_cons_space (text : List Char) :
    endsWith "final".toList (trimEndChars (' ' :: text)) =
      endsWith "final".toList (trimEndChars text) := by
  have blank : isBlank ' ' = true := by decide
  have noSpace : "final".toList ≠ ' ' :: trimEndChars text := by simp
  unfold trimEndChars at noSpace ⊢
  rw [List.reverse_cons, List.dropWhile_append]
  split
  · rename_i none
    rw [List.isEmpty_iff.1 none]
    simp [blank]
  · rw [List.reverse_append, List.reverse_singleton, List.singleton_append,
      endsWith, endsWith, Bool.eq_iff_iff, List.isSuffixOf_iff_suffix,
      List.isSuffixOf_iff_suffix, List.suffix_cons_iff]
    exact or_iff_right noSpace

section Front

variable {parameter : Parameter} {lead : List Char}

theorem isType_front (sound : parameter.IsSound)
    (leads : lead = [] ∨ lead = [' ']) : IsType (lead ++ parameter.front) := by
  have noAngle : lead.foldl angle 0 = 0 := by
    rcases leads with rfl | rfl <;> rfl
  refine ⟨?_, ?_, ?_⟩
  · obtain ⟨char, member, shown⟩ := sound.shown
    exact ⟨char, List.mem_append_right _ (List.mem_append_right _ member),
      shown⟩
  · rw [List.foldl_append, noAngle, Parameter.front, List.foldl_append]
    split <;> exact sound.type.closed
  · rcases leads with rfl | rfl
    · exact sound.notFinal
    · exact (endsWith_final_cons_space _).trans sound.notFinal

def typeLeads : List (List Char) :=
  [[], [' '], "final ".toList, " final ".toList]

theorem not_isType_of_typeLeads {start : List Char}
    (early : ∃ before ∈ typeLeads, start ++ [' '] <+: before) :
    ¬ IsType start := by
  have checked : ∀ before ∈ typeLeads, ∀ start ∈ before.inits,
      start ++ [' '] ∈ before.inits →
        start.all isAsciiBlank = true ∨
          endsWith "final".toList (trimEndChars start) = true := by
    decide
  obtain ⟨before, member, isStart⟩ := early
  intro isType
  rcases checked before member start
      ((List.mem_inits _ _).2 ((List.prefix_append _ _).trans isStart))
      ((List.mem_inits _ _).2 isStart) with blank | final
  · obtain ⟨char, inStart, shown⟩ := isType.shown
    rw [List.all_eq_true.1 blank char inStart] at shown
    cases shown
  · rw [isType.notFinal] at final
    cases final

/-- At a space before the end of the type, nothing but `final` was passed or some
angle bracket is open. -/
theorem not_isType_of_front (sound : parameter.IsSound)
    (leads : lead = [] ∨ lead = [' ']) {shorter between : List Char}
    (whole : lead ++ parameter.front = shorter ++ ' ' :: between) :
    ¬ IsType shorter := by
  obtain ⟨before, member, front, closed⟩ : ∃ before ∈ typeLeads,
      lead ++ parameter.front = before ++ parameter.type ∧
        before.foldl angle 0 = 0 := by
    unfold Parameter.front
    rcases leads with rfl | rfl <;> split
    · exact ⟨"final ".toList, by decide, rfl, rfl⟩
    · exact ⟨[], by decide, rfl, rfl⟩
    · exact ⟨" final ".toList, by decide, rfl, rfl⟩
    · exact ⟨[' '], by decide, rfl, rfl⟩
  have inType : ∀ inner, parameter.type = inner ++ ' ' :: between →
      ¬ IsType (before ++ inner) := by
    intro inner inside isType
    have pending := sound.type.angle_pos inside (by decide)
    have none := isType.closed
    rw [List.foldl_append, closed] at none
    omega
  rw [front] at whole
  rcases List.append_eq_append_iff.1 whole with
    ⟨inner, rfl, inside⟩ | ⟨inner, early, rest⟩
  · exact inType inner inside
  · cases inner with
    | nil =>
        rw [List.append_nil] at early
        subst early
        simpa using inType [] rest.symm
    | cons first inner =>
        obtain ⟨rfl, _⟩ := List.cons.inj rest
        exact not_isType_of_typeLeads
          ⟨before, member, inner, by rw [early]; simp⟩

end Front

namespace MethodLine

variable {line : MethodLine}

theorem IsSound.opening (sound : line.IsSound) : '(' ∉ line.opening := by
  unfold MethodLine.opening
  simp [sound.head, sound.suffix, sound.name.2.1]

theorem splitOnce_text (sound : line.IsSound) :
    splitOnce '(' line.text =
      some (line.opening, listText line.parameters ++ ')' :: line.tail) :=
  splitOnce_append _ sound.opening

/-- The line is cut directly behind the type of the parameter. -/
theorem splitParameterType_text {before after : List Parameter}
    {parameter : Parameter} (sound : line.IsSound)
    (parameters : line.parameters = before ++ parameter :: after)
    (bare : parameter.suffix = []) :
    ∃ start more,
      splitParameterType line.text before.length = some (start, more) ∧
        ∀ suffix, start ++ suffix ++ more =
          { line with
            parameters := before ++ { parameter with suffix } :: after }.text := by
  have parameterSound : parameter.IsSound :=
    sound.parameters parameter (by rw [parameters]; simp)
  have beforeSound : ∀ other ∈ before, other.IsSound := fun other member =>
    sound.parameters other (by
      rw [parameters]
      exact List.mem_append_left _ member)
  obtain ⟨skipped, lead, more, isSkipped, leads, list⟩ :=
    listText_split after beforeSound
  have opened := splitOnce_text sound
  rw [parameters, list, Parameter.text, bare, List.append_nil,
    List.append_assoc skipped] at opened
  have cut := (splitParameterType_eq_some_iff opened isSkipped).2
    ⟨lead ++ parameter.front, parameter.name ++ more ++ ')' :: line.tail,
      by simp, rfl, rfl, isType_front parameterSound leads,
      fun shorter between => not_isType_of_front parameterSound leads⟩
  refine ⟨_, _, cut, fun suffix => ?_⟩
  have front : ({ parameter with suffix } : Parameter).front =
      parameter.front := rfl
  rw [text, list, Parameter.text, front]
  simp only [MethodLine.opening, List.append_assoc, List.cons_append]

/-- The line is cut directly behind the return type. -/
theorem splitLast_opening (sound : line.IsSound) :
    splitLast ' ' line.opening = some (line.head ++ line.suffix, line.name) :=
  splitLast_append _ sound.name.1

/-! ## Carrying out entries -/

def fill (line : MethodLine) (slot : Slot) (suffix : List Char) : MethodLine :=
  match slot with
  | .returnType => { line with suffix }
  | .parameter index =>
      { line with
        parameters := line.parameters.modify index fun parameter =>
          { parameter with suffix } }
  | .fieldType => line

def has (line : MethodLine) : Slot → Bool
  | .returnType => true
  | .parameter index => index < line.parameters.length
  | .fieldType => false

def IsFree (line : MethodLine) : Slot → Prop
  | .returnType => line.suffix = []
  | .parameter index =>
      ∀ parameter, line.parameters[index]? = some parameter →
        parameter.suffix = []
  | .fieldType => True

theorem insertSuffix_text {entry : GenericEntry} (sound : line.IsSound)
    (free : line.IsFree entry.slot) (noField : entry.slot ≠ .fieldType) :
    insertSuffix line.text entry =
      if line.has entry.slot then
        some (line.fill entry.slot entry.suffix.toList).text
      else none := by
  unfold insertSuffix
  generalize entry.slot = slot at free noField
  cases slot with
  | fieldType => exact absurd rfl noField
  | returnType =>
      have bare : line.suffix = [] := free
      have cut : splitSlot line.text .returnType =
          some (line.head, ' ' :: (line.name ++
            '(' :: (listText line.parameters ++ ')' :: line.tail))) := by
        simp only [splitSlot, splitOnce_text sound, splitLast_opening sound,
          Option.bind_eq_bind, Option.bind_some, bare, List.append_nil]
        rfl
      rw [cut, has, if_pos rfl]
      simp [fill, text, MethodLine.opening]
  | parameter index =>
      rw [splitSlot]
      by_cases within : index < line.parameters.length
      · have split : line.parameters = line.parameters.take index ++
            line.parameters[index] :: line.parameters.drop (index + 1) := by
          simp
        have bare := free _ (List.getElem?_eq_getElem within)
        obtain ⟨start, more, cut, filled⟩ :=
          splitParameterType_text sound split bare
        rw [List.length_take, Nat.min_eq_left (Nat.le_of_lt within)] at cut
        rw [cut, has, decide_eq_true within, if_pos rfl, Option.map_some,
          filled, fill, List.modify_eq_take_cons_drop within]
      · have isRow := isRow_listText sound.filled sound.parameters
        have missing : splitParameterType line.text index = none := by
          unfold splitParameterType
          rw [splitOnce_text sound]
          simp [skipParameters_eq_none
            (.inr ⟨line.tail, rfl, isRow.closed⟩)
            (isRow.pieces.trans_le (Nat.le_of_not_lt within))]
        rw [missing, has, decide_eq_false within]
        rfl

theorem IsSound.fill {slot : Slot} {suffix : List Char}
    (sound : line.IsSound) (nested : IsNested [','] suffix) :
    (line.fill slot suffix).IsSound := by
  cases slot with
  | fieldType => exact sound
  | returnType => exact { sound with suffix := nested.noParenthesis.1 }
  | parameter index =>
      refine { sound with filled := ?_, parameters := ?_ }
      · intro empty
        have length := congrArg List.length empty
        rw [MethodLine.fill, List.length_modify] at length
        exact sound.filled (List.length_eq_zero_iff.1 length)
      · intro parameter member
        obtain ⟨place, here⟩ := List.mem_iff_getElem?.1 member
        rw [MethodLine.fill, List.getElem?_modify] at here
        obtain ⟨old, there, rfl⟩ := Option.map_eq_some_iff.1 here
        have oldSound := sound.parameters old (List.mem_of_getElem? there)
        split
        · exact { oldSound with suffix := nested }
        · exact oldSound

theorem has_fill (slot other : Slot) (suffix : List Char) :
    (line.fill slot suffix).has other = line.has other := by
  cases other with
  | returnType => rfl
  | fieldType => rfl
  | parameter index =>
      cases slot with
      | returnType => rfl
      | fieldType => rfl
      | parameter place =>
          rw [has, has, fill, List.length_modify]

theorem IsFree.fill {slot other : Slot} (suffix : List Char)
    (free : line.IsFree other) (different : other ≠ slot) :
    (line.fill slot suffix).IsFree other := by
  cases slot with
  | fieldType => exact free
  | returnType =>
      cases other with
      | returnType => exact absurd rfl different
      | parameter index => exact free
      | fieldType => trivial
  | parameter place =>
      cases other with
      | returnType => exact free
      | fieldType => trivial
      | parameter index =>
          intro parameter here
          have apart : place ≠ index := fun same => different (by rw [same])
          rw [MethodLine.fill, List.getElem?_modify] at here
          simp only [if_neg apart] at here
          exact free parameter (by simpa using here)

theorem fill_comm {left right : Slot} (different : left ≠ right)
    (first second : List Char) :
    (line.fill left first).fill right second =
      (line.fill right second).fill left first := by
  cases left with
  | fieldType => rfl
  | returnType =>
      cases right with
      | returnType => exact absurd rfl different
      | parameter index => rfl
      | fieldType => rfl
  | parameter place =>
      cases right with
      | returnType => rfl
      | fieldType => rfl
      | parameter index =>
          have apart : place ≠ index := fun same => different (by rw [same])
          simp only [fill]
          rw [List.modify_modify_ne _ _ _ apart]

/-- Entries for different free slots fill these slots, if the line has all of
them. -/
theorem foldlM_insertSuffix {entries : List GenericEntry}
    (sound : line.IsSound) (distinct : (entries.map (·.slot)).Nodup)
    (free : ∀ entry ∈ entries, line.IsFree entry.slot)
    (nested : ∀ entry ∈ entries, entry.slot ≠ .fieldType ∧
      IsNested [','] entry.suffix.toList) :
    entries.foldlM insertSuffix line.text =
      if entries.all (line.has ·.slot) then
        some (entries.foldl
          (fun line entry => line.fill entry.slot entry.suffix.toList) line).text
      else none := by
  induction entries generalizing line with
  | nil => rfl
  | cons entry entries inductionHypothesis =>
      obtain ⟨fresh, distinctRest⟩ := List.nodup_cons.1 distinct
      obtain ⟨noField, suffix⟩ := nested entry List.mem_cons_self
      rw [List.foldlM_cons,
        insertSuffix_text sound (free entry List.mem_cons_self) noField]
      by_cases here : line.has entry.slot = true
      · have later := inductionHypothesis (sound.fill suffix) distinctRest
          (fun other member =>
            (free other (List.mem_cons_of_mem _ member)).fill _ fun same =>
              fresh (List.mem_map.2 ⟨other, member, same⟩))
          fun other member => nested other (List.mem_cons_of_mem _ member)
        rw [if_pos here]
        simpa [here, has_fill] using later
      · simp [here]

/-- The order of entries for different slots does not matter. -/
theorem foldlM_insertSuffix_perm {entries others : List GenericEntry}
    (sound : line.IsSound) (same : entries.Perm others)
    (distinct : (entries.map (·.slot)).Nodup)
    (free : ∀ entry ∈ entries, line.IsFree entry.slot)
    (nested : ∀ entry ∈ entries, entry.slot ≠ .fieldType ∧
      IsNested [','] entry.suffix.toList) :
    entries.foldlM insertSuffix line.text =
      others.foldlM insertSuffix line.text := by
  have distinctOthers := (same.map (·.slot)).nodup_iff.1 distinct
  rw [foldlM_insertSuffix sound distinct free nested,
    foldlM_insertSuffix sound distinctOthers
      (fun entry member => free entry (same.mem_iff.2 member))
      fun entry member => nested entry (same.mem_iff.2 member),
    same.all_eq]
  have commutes : ∀ left ∈ entries, ∀ right ∈ entries, ∀ line : MethodLine,
      (line.fill left.slot left.suffix.toList).fill right.slot
          right.suffix.toList =
        (line.fill right.slot right.suffix.toList).fill left.slot
          left.suffix.toList := by
    intro left inLeft right inRight line
    by_cases equal : left.slot = right.slot
    · rw [List.inj_on_of_nodup_map distinct inLeft inRight equal]
    · exact fill_comm equal _ _
  rw [same.foldl_eq' commutes]

end MethodLine

/-- On a well-formed line type arguments come directly behind the return type or
behind the type of a parameter, and a parameter that the line does not have is
reported.  Entries for different slots may be carried out in any order. -/
theorem insertSuffix_methodLine {line : MethodLine} (sound : line.IsSound)
    (bare : ∀ slot, line.IsFree slot) :
    (∀ entry, entry.slot = .returnType →
        insertSuffix line.text entry =
          some { line with suffix := entry.suffix.toList }.text) ∧
      (∀ entry index, entry.slot = .parameter index →
        index < line.parameters.length →
        insertSuffix line.text entry =
          some { line with
            parameters := line.parameters.modify index fun parameter =>
              { parameter with suffix := entry.suffix.toList } }.text) ∧
      (∀ entry index, entry.slot = .parameter index →
        line.parameters.length ≤ index →
        insertSuffix line.text entry = none ∧
          ∀ file number position rest,
            Renamer.applies file entry line.text = true →
            Renamer.insertSuffixes file number line.text
                ((position, entry) :: rest) =
              .error ⟨file, number, .parameter index, entry.suffix,
                String.ofList line.text⟩) ∧
      ∀ entries others : List GenericEntry, entries.Perm others →
        (entries.map (·.slot)).Nodup →
        (∀ entry ∈ entries, entry.slot ≠ .fieldType ∧
          IsNested [','] entry.suffix.toList) →
        entries.foldlM insertSuffix line.text =
          others.foldlM insertSuffix line.text := by
  refine ⟨?_, ?_, ?_, ?_⟩
  · intro entry slot
    rw [MethodLine.insertSuffix_text sound (bare _) (by simp [slot]), slot]
    rfl
  · intro entry index slot within
    rw [MethodLine.insertSuffix_text sound (bare _) (by simp [slot]), slot,
      MethodLine.has, decide_eq_true within]
    rfl
  · intro entry index slot beyond
    have missing : insertSuffix line.text entry = none := by
      rw [MethodLine.insertSuffix_text sound (bare _) (by simp [slot]), slot,
        MethodLine.has, decide_eq_false (Nat.not_lt.2 beyond)]
      rfl
    refine ⟨missing, fun file number position rest applies => ?_⟩
    rw [Renamer.insertSuffixes, if_pos applies, missing, slot]
  · intro entries others same distinct nested
    exact MethodLine.foldlM_insertSuffix_perm sound same distinct
      (fun entry _ => bare entry.slot) nested

/-- A line with nested type arguments before a parameter that is final. -/
def mixedLine : MethodLine where
  head := "public Map".toList
  name := "func_1_a".toList
  parameters :=
    [{ type := "Map<String, Integer>".toList, name := "p_1_1_".toList },
      { isFinal := true, type := "List".toList, name := "p_1_2_".toList }]
  tail := " \x7b".toList

def listEntry (slot : Slot) (suffix : String) : GenericEntry :=
  ⟨"net/Foo.java", "net.Foo", "func_1_a", slot, "java.util.List", suffix⟩

theorem insertSuffix_methodLine_mixed :
    mixedLine.IsSound ∧
      insertSuffix mixedLine.text (listEntry (.parameter 1) "<A, B>") =
        some ("public Map func_1_a(Map<String, Integer> p_1_1_, " ++
          "final List<A, B> p_1_2_) \x7b").toList ∧
      Renamer.insertSuffixes "net/Foo.java" 7 mixedLine.text
          [(0, listEntry (.parameter 2) "<A>")] =
        .error ⟨"net/Foo.java", 7, .parameter 2, "<A>",
          String.ofList mixedLine.text⟩ ∧
      [listEntry .returnType "<C>", listEntry (.parameter 1) "<A, B>"].foldlM
          insertSuffix mixedLine.text =
        [listEntry (.parameter 1) "<A, B>", listEntry .returnType "<C>"].foldlM
          insertSuffix mixedLine.text := by
  have sound : mixedLine.IsSound := by
    refine ⟨by decide, by decide, by decide, by decide, ?_⟩
    intro parameter member
    rcases List.mem_pair.1 member with rfl | rfl
    · exact ⟨by decide, ⟨'M', by decide, by decide⟩, by decide, by decide,
        List.all_eq_true.1 (by decide)⟩
    · exact ⟨by decide, ⟨'L', by decide, by decide⟩, by decide, by decide,
        List.all_eq_true.1 (by decide)⟩
  have bare : ∀ slot, mixedLine.IsFree slot := by
    intro slot
    cases slot with
    | returnType => rfl
    | fieldType => trivial
    | parameter index =>
        intro parameter here
        rcases List.mem_pair.1 (List.mem_of_getElem? here) with rfl | rfl <;>
          rfl
  obtain ⟨_, placed, missing, anyOrder⟩ := insertSuffix_methodLine sound bare
  refine ⟨sound, ?_, ?_, ?_⟩
  · exact (placed _ 1 rfl (by decide)).trans (by decide)
  · exact (missing (listEntry (.parameter 2) "<A>") 2 rfl (by decide)).2
      "net/Foo.java" 7 0 [] (by decide)
  · exact anyOrder _ _ (List.Perm.swap _ _ _) (by decide) (by decide)

/-- A type that is blank, or that ends in `final` and blanks, is passed over; type
arguments with a comma of their own make a parameter more; and a parameter that is
named like a field takes type arguments for a field, too. -/
theorem insertSuffix_misplaced :
    let field : MethodLine :=
      { head := "public List".toList
        name := "func_1_a".toList
        parameters := [{ type := "Map".toList, name := "field_1".toList }]
        tail := " \x7b".toList }
    let declares (types : List String) : MethodLine :=
      { head := "public List".toList
        name := "func_1_a".toList
        parameters := types.map fun type =>
          { type := type.toList, name := "p_1_".toList }
        tail := " \x7b".toList }
    let first := listEntry (.parameter 0) "<A>, <B>"
    let second := listEntry (.parameter 1) "<C>"
    (IsNested [' ', ','] "\t".toList ∧
        insertSuffix (declares ["\t"]).text
            (listEntry (.parameter 0) "<A>") =
          some "public List func_1_a(\t p_1_)<A> \x7b".toList ∧
        ((declares ["\t"]).fill (.parameter 0) "<A>".toList).text =
          "public List func_1_a(\t<A> p_1_) \x7b".toList) ∧
      (IsNested [' ', ','] "xfinal\t".toList ∧
        endsWith "final".toList "xfinal\t".toList = false ∧
        insertSuffix (declares ["xfinal\t"]).text
            (listEntry (.parameter 0) "<A>") =
          some "public List func_1_a(xfinal\t p_1_)<A> \x7b".toList ∧
        ((declares ["xfinal\t"]).fill (.parameter 0) "<A>".toList).text =
          "public List func_1_a(xfinal\t<A> p_1_) \x7b".toList) ∧
      IsNested [] "<A>, <B>".toList ∧ IsNested [] "<C>".toList ∧
        [first, second].foldlM insertSuffix (declares ["List", "Map"]).text ≠
          [second, first].foldlM insertSuffix
            (declares ["List", "Map"]).text ∧
        [listEntry (.parameter 0) "<A>", listEntry .fieldType "<B>"].foldlM
            insertSuffix field.text =
          some "public List func_1_a(Map<A><B> field_1) \x7b".toList ∧
        [listEntry .fieldType "<B>", listEntry (.parameter 0) "<A>"].foldlM
            insertSuffix field.text =
          some "public List func_1_a(Map<B><A> field_1) \x7b".toList := by
  decide

end Deobfuscate.Source
