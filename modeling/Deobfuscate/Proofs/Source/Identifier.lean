import Deobfuscate.Proofs.Text.Search
import Deobfuscate.Source.Renamer
import Mathlib.Data.List.Infix
import Mathlib.Data.List.SplitBy
import Mathlib.Data.List.TakeWhile

/-!
# Renaming token by token

A line is cut into maximal runs of word characters and dollar signs and the
separators between them.  An intermediate name is recognised only at the end of
its run, so a position of the line looks no further than that end: what is found
there is the whole rest of the run or nothing.

Hence renaming acts on each run by itself.  It replaces the longest end of the
run that has the form of an intermediate name, if a table has an entry for it,
and leaves the separators alone.
-/

namespace Deobfuscate.Source

open Deobfuscate.Text

/-- Characters of the runs into which a line is cut. -/
def isRunChar (char : Char) : Bool :=
  isWordChar char || char == '$'

theorem isRunChar_of_isWordChar {char : Char}
    (word : isWordChar char = true) : isRunChar char = true := by
  simp [isRunChar, word]

/-- Every range of digits lies in a range of word characters. -/
theorem wordRanges_of_decimalRanges {digits : Nat × Nat}
    (member : digits ∈ decimalRanges) :
    ∃ range ∈ wordRanges, range.1 ≤ digits.1 ∧ digits.2 ≤ range.2 := by
  have checked : (decimalRanges.all fun digits => wordRanges.any fun range =>
      Nat.ble range.1 digits.1 && Nat.ble digits.2 range.2) = true := by
    decide +kernel
  obtain ⟨range, inWord, within⟩ :=
    List.any_eq_true.1 (List.all_eq_true.1 checked digits member)
  rw [Bool.and_eq_true, Nat.ble_eq, Nat.ble_eq] at within
  exact ⟨range, inWord, within⟩

theorem isWordChar_of_isDecimal {char : Char}
    (decimal : isDecimal char = true) : isWordChar char = true := by
  unfold isDecimal at decimal
  unfold isWordChar
  split
  · rename_i ascii
    rw [if_pos ascii] at decimal
    simp [Char.isAlphanum, decimal]
  · rename_i other
    rw [if_neg other] at decimal
    obtain ⟨digits, member, above, below⟩ := CharClass.has_iff.1 decimal
    obtain ⟨range, inWord, least, greatest⟩ :=
      wordRanges_of_decimalRanges member
    exact CharClass.has_iff.2 ⟨range, inWord, by omega, by omega⟩

theorem toNat_lt_of_isAlpha {char : Char} (letter : char.isAlpha = true) :
    char.toNat < 128 := by
  rcases Bool.or_eq_true_iff.1 letter with upper | lower
  · have within : char.val ≥ 'A'.val ∧ char.val ≤ 'Z'.val :=
      of_decide_eq_true upper
    exact Nat.lt_of_le_of_lt within.2 (by decide)
  · have within : char.val ≤ 'z'.val :=
      of_decide_eq_true (Bool.and_eq_true_iff.1 lower).2
    exact Nat.lt_of_le_of_lt within (by decide)

theorem isWordChar_of_isNameLetter {char : Char}
    (letter : isNameLetter char = true) : isWordChar char = true := by
  simp only [isNameLetter, Bool.or_eq_true, beq_iff_eq] at letter
  rcases letter with alphabetic | rfl
  · unfold isWordChar
    rw [if_pos (toNat_lt_of_isAlpha alphabetic)]
    simp [Char.isAlphanum, alphabetic]
  · decide

def IsNumbered (tail : List Char) : Prop :=
  ∃ number letters, tail = number ++ '_' :: letters ∧
    number ≠ [] ∧ (∀ char ∈ number, isDecimal char = true) ∧
    letters ≠ [] ∧ ∀ char ∈ letters, isNameLetter char = true

/-- Word characters, an underscore, a number and an underscore. -/
def IsParameterRest (tail : List Char) : Prop :=
  ∃ part number, tail = part ++ '_' :: (number ++ ['_']) ∧
    part ≠ [] ∧ (∀ char ∈ part, isWordChar char = true) ∧
    number ≠ [] ∧ ∀ char ∈ number, isDecimal char = true

/-- The forms of intermediate names. -/
inductive IsName : NameKind → List Char → Prop
  | method {tail : List Char} (numbered : IsNumbered tail) :
      IsName .method ("func_".toList ++ tail)
  | field {tail : List Char} (numbered : IsNumbered tail) :
      IsName .field ("field_".toList ++ tail)
  | parameter {tail : List Char} (ends : IsParameterRest tail) :
      IsName .parameter ("p_".toList ++ tail)

theorem isWordChar_underscore : isWordChar '_' = true := by decide

theorem IsNumbered.isWordChar {tail : List Char} (numbered : IsNumbered tail) :
    ∀ char ∈ tail, isWordChar char = true := by
  obtain ⟨number, letters, rfl, _, decimal, _, alphabetic⟩ := numbered
  intro char member
  simp only [List.mem_append, List.mem_cons] at member
  rcases member with digit | rfl | letter
  · exact isWordChar_of_isDecimal (decimal char digit)
  · exact isWordChar_underscore
  · exact isWordChar_of_isNameLetter (alphabetic char letter)

theorem IsParameterRest.isWordChar {tail : List Char}
    (ends : IsParameterRest tail) : ∀ char ∈ tail, isWordChar char = true := by
  obtain ⟨part, number, rfl, _, word, _, decimal⟩ := ends
  intro char member
  simp only [List.mem_append, List.mem_cons, List.not_mem_nil, or_false]
    at member
  rcases member with inPart | rfl | digit | rfl
  · exact word char inPart
  · exact isWordChar_underscore
  · exact isWordChar_of_isDecimal (decimal char digit)
  · exact isWordChar_underscore

theorem IsName.isRunChar {kind : NameKind} {name : List Char}
    (isName : IsName kind name) : ∀ char ∈ name, isRunChar char = true := by
  have starts := List.all_eq_true.1
    (by decide : ("func_".toList ++ "field_".toList ++ "p_".toList).all
      Source.isRunChar = true)
  simp only [List.mem_append] at starts
  intro char member
  cases isName with
  | method numbered =>
      rcases List.mem_append.1 member with start | later
      · exact starts char (.inl (.inl start))
      · exact isRunChar_of_isWordChar (numbered.isWordChar char later)
  | field numbered =>
      rcases List.mem_append.1 member with start | later
      · exact starts char (.inl (.inr start))
      · exact isRunChar_of_isWordChar (numbered.isWordChar char later)
  | parameter ends =>
      rcases List.mem_append.1 member with start | later
      · exact starts char (.inr start)
      · exact isRunChar_of_isWordChar (ends.isWordChar char later)

theorem IsName.ne_nil {kind : NameKind} {name : List Char}
    (isName : IsName kind name) : name ≠ [] := by
  cases isName <;> simp

theorem endsName_iff {rest : List Char} :
    endsName rest = true ↔ ∀ char ∈ rest.head?, isRunChar char = false := by
  cases rest with
  | nil => simp [endsName]
  | cons char rest => simp [endsName, isRunChar]

/-- Characters of a class are taken up to a rest that does not go on with it. -/
theorem takeWhile_append_of_head {inClass : Char → Bool}
    {chars rest : List Char} (all : ∀ char ∈ chars, inClass char = true)
    (stops : ∀ char ∈ rest.head?, inClass char = false) :
    (chars ++ rest).takeWhile inClass = chars := by
  rw [List.takeWhile_append_of_pos all]
  cases rest with
  | nil => simp
  | cons char rest => simp [stops char rfl]

theorem takeWhile_append_of_ends {inClass : Char → Bool}
    {chars rest : List Char} (all : ∀ char ∈ chars, inClass char = true)
    (inWord : ∀ char, inClass char = true → isWordChar char = true)
    (ends : endsName rest = true) :
    (chars ++ rest).takeWhile inClass = chars := by
  refine takeWhile_append_of_head all fun char first => ?_
  have outside := endsName_iff.1 ends char first
  cases inside : inClass char with
  | false => rfl
  | true =>
      rw [isRunChar_of_isWordChar (inWord char inside)] at outside
      cases outside

theorem takeWhile_append_drop (inClass : Char → Bool) (chars : List Char) :
    chars.takeWhile inClass ++
        chars.drop (chars.takeWhile inClass).length = chars :=
  List.prefix_iff_eq_append.1 (List.takeWhile_prefix inClass)

def EndsRun (form : List Char → Prop) (chars : List Char) (length : Nat) :
    Prop :=
  ∃ piece rest, chars = piece ++ rest ∧ form piece ∧ endsName rest = true ∧
    length = piece.length

theorem EndsRun.behind {form whole : List Char → Prop} (start : List Char)
    {chars : List Char} {length : Nat} (ends : EndsRun form chars length)
    (formed : ∀ piece, form piece → whole (start ++ piece)) :
    EndsRun whole (start ++ chars) (length + start.length) := by
  obtain ⟨piece, rest, rfl, isForm, endsRest, rfl⟩ := ends
  refine ⟨start ++ piece, rest, by rw [List.append_assoc], formed piece isForm,
    endsRest, ?_⟩
  rw [List.length_append, Nat.add_comm]

theorem endsRun_of_numberedLength {chars : List Char} {length : Nat}
    (found : numberedLength chars = some length) :
    EndsRun IsNumbered chars length := by
  unfold numberedLength at found
  dsimp only at found
  split at found
  · rename_i rest behind
    split at found
    · cases found
    · rename_i complete
      simp only [not_or, Bool.not_eq_true', Bool.not_eq_false] at complete
      obtain ⟨counted, lettered, ends⟩ := complete
      have whole := takeWhile_append_drop isDecimal chars
      have tail := takeWhile_append_drop isNameLetter rest
      rw [behind] at whole
      refine ⟨chars.takeWhile isDecimal ++ '_' :: rest.takeWhile isNameLetter,
        rest.drop (rest.takeWhile isNameLetter).length, ?_,
        ⟨_, _, rfl, fun empty => counted (by rw [empty]; rfl),
          fun char => List.mem_takeWhile_imp,
          fun empty => lettered (by rw [empty]; rfl),
          fun char => List.mem_takeWhile_imp⟩, ends, ?_⟩
      · rw [List.append_assoc, List.cons_append, tail, whole]
      · have total := Option.some.inj found
        simp only [List.length_append, List.length_cons]
        omega
  · cases found

theorem numberedLength_append {tail rest : List Char}
    (numbered : IsNumbered tail) (ends : endsName rest = true) :
    numberedLength (tail ++ rest) = some tail.length := by
  obtain ⟨number, letters, rfl, counted, decimal, lettered, alphabetic⟩ :=
    numbered
  have underscore : isDecimal '_' = false := by decide
  have digits : (number ++ '_' :: letters ++ rest).takeWhile isDecimal =
      number := by
    rw [List.append_assoc]
    exact takeWhile_append_of_head decimal (by simpa using underscore)
  have taken : (letters ++ rest).takeWhile isNameLetter = letters :=
    takeWhile_append_of_ends alphabetic
      (fun _ => isWordChar_of_isNameLetter) ends
  have behind : (number ++ '_' :: letters ++ rest).drop number.length =
      '_' :: (letters ++ rest) := by
    simp
  have total : number.length + 1 + letters.length =
      (number ++ '_' :: letters).length := by
    simp only [List.length_append, List.length_cons]
    omega
  unfold numberedLength
  dsimp only
  rw [digits, behind]
  simp [taken, counted, lettered, ends, total]

theorem isParameterTail_iff {run : List Char}
    (word : ∀ char ∈ run, isWordChar char = true) :
    isParameterTail run.reverse = true ↔ IsParameterRest run := by
  constructor
  · intro tail
    unfold isParameterTail at tail
    split at tail
    · rename_i rest backward
      dsimp only at tail
      split at tail
      · rename_i part behind
        have whole := takeWhile_append_drop isDecimal rest
        rw [behind] at whole
        simp only [Bool.and_eq_true, decide_eq_true_eq, Bool.not_eq_true',
          List.isEmpty_eq_false_iff] at tail
        have forward : run =
            part.reverse ++ '_' :: ((rest.takeWhile isDecimal).reverse ++ ['_']) :=
          calc
            run = ('_' :: rest).reverse := by
              rw [← backward, List.reverse_reverse]
            _ = ('_' :: (rest.takeWhile isDecimal ++ '_' :: part)).reverse := by
              rw [whole]
            _ = _ := by simp
        refine ⟨_, _, forward, by simpa using tail.2, fun char member => ?_,
          by simpa using List.length_pos_iff.1 tail.1, fun char member =>
            List.mem_takeWhile_imp (List.mem_reverse.1 member)⟩
        exact word char (by rw [forward]; exact List.mem_append_left _ member)
      · cases tail
    · cases tail
  · rintro ⟨part, number, rfl, filled, _, counted, decimal⟩
    have underscore : isDecimal '_' = false := by decide
    have backward : (part ++ '_' :: (number ++ ['_'])).reverse =
        '_' :: (number.reverse ++ '_' :: part.reverse) := by
      simp
    have digits : (number.reverse ++ '_' :: part.reverse).takeWhile isDecimal =
        number.reverse :=
      takeWhile_append_of_head
        (fun char member => decimal char (List.mem_reverse.1 member))
        (by simpa using underscore)
    have positive := List.length_pos_iff.2 counted
    rw [backward]
    simp only [isParameterTail, digits, List.drop_left]
    simp [filled, positive]

theorem endsRun_of_parameterLength {chars : List Char} {length : Nat}
    (found : parameterLength chars = some length) :
    EndsRun IsParameterRest chars length := by
  unfold parameterLength at found
  dsimp only at found
  split at found
  · rename_i both
    obtain ⟨tail, ends⟩ := Bool.and_eq_true_iff.1 both
    exact ⟨chars.takeWhile isWordChar, _,
      (takeWhile_append_drop isWordChar chars).symm,
      (isParameterTail_iff fun char => List.mem_takeWhile_imp).1 tail, ends,
      (Option.some.inj found).symm⟩
  · cases found

theorem parameterLength_append {tail rest : List Char}
    (isRest : IsParameterRest tail) (ends : endsName rest = true) :
    parameterLength (tail ++ rest) = some tail.length := by
  have word := isRest.isWordChar
  have taken : (tail ++ rest).takeWhile isWordChar = tail :=
    takeWhile_append_of_ends word (fun _ inWord => inWord) ends
  unfold parameterLength
  simp [taken, (isParameterTail_iff word).2 isRest, ends]

/-- What is found at the start of a text is a name that ends its run. -/
theorem nameAt_eq_some_iff {chars : List Char} {kind : NameKind}
    {length : Nat} :
    nameAt chars = some (kind, length) ↔
      EndsRun (IsName kind) chars length := by
  constructor
  · intro found
    unfold nameAt at found
    split at found
    · rename_i rest stripped
      obtain ⟨size, measured, same⟩ := Option.map_eq_some_iff.1 found
      obtain ⟨rfl, rfl⟩ := Prod.mk.inj same
      rw [stripStart_eq_some stripped]
      exact (endsRun_of_numberedLength measured).behind _ fun _ => .method
    · split at found
      · rename_i rest stripped
        obtain ⟨size, measured, same⟩ := Option.map_eq_some_iff.1 found
        obtain ⟨rfl, rfl⟩ := Prod.mk.inj same
        rw [stripStart_eq_some stripped]
        exact (endsRun_of_numberedLength measured).behind _ fun _ => .field
      · split at found
        · rename_i rest stripped
          obtain ⟨size, measured, same⟩ := Option.map_eq_some_iff.1 found
          obtain ⟨rfl, rfl⟩ := Prod.mk.inj same
          rw [stripStart_eq_some stripped]
          exact (endsRun_of_parameterLength measured).behind _ fun _ =>
            .parameter
        · cases found
  · rintro ⟨name, rest, rfl, isName, ends, rfl⟩
    cases isName with
    | method numbered =>
        rw [List.append_assoc, nameAt, stripStart_append]
        simp [numberedLength_append numbered ends]
    | field numbered =>
        have noMethod : ∀ others,
            stripStart "func_".toList ("field_".toList ++ others) = none := by
          simp [stripStart]
        rw [List.append_assoc, nameAt, noMethod, stripStart_append]
        simp [numberedLength_append numbered ends]
    | parameter isRest =>
        have noMethod : ∀ others,
            stripStart "func_".toList ("p_".toList ++ others) = none := by
          simp [stripStart]
        have noField : ∀ others,
            stripStart "field_".toList ("p_".toList ++ others) = none := by
          simp [stripStart]
        rw [List.append_assoc, nameAt, noMethod, noField, stripStart_append]
        simp [parameterLength_append isRest ends]

/-- A position looks no further than the end of its run, which the name found
there reaches. -/
theorem nameAt_eq_some_iff_run {chars : List Char} {kind : NameKind}
    {length : Nat} :
    nameAt chars = some (kind, length) ↔
      IsName kind (chars.takeWhile isRunChar) ∧
        length = (chars.takeWhile isRunChar).length := by
  rw [nameAt_eq_some_iff]
  constructor
  · rintro ⟨name, rest, rfl, isName, ends, rfl⟩
    have run : (name ++ rest).takeWhile isRunChar = name :=
      takeWhile_append_of_head isName.isRunChar (endsName_iff.1 ends)
    rw [run]
    exact ⟨isName, rfl⟩
  · rintro ⟨isName, rfl⟩
    refine ⟨_, chars.dropWhile isRunChar, List.takeWhile_append_dropWhile.symm,
      isName, endsName_iff.2 ?_, rfl⟩
    intro char first
    have stopped := List.head?_dropWhile_not isRunChar chars
    rwa [Option.mem_def.1 first] at stopped

/-- No run goes on in a text: it is empty or starts with a separator. -/
def Apart (rest : List Char) : Prop :=
  ∀ char ∈ rest.head?, isRunChar char = false

theorem nameAt_append {rest : List Char} (apart : Apart rest)
    (chars : List Char) : nameAt (chars ++ rest) = nameAt chars := by
  have stops : rest.takeWhile isRunChar = [] :=
    takeWhile_append_of_head (List.forall_mem_nil _) apart
  have sameRun : (chars ++ rest).takeWhile isRunChar =
      chars.takeWhile isRunChar := by
    rw [List.takeWhile_append]
    split
    · rename_i whole
      rw [stops, List.append_nil]
      exact ((List.takeWhile_prefix isRunChar).eq_of_length whole).symm
    · rfl
  apply Option.ext
  rintro ⟨kind, length⟩
  rw [nameAt_eq_some_iff_run, nameAt_eq_some_iff_run, sameRun]

section Lookup

variable (lookup : NameKind → String → Option String)

def spelling (kind : NameKind) (name : List Char) : List Char :=
  ((lookup kind (String.ofList name)).map String.toList).getD name

theorem replaceNames_cons_of_none {char : Char} {rest : List Char}
    (nothing : nameAt (char :: rest) = none) :
    replaceNames lookup 0 (char :: rest) =
      char :: replaceNames lookup 0 rest := by
  rw [replaceNames, nothing]

theorem replaceNames_cons_of_some {char : Char} {rest : List Char}
    {kind : NameKind} {length : Nat}
    (found : nameAt (char :: rest) = some (kind, length)) :
    replaceNames lookup 0 (char :: rest) =
      spelling lookup kind ((char :: rest).take length) ++
        replaceNames lookup (length - 1) rest := by
  rw [replaceNames, found]
  rfl

theorem length_le_of_nameAt {chars : List Char} {kind : NameKind}
    {length : Nat} (found : nameAt chars = some (kind, length)) :
    length ≤ chars.length := by
  rw [(nameAt_eq_some_iff_run.1 found).2]
  exact (List.takeWhile_prefix isRunChar).length_le

/-- What follows a run does not meddle with it. -/
theorem replaceNames_append {rest : List Char} (apart : Apart rest) :
    ∀ (pending : Nat) (chars : List Char), pending ≤ chars.length →
      replaceNames lookup pending (chars ++ rest) =
        replaceNames lookup pending chars ++ replaceNames lookup 0 rest
  | 0, [], _ => by simp [replaceNames]
  | pending + 1, char :: chars, within => by
      have fewer : pending ≤ chars.length := Nat.le_of_succ_le_succ within
      rw [List.cons_append, replaceNames, replaceNames]
      exact replaceNames_append apart pending chars fewer
  | 0, char :: chars, _ => by
      have same := nameAt_append apart (char :: chars)
      cases found : nameAt (char :: chars) with
      | none =>
          rw [found, List.cons_append] at same
          rw [List.cons_append, replaceNames_cons_of_none lookup same,
            replaceNames_cons_of_none lookup found,
            replaceNames_append apart 0 chars (Nat.zero_le _),
            List.cons_append]
      | some name =>
          obtain ⟨kind, length⟩ := name
          have within := length_le_of_nameAt found
          have fewer : length - 1 ≤ chars.length := by
            rw [List.length_cons] at within
            omega
          have taken : (char :: (chars ++ rest)).take length =
              (char :: chars).take length :=
            List.take_append_of_le_length within
          rw [found, List.cons_append] at same
          rw [List.cons_append, replaceNames_cons_of_some lookup same,
            replaceNames_cons_of_some lookup found, taken,
            replaceNames_append apart (length - 1) chars fewer,
            List.append_assoc]

theorem replaceNames_pending :
    ∀ (pending : Nat) (chars : List Char), chars.length ≤ pending →
      replaceNames lookup pending chars = []
  | _, [], _ => by simp [replaceNames]
  | pending + 1, char :: chars, all => by
      rw [replaceNames]
      exact replaceNames_pending pending chars (Nat.le_of_succ_le_succ all)

/-- Separators are left alone. -/
theorem replaceNames_separators (rest : List Char) :
    ∀ {separators : List Char},
      (∀ char ∈ separators, isRunChar char = false) →
      replaceNames lookup 0 (separators ++ rest) =
        separators ++ replaceNames lookup 0 rest
  | [], _ => rfl
  | char :: separators, apart => by
      have first : isRunChar char = false := apart char List.mem_cons_self
      have nothing : nameAt (char :: (separators ++ rest)) = none := by
        apply Option.eq_none_iff_forall_not_mem.2
        rintro ⟨kind, length⟩ found
        have isName := (nameAt_eq_some_iff_run.1 found).1
        rw [List.takeWhile_cons_of_neg (by simp [first])] at isName
        exact isName.ne_nil rfl
      rw [List.cons_append, replaceNames_cons_of_none lookup nothing,
        replaceNames_separators rest fun other member =>
          apart other (List.mem_cons_of_mem _ member),
        List.cons_append]

/-! ## Runs -/

/-- The longest end of a run that has the form of a name. -/
structure Longest (run : List Char) (kind : NameKind) (name : List Char) :
    Prop where
  suffix : name <:+ run
  isName : IsName kind name
  longest : ∀ {other : List Char} {otherKind : NameKind}, other <:+ run →
    IsName otherKind other → other.length ≤ name.length

/-- How a run is spelled: its longest end that is a name is replaced, and a run
without such an end stays as it is. -/
inductive Spells : List Char → List Char → Prop
  | named {before name : List Char} {kind : NameKind}
      (longest : Longest (before ++ name) kind name) :
      Spells (before ++ name) (before ++ spelling lookup kind name)
  | plain {run : List Char}
      (nameless : ∀ kind name, name <:+ run → ¬ IsName kind name) :
      Spells run run

theorem Longest.cons {run name : List Char} {kind : NameKind} (char : Char)
    (longest : Longest run kind name)
    (whole : ∀ otherKind, ¬ IsName otherKind (char :: run)) :
    Longest (char :: run) kind name where
  suffix := longest.suffix.trans (List.suffix_cons char run)
  isName := longest.isName
  longest := by
    intro other otherKind isEnd isName
    rcases List.suffix_cons_iff.1 isEnd with rfl | later
    · exact absurd isName (whole otherKind)
    · exact longest.longest later isName

/-- A character before which no name reaches the end of the run stays. -/
theorem Spells.cons {run new : List Char} (char : Char)
    (spells : Spells lookup run new)
    (whole : ∀ kind, ¬ IsName kind (char :: run)) :
    Spells lookup (char :: run) (char :: new) := by
  cases spells with
  | named longest =>
      rw [← List.cons_append, ← List.cons_append]
      exact .named (longest.cons char whole)
  | plain nameless =>
      refine .plain fun kind name isEnd isName => ?_
      rcases List.suffix_cons_iff.1 isEnd with rfl | later
      · exact whole kind isName
      · exact nameless kind name later isName

theorem spells_replaceNames :
    ∀ {run : List Char}, (∀ char ∈ run, isRunChar char = true) →
      Spells lookup run (replaceNames lookup 0 run)
  | [], _ => by
      refine .plain fun kind name isEnd isName => ?_
      exact isName.ne_nil (List.suffix_nil.1 isEnd)
  | char :: rest, inRun => by
      have run : (char :: rest).takeWhile isRunChar = char :: rest :=
        List.takeWhile_eq_self_iff.2 inRun
      cases found : nameAt (char :: rest) with
      | none =>
          have whole : ∀ kind, ¬ IsName kind (char :: rest) := by
            intro kind isName
            have named := nameAt_eq_some_iff_run.2 ⟨run.symm ▸ isName, rfl⟩
            rw [found] at named
            cases named
          rw [replaceNames_cons_of_none lookup found]
          exact (spells_replaceNames fun other member =>
            inRun other (List.mem_cons_of_mem _ member)).cons lookup char whole
      | some name =>
          obtain ⟨kind, length⟩ := name
          obtain ⟨isName, total⟩ := nameAt_eq_some_iff_run.1 found
          rw [run] at isName total
          have longest : Longest ([] ++ char :: rest) kind (char :: rest) :=
            ⟨List.suffix_refl _, isName, fun isEnd _ => isEnd.length_le⟩
          have nothingLeft : replaceNames lookup (length - 1) rest = [] :=
            replaceNames_pending lookup _ rest (by
              rw [List.length_cons] at total
              omega)
          have taken : (char :: rest).take length = char :: rest :=
            List.take_of_length_le (Nat.le_of_eq total.symm)
          rw [replaceNames_cons_of_some lookup found, taken, nothingLeft,
            List.append_nil]
          exact .named longest

/-- The maximal runs of a line and the separators between them. -/
def tokensOf (line : List Char) : List (List Char) :=
  line.splitBy fun left right => isRunChar left == isRunChar right

/-- Whether a token follows another one: it is of the other kind. -/
def Alternates (left right : List Char) : Prop :=
  ∃ filled continued,
    (isRunChar (left.getLast filled) == isRunChar (right.head continued)) =
      false

/-- Tokens that a line is cut into: each is a run or a separator, and none could
be longer. -/
structure IsCut (line : List Char) (tokens : List (List Char)) : Prop where
  whole : tokens.flatten = line
  filled : ∀ token ∈ tokens, token ≠ []
  sameKind : ∀ token ∈ tokens, ∃ kind, ∀ char ∈ token, isRunChar char = kind
  maximal : tokens.IsChain Alternates

theorem IsCut.tail {line token : List Char} {tokens : List (List Char)}
    (cut : IsCut line (token :: tokens)) : IsCut tokens.flatten tokens where
  whole := rfl
  filled other member := cut.filled other (List.mem_cons_of_mem _ member)
  sameKind other member := cut.sameKind other (List.mem_cons_of_mem _ member)
  maximal := cut.maximal.tail

/-- What follows a run is a separator. -/
theorem IsCut.apart {line run : List Char} {tokens : List (List Char)}
    (cut : IsCut line (run :: tokens))
    (inRun : ∀ char ∈ run, isRunChar char = true) : Apart tokens.flatten := by
  cases tokens with
  | nil => simp [Apart]
  | cons next others =>
      obtain ⟨⟨filled, continued, differ⟩, _⟩ :=
        List.isChain_cons_cons.1 cut.maximal
      rw [inRun _ (List.getLast_mem filled)] at differ
      intro char first
      rw [List.flatten_cons, List.head?_append_of_ne_nil _ continued,
        List.head?_eq_some_head continued] at first
      obtain rfl := Option.some.inj first
      simpa using differ

theorem isCut_tokensOf (line : List Char) : IsCut line (tokensOf line) where
  whole := List.flatten_splitBy _ line
  filled _ member := List.ne_nil_of_mem_splitBy member
  maximal := List.isChain_getLast_head_splitBy
    (fun left right => isRunChar left == isRunChar right) line
  sameKind := by
    intro token member
    have chain := List.isChain_of_mem_splitBy member
    cases token with
    | nil => exact ⟨true, List.forall_mem_nil _⟩
    | cons first rest =>
        have transitive : IsTrans Char fun left right =>
            (isRunChar left == isRunChar right) = true :=
          ⟨fun _ _ _ leftMiddle middleRight => by
            rw [beq_iff_eq] at leftMiddle middleRight ⊢
            exact leftMiddle.trans middleRight⟩
        have alike := (List.pairwise_cons.1
          (List.isChain_iff_pairwise.1 chain)).1
        refine ⟨isRunChar first, fun char inToken => ?_⟩
        rcases List.mem_cons.1 inToken with rfl | later
        · rfl
        · exact (beq_iff_eq.1 (alike char later)).symm

/-- How a token is spelled: separators stay as they are. -/
inductive Respells : List Char → List Char → Prop
  | run {run new : List Char}
      (inRun : ∀ char ∈ run, isRunChar char = true)
      (spells : Spells lookup run new) : Respells run new
  | separator {separator : List Char}
      (apart : ∀ char ∈ separator, isRunChar char = false) :
      Respells separator separator

/-- Every token is spelled by itself. -/
theorem respells_replaceNames :
    ∀ {line : List Char} {tokens : List (List Char)}, IsCut line tokens →
      ∃ respelled, List.Forall₂ (Respells lookup) tokens respelled ∧
        replaceNames lookup 0 line = respelled.flatten
  | line, [], cut => by
      refine ⟨[], .nil, ?_⟩
      rw [← cut.whole]
      rfl
  | line, token :: tokens, cut => by
      obtain ⟨respelled, each, later⟩ := respells_replaceNames cut.tail
      obtain ⟨kind, same⟩ := cut.sameKind token List.mem_cons_self
      rw [← cut.whole, List.flatten_cons]
      cases kind with
      | false =>
          refine ⟨token :: respelled, .cons (.separator same) each, ?_⟩
          rw [replaceNames_separators lookup _ same, later, List.flatten_cons]
      | true =>
          refine ⟨replaceNames lookup 0 token :: respelled,
            .cons (.run same (spells_replaceNames lookup same)) each, ?_⟩
          rw [replaceNames_append lookup (cut.apart same) 0 token
            (Nat.zero_le _), later, List.flatten_cons]

/-- A token whose longest name has no entry stays as it is. -/
theorem Respells.eq_of_unnamed {token new : List Char}
    (respells : Respells lookup token new)
    (unnamed : ∀ kind name, Longest token kind name →
      lookup kind (String.ofList name) = none) : new = token := by
  cases respells with
  | separator => rfl
  | run _ spells =>
      cases spells with
      | plain => rfl
      | named longest => simp [spelling, unnamed _ _ longest]

theorem replaceNames_unnamed {line : List Char}
    (unnamed : ∀ token ∈ tokensOf line, ∀ kind name,
      Longest token kind name → lookup kind (String.ofList name) = none) :
    replaceNames lookup 0 line = line := by
  have cut := isCut_tokensOf line
  obtain ⟨respelled, each, renamed⟩ := respells_replaceNames lookup cut
  have same : respelled = tokensOf line := by
    apply List.ext_getElem each.length_eq.symm
    intro index inNew inOld
    have respells := each.get inOld inNew
    exact respells.eq_of_unnamed lookup
      (unnamed _ (List.getElem_mem inOld))
  rw [renamed, same, cut.whole]

end Lookup

/-- Renaming acts token by token.  Separators stay, and of a run only the longest
end that has the form of a name is replaced by its entry.  So what stands before
and after a separator is renamed by itself, and a line stays as it is where no
such end has an entry. -/
theorem Renamer.rename_tokenwise (renamer : Renamer) (line : List Char) :
    IsCut line (tokensOf line) ∧
      (∃ respelled,
        List.Forall₂ (Respells renamer.humanName) (tokensOf line) respelled ∧
          renamer.rename line = respelled.flatten) ∧
      (∀ before separator after, separator ≠ [] →
        (∀ char ∈ separator, isRunChar char = false) →
        renamer.rename (before ++ separator ++ after) =
          renamer.rename before ++ separator ++ renamer.rename after) ∧
      ((∀ token ∈ tokensOf line, ∀ kind name, Longest token kind name →
          renamer.humanName kind (String.ofList name) = none) →
        renamer.rename line = line) := by
  refine ⟨isCut_tokensOf line,
    respells_replaceNames renamer.humanName (isCut_tokensOf line), ?_,
    replaceNames_unnamed renamer.humanName⟩
  intro before separator after filled separates
  have apart : Apart (separator ++ after) := by
    intro char first
    rw [List.head?_append_of_ne_nil _ filled] at first
    exact separates char (List.mem_of_mem_head? first)
  rw [List.append_assoc, List.append_assoc]
  unfold rename
  rw [replaceNames_append renamer.humanName apart 0 before (Nat.zero_le _),
    replaceNames_separators renamer.humanName after separates]

/-- The parts around a parenthesis are renamed by themselves, and a name without
an entry stays. -/
theorem Renamer.rename_tokenwise_call :
    let renamer : Renamer :=
      { tables :=
          { methods := Dict.empty.insert "func_1_a" ⟨"run", none⟩
            parameters := Dict.empty.insert "p_1_2_" ⟨"speed", none⟩ } }
    renamer.rename "func_1_a(p_1_2_)".toList =
        renamer.rename "func_1_a".toList ++ ['('] ++
          renamer.rename "p_1_2_)".toList ∧
      renamer.rename "func_2_b$".toList = "func_2_b$".toList := by
  intro renamer
  obtain ⟨_, _, around, _⟩ := renamer.rename_tokenwise []
  obtain ⟨_, _, _, unnamed⟩ := renamer.rename_tokenwise "func_2_b$".toList
  refine ⟨around "func_1_a".toList ['('] "p_1_2_)".toList (by decide)
    (List.forall_mem_singleton.2 (by decide)), unnamed ?_⟩
  have noEntry : ∀ token ∈ tokensOf "func_2_b$".toList, ∀ name ∈ token.tails,
      renamer.humanName .method (String.ofList name) = none ∧
        renamer.humanName .field (String.ofList name) = none ∧
        renamer.humanName .parameter (String.ofList name) = none := by
    decide
  intro token member kind name longest
  obtain ⟨method, field, parameter⟩ :=
    noEntry token member name ((List.mem_tails _ _).2 longest.suffix)
  cases kind
  · exact method
  · exact field
  · exact parameter

end Deobfuscate.Source
