import Deobfuscate.Mapping.Table
import Deobfuscate.Proofs.FileTree.Lookup

/-!
# Names in mapping tables

A line of a mapping file is cut at its blanks, so every name that is read from
one is a word: it is not empty and has no blank in it.  A method is written with
a space between its name and its descriptor, and methods whose names have no
blank are told apart by what is written.
-/

namespace Deobfuscate

namespace Text

theorem wordsOf_of_blank {char : Char} (blank : isBlank char = true)
    (rest : List Char) : wordsOf (char :: rest) = wordsOf rest := by
  generalize cut : wordsOf rest = words
  unfold wordsOf
  rw [if_pos blank, cut]

/-- A character that is not blank is a word of its own or starts the first word
of what follows. -/
theorem wordsOf_of_unblank {char : Char} (unblank : isBlank char = false)
    (rest : List Char) :
    wordsOf (char :: rest) = [char] :: wordsOf rest ∨
      ∃ word words, wordsOf rest = word :: words ∧
        wordsOf (char :: rest) = (char :: word) :: words := by
  have notBlank : ¬isBlank char = true := by simp [unblank]
  generalize cut : wordsOf rest = words
  unfold wordsOf
  rw [if_neg notBlank, cut]
  split
  · split
    · exact Or.inl rfl
    · exact Or.inr ⟨_, _, rfl, rfl⟩
  · exact Or.inl rfl

theorem unblank_of_mem_wordsOf {chars word : List Char}
    (member : word ∈ wordsOf chars) :
    word ≠ [] ∧ ∀ char ∈ word, isBlank char = false := by
  induction chars generalizing word with
  | nil => exact absurd member List.not_mem_nil
  | cons char rest inductionHypothesis =>
      cases blank : isBlank char with
      | true =>
          rw [wordsOf_of_blank blank] at member
          exact inductionHypothesis member
      | false =>
          rcases wordsOf_of_unblank blank rest with
            split | ⟨first, words, cut, joined⟩
          · rw [split] at member
            rcases List.mem_cons.1 member with rfl | later
            · simp [blank]
            · exact inductionHypothesis later
          · rw [joined] at member
            rcases List.mem_cons.1 member with rfl | later
            · have start := inductionHypothesis (cut ▸ List.mem_cons_self)
              refine ⟨List.cons_ne_nil _ _, fun other inside => ?_⟩
              rcases List.mem_cons.1 inside with rfl | inside
              · exact blank
              · exact start.2 other inside
            · exact inductionHypothesis (cut ▸ List.mem_cons_of_mem _ later)

end Text

namespace Mapping

open Text

def IsWord (name : String) : Prop :=
  name.toList ≠ [] ∧ ∀ char ∈ name.toList, isBlank char = false

instance (name : String) : Decidable (IsWord name) :=
  inferInstanceAs (Decidable (_ ∧ _))

theorem isWord_of_mem_wordsOf {chars : List Char} {name : String}
    (member : name ∈ (wordsOf chars).map String.ofList) : IsWord name := by
  obtain ⟨word, cut, rfl⟩ := List.mem_map.1 member
  rw [IsWord, String.toList_ofList]
  exact unblank_of_mem_wordsOf cut

def Method.Worded (method : Method) : Prop :=
  IsWord method.name ∧ IsWord method.descriptor

/-- What stands before the first space of a text is told apart from what stands
behind it. -/
theorem append_space_inj {name other rest others : List Char}
    (unblank : ∀ char ∈ name, isBlank char = false)
    (otherUnblank : ∀ char ∈ other, isBlank char = false)
    (same : name ++ ' ' :: rest = other ++ ' ' :: others) :
    name = other ∧ rest = others := by
  have space : isBlank ' ' = true := by decide
  induction name generalizing other with
  | nil =>
      cases other with
      | nil => exact ⟨rfl, (List.cons.inj same).2⟩
      | cons char _ =>
          have start := otherUnblank char List.mem_cons_self
          rw [← (List.cons.inj same).1, space] at start
          cases start
  | cons char chars inductionHypothesis =>
      cases other with
      | nil =>
          have start := unblank char List.mem_cons_self
          rw [(List.cons.inj same).1, space] at start
          cases start
      | cons otherChar otherChars =>
          obtain ⟨sameChar, sameRest⟩ := List.cons.inj same
          obtain ⟨sameName, behind⟩ := inductionHypothesis
            (fun char inside => unblank char (List.mem_cons_of_mem _ inside))
            (fun char inside =>
              otherUnblank char (List.mem_cons_of_mem _ inside)) sameRest
          exact ⟨by rw [sameChar, sameName], behind⟩

/-- Methods whose names have no blank are told apart by what is written. -/
theorem Method.text_injective {left right : Method} (leftWord : IsWord left.name)
    (rightWord : IsWord right.name) (same : left.text = right.text) :
    left = right := by
  have written : ∀ method : Method, method.text.toList =
      method.name.toList ++ ' ' :: method.descriptor.toList := by
    intro method
    have space : " ".toList = [' '] := by decide
    rw [Method.text, String.toList_append, String.toList_append, space,
      List.append_assoc, List.singleton_append]
  obtain ⟨sameName, sameDescriptor⟩ := append_space_inj leftWord.2 rightWord.2
    (by rw [← written, ← written, same])
  obtain ⟨name, descriptor⟩ := left
  obtain ⟨otherName, otherDescriptor⟩ := right
  rw [Method.mk.injEq]
  exact ⟨String.toList_inj.1 sameName, String.toList_inj.1 sameDescriptor⟩

def Entry.Worded : Entry → Prop
  | .package source target | .type source target | .field source target =>
      IsWord source ∧ IsWord target
  | .method source target => source.Worded ∧ target.Worded

/-- A table whose names can stand on lines. -/
structure Table.Worded (table : Table) : Prop where
  packages : ∀ pair ∈ table.packages, IsWord pair.1 ∧ IsWord pair.2
  classes : ∀ pair ∈ table.classes, IsWord pair.1 ∧ IsWord pair.2
  fields : ∀ pair ∈ table.fields, IsWord pair.1 ∧ IsWord pair.2
  methods : ∀ pair ∈ table.methods, pair.1.Worded ∧ pair.2.Worded

theorem readPair_worded {kind : String} {make : String → String → Entry}
    {fields : List String} {entry : Entry}
    (read : readPair kind make fields = .ok entry)
    (words : ∀ field ∈ fields, IsWord field)
    (worded : ∀ source target, IsWord source → IsWord target →
      (make source target).Worded) : entry.Worded := by
  unfold readPair at read
  split at read
  · cases read
    exact worded _ _ (words _ (by simp)) (words _ (by simp))
  · cases read

theorem readMethods_worded {fields : List String} {entry : Entry}
    (read : readMethods fields = .ok entry)
    (words : ∀ field ∈ fields, IsWord field) : entry.Worded := by
  unfold readMethods at read
  split at read
  · cases read
    exact ⟨⟨words _ (by simp), words _ (by simp)⟩,
      words _ (by simp), words _ (by simp)⟩
  · cases read

theorem map_some_eq_ok {ε α : Type} {result : Except ε α} {value : α} :
    result.map some = .ok (some value) ↔ result = .ok value := by
  cases result <;> simp [Except.map]

theorem readLine_worded {line : String} {entry : Entry}
    (read : readLine line = .ok (some entry)) : entry.Worded := by
  unfold readLine at read
  dsimp only at read
  split at read
  · cases read
  · split at read
    · cases read
    · rename_i kind rest _
      have words : ∀ field ∈ (wordsOf rest).map String.ofList, IsWord field :=
        fun _ => isWord_of_mem_wordsOf
      rw [map_some_eq_ok] at read
      have both : ∀ source target, IsWord source → IsWord target →
          IsWord source ∧ IsWord target := fun _ _ first second => ⟨first, second⟩
      split at read
      · exact readPair_worded read words both
      · exact readPair_worded read words both
      · exact readPair_worded read words both
      · exact readMethods_worded read words
      · cases read

theorem Table.Worded.cons {entry : Entry} {table : Table}
    (entryWorded : entry.Worded) (worded : table.Worded) :
    (table.cons entry).Worded := by
  cases entry with
  | package source target =>
      exact { worded with
        packages := List.forall_mem_cons.2 ⟨entryWorded, worded.packages⟩ }
  | type source target =>
      exact { worded with
        classes := List.forall_mem_cons.2 ⟨entryWorded, worded.classes⟩ }
  | field source target =>
      exact { worded with
        fields := List.forall_mem_cons.2 ⟨entryWorded, worded.fields⟩ }
  | method source target =>
      exact { worded with
        methods := List.forall_mem_cons.2 ⟨entryWorded, worded.methods⟩ }

theorem Table.readLines_worded {path : Path} {number : Nat}
    {lines : List String} {table : Table}
    (read : readLines path number lines = .ok table) : table.Worded := by
  induction lines generalizing number table with
  | nil =>
      cases read
      constructor <;> exact fun _ member => absurd member List.not_mem_nil
  | cons line lines inductionHypothesis =>
      unfold readLines at read
      split at read
      · cases read
      · rename_i entry? given
        obtain ⟨rest, readRest, made⟩ := bind_eq_ok.1 read
        have worded := inductionHypothesis readRest
        cases entry? with
        | none =>
            cases made
            exact worded
        | some entry =>
            cases made
            exact worded.cons (readLine_worded given)

/-- Every name of a table that was read is a word. -/
theorem Table.parse_worded {text : String} {path : Path} {table : Table}
    (parsed : parse text path = .ok table) : table.Worded :=
  readLines_worded parsed

end Mapping

end Deobfuscate
