import Deobfuscate.Proofs.Digest.Record
import Deobfuscate.Proofs.Mapping.Translation
import Deobfuscate.Proofs.Text.Search

/-!
# Reading tables back

A table is written with a line for each pair, and a line is read by cutting it at
its blanks.  So a table is read back just when all its names are words.

The names of a table that was read are words, but human names come from records
that may hold anything.  A derived table is read back just when the human names
that stand in it leave the names they are put into words.
-/

namespace Deobfuscate

namespace Text

/-- A word before a blank, or at the end, is cut off. -/
theorem wordsOf_append {word rest : List Char} (nonempty : word ≠ [])
    (unblank : ∀ char ∈ word, isBlank char = false)
    (apart : ∀ char ∈ rest.head?, isBlank char = true) :
    wordsOf (word ++ rest) = word :: wordsOf rest := by
  induction word with
  | nil => exact absurd rfl nonempty
  | cons char chars inductionHypothesis =>
      have first : ¬isBlank char = true := by simp [unblank char (by simp)]
      rw [List.cons_append]
      cases chars with
      | nil =>
          rw [List.nil_append]
          cases rest with
          | nil => simp [wordsOf, first]
          | cons next rest =>
              have blank : isBlank next = true := apart next (by simp)
              generalize cut : wordsOf (next :: rest) = words
              unfold wordsOf
              rw [if_neg first, cut]
              cases words <;> simp [blank]
      | cons next others =>
          have second : ¬isBlank next = true := by simp [unblank next (by simp)]
          have cut := inductionHypothesis (List.cons_ne_nil _ _)
            fun char inside => unblank char (by simp [inside])
          generalize wordsOf rest = words at cut
          unfold wordsOf
          rw [if_neg first, cut]
          simp [second]

section Joined

variable {words : List (List Char)}
  (proper : ∀ word ∈ words, word ≠ [] ∧ ∀ char ∈ word, isBlank char = false)

include proper

/-- Words that are joined by spaces are cut apart again. -/
theorem wordsOf_intercalate : wordsOf ([' '].intercalate words) = words := by
  have space : isBlank ' ' = true := by decide
  induction words with
  | nil => rfl
  | cons word others inductionHypothesis =>
      obtain ⟨nonempty, unblank⟩ := proper word (by simp)
      have cut := inductionHypothesis fun word inside =>
        proper word (by simp [inside])
      cases others with
      | nil =>
          have alone : wordsOf (word ++ []) = word :: wordsOf [] :=
            wordsOf_append nonempty unblank (by simp)
          simpa [wordsOf] using alone
      | cons next others =>
          rw [List.intercalate_cons_cons, List.append_assoc,
            List.singleton_append,
            wordsOf_append nonempty unblank (by simp [space]),
            wordsOf_of_blank space, cut]

/-- Spaces are the only blanks between words. -/
theorem blank_of_mem_intercalate {char : Char}
    (member : char ∈ [' '].intercalate words) (blank : isBlank char = true) :
    char = ' ' := by
  induction words with
  | nil => simp [List.intercalate] at member
  | cons word others inductionHypothesis =>
      have outside : char ∉ word := by
        intro inside
        rw [(proper word (by simp)).2 char inside] at blank
        cases blank
      cases others with
      | nil =>
          rw [List.intercalate_singleton] at member
          exact absurd member outside
      | cons next others =>
          rw [List.intercalate_cons_cons] at member
          rcases List.mem_append.1 member with early | later
          · rcases List.mem_append.1 early with inside | space
            · exact absurd inside outside
            · exact List.mem_singleton.1 space
          · exact inductionHypothesis
              (fun word inside => proper word (by simp [inside])) later

/-- Joined words end with a character that is not blank. -/
theorem exists_last_intercalate (some : words ≠ []) :
    ∃ before last, [' '].intercalate words = before ++ [last] ∧
      isBlank last = false := by
  induction words with
  | nil => exact absurd rfl some
  | cons word others inductionHypothesis =>
      cases others with
      | nil =>
          obtain ⟨nonempty, unblank⟩ := proper word (by simp)
          rw [List.intercalate_singleton]
          exact ⟨word.dropLast, word.getLast nonempty,
            (List.dropLast_append_getLast nonempty).symm,
            unblank _ (List.getLast_mem nonempty)⟩
      | cons next others =>
          obtain ⟨before, last, ends, unblank⟩ := inductionHypothesis
            (fun word inside => proper word (by simp [inside]))
            (List.cons_ne_nil _ _)
          refine ⟨word ++ [' '] ++ before, last, ?_, unblank⟩
          rw [List.intercalate_cons_cons, ends, ← List.append_assoc]

end Joined

/-- Nothing is trimmed off a text that has no blanks at its ends. -/
theorem trimChars_of_ends {first last : Char} (middle : List Char)
    (start : isBlank first = false) (ending : isBlank last = false) :
    trimChars (first :: (middle ++ [last])) = first :: (middle ++ [last]) := by
  simp [trimChars, trimStartChars, trimEndChars, start, ending]

/-- A line is closed by the first line feed. -/
theorem plainLinesFrom_append (current : List Char) {line : List Char}
    (rest : List Char) (unbroken : '\n' ∉ line) :
    plainLinesFrom current (line ++ '\n' :: rest) =
      dropReturn (current.reverse ++ line) :: plainLinesFrom [] rest := by
  induction line generalizing current with
  | nil => rw [List.nil_append, plainLinesFrom, List.append_nil]
  | cons char chars inductionHypothesis =>
      obtain ⟨notFeed, later⟩ := not_or.1 (mt List.mem_cons.2 unbroken)
      rw [List.cons_append, plainLinesFrom.eq_3 _ _ _ (Ne.symm notFeed),
        inductionHypothesis (char :: current) later]
      simp

theorem dropReturn_concat {last : Char} (before : List Char)
    (other : last ≠ '\r') :
    dropReturn (before ++ [last]) = before ++ [last] := by
  unfold dropReturn
  rw [List.reverse_concat]
  split
  · rename_i same
    exact absurd (List.cons.inj same).1 other
  · rfl

end Text

namespace Mapping

open Text

/-- What a line starts with. -/
def Entry.kind : Entry → String
  | .package _ _ => "PK"
  | .type _ _ => "CL"
  | .field _ _ => "FD"
  | .method _ _ => "MD"

/-- The names on a line. -/
def Entry.names : Entry → List String
  | .package source target | .type source target | .field source target =>
      [source, target]
  | .method source target =>
      [source.name, source.descriptor, target.name, target.descriptor]

/-- A line without its line break. -/
def Entry.line (entry : Entry) : List Char :=
  entry.kind.toList ++ ':' :: ' ' ::
    [' '].intercalate (entry.names.map String.toList)

theorem Entry.worded_iff (entry : Entry) :
    entry.Worded ↔ ∀ name ∈ entry.names, IsWord name := by
  cases entry <;> simp [Worded, Method.Worded, names, and_assoc]

/-- The entries of a table in the order of their lines. -/
def Table.entries (table : Table) : List Entry :=
  table.packages.map (fun pair => .package pair.1 pair.2) ++
    table.classes.map (fun pair => .type pair.1 pair.2) ++
    table.fields.map (fun pair => .field pair.1 pair.2) ++
    table.methods.map fun pair => .method pair.1 pair.2

theorem Table.Worded.entries {table : Table} (worded : table.Worded) :
    ∀ entry ∈ table.entries, entry.Worded := by
  intro entry member
  simp only [Table.entries, List.mem_append, List.mem_map] at member
  rcases member with ((⟨pair, inside, rfl⟩ | ⟨pair, inside, rfl⟩) |
    ⟨pair, inside, rfl⟩) | ⟨pair, inside, rfl⟩
  · exact worded.packages pair inside
  · exact worded.classes pair inside
  · exact worded.fields pair inside
  · exact worded.methods pair inside

/-- Entries that go into one section of a table are put in front of it. -/
theorem Table.foldr_cons_map {α : Type} (make : α → Entry)
    (put : List α → Table → Table) (none : ∀ table, put [] table = table)
    (more : ∀ item items table,
      (put items table).cons (make item) = put (item :: items) table)
    (items : List α) (table : Table) :
    (items.map make).foldr Table.cons table = put items table := by
  induction items with
  | nil => exact (none table).symm
  | cons item rest inductionHypothesis =>
      rw [List.map_cons, List.foldr_cons, inductionHypothesis, more]

/-- A table is put together again from its entries. -/
theorem Table.foldr_cons_entries (table : Table) :
    table.entries.foldr Table.cons {} = table := by
  have packages := foldr_cons_map
    (fun pair : String × String => .package pair.1 pair.2)
    (fun pairs table => { table with packages := pairs ++ table.packages })
    (fun _ => rfl) (fun _ _ _ => rfl)
  have classes := foldr_cons_map
    (fun pair : String × String => .type pair.1 pair.2)
    (fun pairs table => { table with classes := pairs ++ table.classes })
    (fun _ => rfl) (fun _ _ _ => rfl)
  have fields := foldr_cons_map
    (fun pair : String × String => .field pair.1 pair.2)
    (fun pairs table => { table with fields := pairs ++ table.fields })
    (fun _ => rfl) (fun _ _ _ => rfl)
  have methods := foldr_cons_map
    (fun pair : Method × Method => .method pair.1 pair.2)
    (fun pairs table => { table with methods := pairs ++ table.methods })
    (fun _ => rfl) (fun _ _ _ => rfl)
  simp only [entries, List.foldr_append, packages, classes, fields, methods,
    List.append_nil]

theorem Table.toList_renderPair (kind source target : String) :
    (renderPair kind source target).toList =
      kind.toList ++ ':' :: ' ' :: (source.toList ++ ' ' :: target.toList) ++
        ['\n'] := by
  simp [renderPair]

theorem Table.toList_render (table : Table) :
    table.render.toList =
      table.entries.flatMap fun entry => entry.line ++ ['\n'] := by
  simp only [render, String.toList_join, entries, List.flatMap_append,
    List.flatMap_map, toList_renderPair]
  simp [Entry.line, Entry.kind, Entry.names, Method.text, List.intercalate]

/-! ## Reading lines back -/

section Line

variable {entry : Entry} (worded : entry.Worded)

include worded

theorem Entry.proper_names :
    ∀ word ∈ entry.names.map String.toList,
      word ≠ [] ∧ ∀ char ∈ word, isBlank char = false := by
  intro word member
  obtain ⟨name, inside, rfl⟩ := List.mem_map.1 member
  exact entry.worded_iff.1 worded name inside

/-- A line starts with its kind and ends with its last name. -/
theorem Entry.exists_ends_line :
    ∃ first middle last, entry.line = first :: (middle ++ [last]) ∧
      first ≠ '#' ∧ isBlank first = false ∧ isBlank last = false := by
  have some : entry.names.map String.toList ≠ [] := by
    cases entry <;> simp [names]
  obtain ⟨before, last, ends, unblank⟩ :=
    exists_last_intercalate (proper_names worded) some
  have letters : ∃ first second, entry.kind.toList = [first, second] ∧
      first ≠ '#' ∧ isBlank first = false := by
    cases entry with
    | package => exact ⟨'P', 'K', by simp [kind], by decide, by decide⟩
    | type => exact ⟨'C', 'L', by simp [kind], by decide, by decide⟩
    | field => exact ⟨'F', 'D', by simp [kind], by decide, by decide⟩
    | method => exact ⟨'M', 'D', by simp [kind], by decide, by decide⟩
  obtain ⟨first, second, kind, notComment, start⟩ := letters
  refine ⟨first, second :: ':' :: ' ' :: before, last, ?_, notComment, start,
    unblank⟩
  rw [line, ends, kind]
  rfl

/-- No line break stands on a line. -/
theorem Entry.unbroken_line : '\n' ∉ entry.line := by
  intro member
  rcases List.mem_append.1 member with inside | later
  · cases entry <;> simp [kind] at inside
  · have later : '\n' ∈ [' '].intercalate (entry.names.map String.toList) := by
      simpa using later
    have space :=
      blank_of_mem_intercalate (proper_names worded) later (by decide)
    exact absurd space (by decide)

/-- A line is read as the entry it was written for. -/
theorem readLine_line :
    readLine (String.ofList entry.line) = .ok (some entry) := by
  obtain ⟨first, middle, last, ends, notComment, start, unblank⟩ :=
    Entry.exists_ends_line worded
  have trimmed : trimChars entry.line = entry.line := by
    rw [ends, trimChars_of_ends middle start unblank]
  have counts :
      ¬(entry.line.isEmpty || entry.line.head? == some '#') = true := by
    simp [ends, notComment]
  have absent : ':' ∉ entry.kind.toList := by
    cases entry <;> simp [Entry.kind]
  have cut : splitOnce ':' entry.line = some (entry.kind.toList,
      ' ' :: [' '].intercalate (entry.names.map String.toList)) :=
    splitOnce_append _ absent
  have names : (wordsOf (' ' :: [' '].intercalate
      (entry.names.map String.toList))).map String.ofList = entry.names := by
    rw [wordsOf_of_blank (by decide),
      wordsOf_intercalate (Entry.proper_names worded)]
    simp
  unfold readLine
  rw [String.toList_ofList, trimmed]
  dsimp only
  rw [if_neg counts, cut]
  dsimp only
  rw [names, String.ofList_toList]
  cases entry <;> rfl

end Line

namespace Table

theorem plainLinesFrom_entries {entries : List Entry}
    (worded : ∀ entry ∈ entries, entry.Worded) :
    plainLinesFrom [] (entries.flatMap fun entry => entry.line ++ ['\n']) =
      entries.map Entry.line := by
  induction entries with
  | nil => rfl
  | cons entry rest inductionHypothesis =>
      have first := worded entry (by simp)
      obtain ⟨start, middle, last, ends, _, _, unblank⟩ :=
        Entry.exists_ends_line first
      have notReturn : last ≠ '\r' := by
        rintro rfl
        revert unblank
        decide
      rw [List.flatMap_cons, List.append_assoc, List.singleton_append,
        plainLinesFrom_append [] _ (Entry.unbroken_line first),
        inductionHypothesis fun entry member => worded entry (by simp [member]),
        List.reverse_nil, List.nil_append, List.map_cons, ends,
        ← List.cons_append, dropReturn_concat _ notReturn]

theorem readLines_entries (path : Path) (number : Nat) {entries : List Entry}
    (worded : ∀ entry ∈ entries, entry.Worded) :
    readLines path number
        (entries.map fun entry => String.ofList entry.line) =
      .ok (entries.foldr Table.cons {}) := by
  induction entries generalizing number with
  | nil => rfl
  | cons entry rest inductionHypothesis =>
      rw [List.map_cons, readLines, readLine_line (worded entry (by simp)),
        inductionHypothesis (number + 1)
          fun entry member => worded entry (by simp [member])]
      rfl

/-- A table is read back from its text just when all its names are words. -/
theorem parse_render_iff (table : Table) (path : Path) :
    parse table.render path = .ok table ↔ table.Worded := by
  refine ⟨parse_worded, fun worded => ?_⟩
  have lines : plainLines table.render =
      table.entries.map fun entry => String.ofList entry.line := by
    rw [plainLines, toList_render, plainLinesFrom_entries worded.entries,
      List.map_map]
    rfl
  rw [parse, lines, readLines_entries path 1 worded.entries,
    foldr_cons_entries]

/-- The names of packages, classes and fields, and the names and descriptors of
methods. -/
def names (table : Table) : List String :=
  table.entries.flatMap Entry.names

theorem worded_iff_names (table : Table) :
    table.Worded ↔ ∀ name ∈ table.names, IsWord name := by
  constructor
  · intro worded name member
    obtain ⟨entry, listed, inside⟩ := List.mem_flatMap.1 member
    exact entry.worded_iff.1 (worded.entries entry listed) name inside
  · intro words
    have each : ∀ entry ∈ table.entries, entry.Worded := fun entry listed =>
      entry.worded_iff.2 fun name inside =>
        words name (List.mem_flatMap.2 ⟨entry, listed, inside⟩)
    simp only [entries, List.forall_mem_append, List.forall_mem_map] at each
    obtain ⟨⟨⟨packages, classes⟩, fields⟩, methods⟩ := each
    exact ⟨packages, classes, fields, methods⟩

/-- A table is read back from its text just when none of its names is empty or
has a blank in it.  A table that was read always is.  So writing a table that was
read gives a normal form of its text: reading and writing it again changes
nothing. -/
theorem parse_render_names :
    (∀ (table : Table) (path : Path),
      parse table.render path = .ok table ↔
        ∀ name ∈ table.names,
          name ≠ "" ∧ ∀ char ∈ name.toList, isBlank char = false) ∧
    ∀ (text : String) (path : Path) (table : Table),
      parse text path = .ok table → ∀ written : Path,
        parse table.render written = .ok table ∧
          (parse table.render written).map render = .ok table.render := by
  constructor
  · intro table path
    rw [parse_render_iff, worded_iff_names]
    simp only [IsWord, ne_eq, String.toList_eq_nil_iff]
  · intro text path table parsed written
    have back := (parse_render_iff table written).2 (parse_worded parsed)
    exact ⟨back, by rw [back]; rfl⟩

theorem parse_render_names_sample :
    let text := "# pairs\r\n\r\n\tCL:a   net/Foo\r\nMD: a/c (I)V net/Foo/#f: (I)V"
    let table : Table :=
      { classes := [("a", "net/Foo")]
        methods := [(⟨"a/c", "(I)V"⟩, ⟨"net/Foo/#f:", "(I)V"⟩)] }
    parse text ⟨"joined.srg"⟩ = .ok table ∧
      parse table.render ⟨"again.srg"⟩ = .ok table := by
  intro text table
  have parsed : parse text ⟨"joined.srg"⟩ = .ok table := by decide
  exact ⟨parsed, (parse_render_names.2 text _ table parsed _).1⟩

end Table

/-- A human name may take the place of the short name in a name: it has no
blanks, and something is left if it is empty. -/
def Fits (name human : String) : Prop :=
  (∀ char ∈ human.toList, isBlank char = false) ∧
    (human = "" → '/' ∈ name.toList)

theorem isWord_withShortName {name : String} (word : IsWord name)
    (human : String) :
    IsWord (withShortName name human) ↔ Fits name human := by
  have slash : isBlank '/' = false := by decide
  unfold withShortName IsWord Fits
  rcases splitLast_cases '/' name.toList with
    ⟨none, absent⟩ | ⟨owner, short, cut, whole⟩
  · rw [none]
    simp [absent, and_comm]
  · have ownerUnblank : ∀ char ∈ owner, isBlank char = false :=
      fun char inside => word.2 char (by simp [whole, inside])
    rw [cut]
    simp [whole, or_imp, forall_and, slash]
    exact fun _ => ownerUnblank

theorem isWord_humanField (fields : NameTable) {name : String}
    (word : IsWord name) :
    IsWord (humanField fields name) ↔
      ∀ human ∈ fields.name? (shortName name), Fits name human := by
  unfold humanField
  cases fields.name? (shortName name) with
  | none => simp [word]
  | some human => simp [isWord_withShortName word]

theorem worded_humanMethod (methods : NameTable) {method : Method}
    (worded : method.Worded) :
    (humanMethod methods method).Worded ↔
      ∀ human ∈ methods.name? (shortName method.name),
        Fits method.name human := by
  unfold humanMethod
  cases methods.name? (shortName method.name) with
  | none => simp [worded]
  | some human =>
      simp [Method.Worded, isWord_withShortName worded.1, worded.2]

/-- Every human name that is given to a symbol of a table fits. -/
structure Nameable (base : Table) (fields methods : NameTable) : Prop where
  fields : ∀ pair ∈ base.fields,
    ∀ human ∈ fields.name? (shortName pair.2), Fits pair.2 human
  methods : ∀ pair ∈ base.methods,
    ∀ human ∈ methods.name? (shortName pair.2.name), Fits pair.2.name human

instance (name human : String) : Decidable (Fits name human) :=
  have : Decidable (∀ char ∈ human.toList, isBlank char = false) :=
    List.decidableBAll (fun char => isBlank char = false) human.toList
  inferInstanceAs (Decidable (_ ∧ _))

instance (base : Table) (fields methods : NameTable) :
    Decidable (Nameable base fields methods) :=
  decidable_of_iff
    ((∀ pair ∈ base.fields,
        ∀ human ∈ fields.name? (shortName pair.2), Fits pair.2 human) ∧
      ∀ pair ∈ base.methods,
        ∀ human ∈ methods.name? (shortName pair.2.name),
          Fits pair.2.name human)
    ⟨fun ⟨first, second⟩ => ⟨first, second⟩,
      fun fit => ⟨fit.fields, fit.methods⟩⟩

theorem Table.worded_iff (table : Table) :
    table.Worded ↔
      (∀ pair ∈ table.packages, IsWord pair.1 ∧ IsWord pair.2) ∧
      (∀ pair ∈ table.classes, IsWord pair.1 ∧ IsWord pair.2) ∧
      (∀ pair ∈ table.fields, IsWord pair.1 ∧ IsWord pair.2) ∧
      ∀ pair ∈ table.methods, pair.1.Worded ∧ pair.2.Worded :=
  ⟨fun worded => ⟨worded.packages, worded.classes, worded.fields,
    worded.methods⟩, fun ⟨packages, classes, fields, methods⟩ =>
    ⟨packages, classes, fields, methods⟩⟩

/-- Human names fit when the names they are put into are words. -/
theorem nameable_iff {base : Table} (worded : base.Worded)
    (fields methods : NameTable) :
    Nameable base fields methods ↔
      (∀ pair ∈ base.fields, IsWord (humanField fields pair.2)) ∧
        ∀ pair ∈ base.methods, (humanMethod methods pair.2).Worded := by
  have field : ∀ pair ∈ base.fields, IsWord (humanField fields pair.2) ↔ _ :=
    fun pair member => isWord_humanField fields (worded.fields pair member).2
  have method : ∀ pair ∈ base.methods,
      (humanMethod methods pair.2).Worded ↔ _ :=
    fun pair member => worded_humanMethod methods (worded.methods pair member).2
  rw [forall₂_congr field, forall₂_congr method]
  exact ⟨fun fit => ⟨fit.fields, fit.methods⟩, fun ⟨first, second⟩ =>
    ⟨first, second⟩⟩

theorem worded_table_iff {base : Table} (worded : base.Worded)
    (fields methods : NameTable) (direction : Direction) :
    (direction.table (generate base fields methods)).Worded ↔
      direction = .notchToIntermediate ∨ Nameable base fields methods := by
  rw [nameable_iff worded]
  obtain ⟨packages, classes, baseFields, baseMethods⟩ := worded
  simp only [imp_and, forall_and] at packages classes baseFields baseMethods
  cases direction
  all_goals
    simp only [Direction.table, generate, Table.worded_iff,
      List.forall_mem_map, imp_and, forall_and, reduceCtorEq, false_or, true_or]
    tauto

/-- The table from obfuscated to intermediate names is always read back.  Each of
the other four is read back from its text just when the human names given to
fields and methods leave every name a word. -/
theorem parse_render_generate_iff {text : String} {path : Path} {base : Table}
    (parsed : Table.parse text path = .ok base) (fields methods : NameTable)
    (direction : Direction) (written : Path) :
    Table.parse (direction.table (generate base fields methods)).render
        written = .ok (direction.table (generate base fields methods)) ↔
      direction = .notchToIntermediate ∨ Nameable base fields methods := by
  rw [Table.parse_render_iff, worded_table_iff (Table.parse_worded parsed)]

def ownedField : Table where
  fields := [("a/b", "net/Foo/field_1_a")]

/-- A human name for it. -/
def oneName : NameTable :=
  Dict.empty.insert "field_1_a" ⟨"health", none⟩

theorem parse_render_generate_iff_renamed :
    Table.parse "FD: a/b net/Foo/field_1_a\n" ⟨"joined.srg"⟩ =
        .ok ownedField ∧
      Nameable ownedField oneName .empty ∧
      ∀ (direction : Direction) (written : Path),
        Table.parse (direction.table
            (generate ownedField oneName .empty)).render written =
          .ok (direction.table (generate ownedField oneName .empty)) := by
  have parsed : Table.parse "FD: a/b net/Foo/field_1_a\n" ⟨"joined.srg"⟩ =
      .ok ownedField := by decide +kernel
  have fit : Nameable ownedField oneName .empty := by decide
  refine ⟨parsed, fit, fun direction written => ?_⟩
  exact (parse_render_generate_iff parsed _ _ direction written).2 (.inr fit)

/-- A human name with a blank in it makes a line of three names. -/
theorem blank_name_not_readBack :
    ∃ base fields methods,
      Table.parse "FD: a/b net/Foo/field_1_a\n" ⟨"joined.srg"⟩ = .ok base ∧
      NameTable.parse "field_1_a,max health\n" ⟨"fields.csv"⟩ = .ok fields ∧
      NameTable.parse "" ⟨"methods.csv"⟩ = .ok methods ∧
      Table.parse (generate base fields methods).notchToHuman.render
          ⟨"notch-mcp.srg"⟩ =
        .error ⟨⟨"notch-mcp.srg"⟩, 1, .fieldCount "FD" 2 3⟩ :=
  ⟨ownedField, Dict.empty.insert "field_1_a" ⟨"max health", none⟩, .empty,
    by decide +kernel, by decide +kernel, by decide +kernel,
    by decide⟩

end Mapping

end Deobfuscate
