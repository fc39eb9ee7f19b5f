import Deobfuscate.Proofs.Digest.Walk
import Deobfuscate.Proofs.Source.Accounting
import Deobfuscate.Proofs.Source.Comments
import Deobfuscate.Proofs.Source.Declaration
import Deobfuscate.Proofs.Source.Wrapping
import Deobfuscate.Proofs.Text.Search
import Deobfuscate.Source.Load

/-!
# Keys of constructors

A table names a constructor by its file, its class and the types of its
parameters.  The same key is made out of the line that declares the constructor,
whatever its modifiers and the names of its parameters are.
-/

namespace Deobfuscate.Source

open Deobfuscate.Text

/-- A parameter as a constructor line has it: a type without blanks at its ends
and a name without blanks. -/
structure TypedName where
  type : List Char
  name : List Char
  typed : type ≠ []
  trimmed : trimChars type = type
  named : name ≠ []
  unblank : ∀ char ∈ name, isBlank char = false
  /-- Nothing in it ends the parameter or the list of parameters. -/
  clear : ∀ char ∈ type ++ name, char ≠ ',' ∧ char ≠ ')'

def TypedName.text (parameter : TypedName) : List Char :=
  parameter.type ++ ' ' :: parameter.name

/-- A line that declares a constructor. -/
structure ConstructorLine where
  indent : List Char
  modifiers : List (List Char)
  name : List Char
  parameters : List TypedName
  /-- What follows the list of parameters. -/
  rest : List Char
  indented : IsIndent indent
  modifying : ∀ word ∈ modifiers,
    word ≠ [] ∧ ∀ char ∈ word, isTypeChar char = true
  declares : modifiers.head? ≠ some "return".toList
  capital : name.head?.any Char.isUpper = true
  named : ∀ char ∈ name, isMemberChar char = true

namespace ConstructorLine

variable (line : ConstructorLine)

def argumentList : List Char :=
  [',', ' '].intercalate (line.parameters.map TypedName.text)

/-- What comes between the indentation and the list of parameters. -/
def head : List Char :=
  spaced line.modifiers ++ line.name

/-- The line behind its indentation. -/
def body : List Char :=
  line.head ++ '(' :: (line.argumentList ++ ')' :: line.rest)

def text : List Char :=
  line.indent ++ line.body

/-- The name of the class and the types of the parameters. -/
def signature : String :=
  String.ofList line.name ++ ":" ++
    ",".intercalate (line.parameters.map fun parameter =>
      String.ofList parameter.type)

end ConstructorLine

theorem trimChars_cons_blank {char : Char} (chars : List Char)
    (blank : isBlank char = true) :
    trimChars (char :: chars) = trimChars chars := by
  rw [trimChars, trimStartChars, List.dropWhile_cons_of_pos blank]
  rfl

theorem startsShown_of_trimmed {chars : List Char}
    (trimmed : trimChars chars = chars) (filled : chars ≠ []) :
    StartsShown chars := by
  obtain ⟨first, rest, rfl⟩ := List.exists_cons_of_ne_nil filled
  refine ⟨first, rest, rfl, ?_⟩
  by_contra blank
  have shorter := length_trimChars_le rest
  rw [← trimChars_cons_blank rest (by simpa using blank), trimmed,
    List.length_cons] at shorter
  omega

theorem trimChars_ne_nil {chars : List Char} (starts : StartsShown chars) :
    trimChars chars ≠ [] := by
  obtain ⟨first, rest, rfl, unblank⟩ := starts
  intro empty
  have shown := visible_trimChars (first :: rest)
  rw [empty] at shown
  simp [visible, unblank] at shown

theorem trimEndChars_append_unblank {before after : List Char} (filled : after ≠ [])
    (unblank : ∀ char ∈ after, isBlank char = false) :
    trimEndChars (before ++ after) = before ++ after := by
  have ending := unblank _ (List.getLast_mem filled)
  rw [← List.dropLast_append_getLast filled, ← List.append_assoc]
  simp [trimEndChars, ending]

theorem trimChars_append_unblank {before after : List Char}
    (starts : StartsShown before) (filled : after ≠ [])
    (unblank : ∀ char ∈ after, isBlank char = false) :
    trimChars (before ++ after) = before ++ after := by
  obtain ⟨first, middle, rfl, visible⟩ := starts
  have kept : trimStartChars (first :: middle ++ after) =
      first :: middle ++ after :=
    List.dropWhile_cons_of_neg (by simp [visible])
  rw [trimChars, kept, trimEndChars_append_unblank filled unblank]

namespace TypedName

variable (parameter : TypedName)

theorem trimChars_text : trimChars parameter.text = parameter.text := by
  have starts : StartsShown (parameter.type ++ [' ']) :=
    (startsShown_of_trimmed parameter.trimmed parameter.typed).append [' ']
  have kept := trimChars_append_unblank starts parameter.named parameter.unblank
  rwa [List.append_assoc, List.singleton_append] at kept

theorem parameterType_of_trimChars {chars : List Char}
    (trimmed : trimChars chars = parameter.text) :
    parameterType chars = some parameter.type := by
  have unspaced : ' ' ∉ parameter.name := fun member =>
    absurd (parameter.unblank ' ' member) (by decide)
  rw [parameterType, trimmed, text, splitLast_append _ unspaced,
    Option.map_some, parameter.trimmed]

theorem ne_of_mem_text {char : Char} (member : char ∈ parameter.text) :
    char ≠ ',' ∧ char ≠ ')' := by
  rcases List.mem_append.1 member with inType | inRest
  · exact parameter.clear char (List.mem_append_left _ inType)
  · rcases List.mem_cons.1 inRest with rfl | inName
    · decide
    · exact parameter.clear char (List.mem_append_right _ inName)

end TypedName

theorem intercalate_eq_flatMap (separator first : List Char)
    (others : List (List Char)) :
    separator.intercalate (first :: others) =
      first ++ others.flatMap (separator ++ ·) := by
  induction others generalizing first with
  | nil => simp
  | cons next others inductionHypothesis =>
      rw [List.intercalate_cons_cons, inductionHypothesis]
      simp

theorem splitOn_intercalate {first : List Char} {others : List (List Char)}
    (clear : ∀ piece ∈ first :: others, ',' ∉ piece) :
    splitOn ',' ([',', ' '].intercalate (first :: others)) =
      first :: others.map (' ' :: ·) := by
  -- A comma with a space is a comma before a piece that starts with a space.
  have sameText : [',', ' '].intercalate (first :: others) =
      [','].intercalate (first :: others.map (' ' :: ·)) := by
    rw [intercalate_eq_flatMap, intercalate_eq_flatMap, List.flatMap_map]
    rfl
  rw [sameText, splitOn_eq_splitOn]
  refine List.splitOn_intercalate ',' ?_ (List.cons_ne_nil _ _)
  rw [List.forall_mem_cons] at clear ⊢
  refine ⟨clear.1, fun piece member => ?_⟩
  obtain ⟨other, listed, rfl⟩ := List.mem_map.1 member
  simpa using clear.2 other listed

namespace ConstructorLine

variable (line : ConstructorLine)

theorem exists_name : ∃ capital rest,
    line.name = capital :: rest ∧ capital.isUpper = true := by
  have capital := line.capital
  cases name : line.name with
  | nil =>
      rw [name] at capital
      cases capital
  | cons first rest =>
      rw [name] at capital
      exact ⟨first, rest, rfl, by simpa using capital⟩

theorem name_ne_nil : line.name ≠ [] := by
  obtain ⟨capital, rest, name, _⟩ := line.exists_name
  rw [name]
  exact List.cons_ne_nil _ _

theorem isTypeChar_of_mem_name {char : Char} (member : char ∈ line.name) :
    isTypeChar char = true :=
  isTypeChar_of_isMemberChar (line.named char member)

theorem isBlank_of_mem_name {char : Char} (member : char ∈ line.name) :
    isBlank char = false :=
  isBlank_eq_false_of_isTypeChar (line.isTypeChar_of_mem_name member)

/-- The first word of the line and what ends it. -/
theorem exists_first_word : ∃ word next rest, line.body = word ++ next :: rest ∧
    word ≠ [] ∧ (∀ char ∈ word, isTypeChar char = true) ∧
    isTypeChar next = false ∧ word ≠ "return".toList := by
  cases modifiers : line.modifiers with
  | nil =>
      refine ⟨line.name, '(', line.argumentList ++ ')' :: line.rest, ?_,
        line.name_ne_nil, fun char => line.isTypeChar_of_mem_name, by decide, ?_⟩
      · simp [body, head, modifiers, spaced]
      · intro returns
        have capital := line.capital
        rw [returns] at capital
        exact absurd capital (by decide)
  | cons word words =>
      obtain ⟨filled, typed⟩ := line.modifying word (by simp [modifiers])
      refine ⟨word, ' ', spaced words ++
        (line.name ++ '(' :: (line.argumentList ++ ')' :: line.rest)), ?_,
        filled, typed, by decide, ?_⟩
      · simp [body, head, modifiers, spaced_cons]
      · rintro rfl
        have declares := line.declares
        rw [modifiers] at declares
        exact absurd rfl declares

theorem startsShown_head : StartsShown line.head := by
  cases modifiers : line.modifiers with
  | nil =>
      obtain ⟨capital, rest, name, _⟩ := line.exists_name
      have unblank : isBlank capital = false :=
        line.isBlank_of_mem_name (by simp [name])
      exact ⟨capital, rest, by simp [head, modifiers, spaced, name], unblank⟩
  | cons word words =>
      obtain ⟨filled, typed⟩ := line.modifying word (by simp [modifiers])
      obtain ⟨first, more, rfl⟩ := List.exists_cons_of_ne_nil filled
      have unblank : isBlank first = false :=
        isBlank_eq_false_of_isTypeChar (typed first List.mem_cons_self)
      rw [head, modifiers, spaced_cons]
      exact ⟨first, _, rfl, unblank⟩

theorem startsShown_body : StartsShown line.body :=
  line.startsShown_head.append _

theorem trimStartChars_text : trimStartChars line.text = line.body :=
  trimStartChars_indented line.indented line.startsShown_body

/-! ## What the line declares -/

theorem isStub_text : Renamer.isStub line.text = false := by
  obtain ⟨word, next, rest, body, filled, typed, _⟩ := line.exists_first_word
  obtain ⟨first, more, rfl⟩ := List.exists_cons_of_ne_nil filled
  have other : ('/' == first) = false := by
    rw [beq_eq_false_iff_ne]
    rintro rfl
    exact absurd (typed '/' List.mem_cons_self) (by decide)
  rw [Renamer.isStub, line.trimStartChars_text, body]
  simp [Renamer.stubMarkers, startsWith, List.isPrefixOf, other]

theorem startsWith_return_text :
    startsWith "return ".toList (trimStartChars line.text) = false := by
  obtain ⟨word, next, rest, body, _, typed, ends, other⟩ :=
    line.exists_first_word
  rw [line.trimStartChars_text, body, Bool.eq_false_iff]
  intro returns
  obtain ⟨after, whole⟩ := List.isPrefixOf_iff_prefix.1 returns
  -- Both sides start with their first word.
  have first : (word ++ next :: rest).takeWhile isTypeChar = word :=
    takeWhile_append_of_head typed (by simp [ends])
  rw [← whole] at first
  exact other first.symm

theorem shape_text : Shape.ofLine line.text =
    some ⟨line.indent, line.modifiers.length, line.name,
      '(' :: (line.argumentList ++ ')' :: line.rest)⟩ := by
  have words := @splitWords_spaced line.modifiers line.name
    (line.argumentList ++ ')' :: line.rest) line.modifying line.name_ne_nil
    (fun _ => line.isTypeChar_of_mem_name) 0
  rw [Shape.ofLine, text, splitIndent_append line.indented line.startsShown_body]
  rw [← List.append_assoc] at words
  simp only [Option.bind_eq_bind, Option.bind_some, body, head, words,
    Nat.zero_add]
  rfl

theorem declarationOf_text :
    Renamer.declarationOf line.text = .constructor := by
  have noMethod : methodOfLine line.text = none := by
    simp [methodOfLine, line.shape_text, line.capital]
  have noField : fieldOfLine line.text = none := by
    simp [fieldOfLine, line.shape_text]
  have callable : isConstructorLine line.text = true := by
    simpa [isConstructorLine, line.shape_text, Shape.isCallable,
      line.name_ne_nil] using line.named
  rw [Renamer.declarationOf, line.startsWith_return_text, if_neg (by decide),
    noMethod]
  dsimp only
  rw [noField]
  dsimp only
  rw [if_pos callable]

theorem ne_of_mem_head {char : Char} (member : char ∈ line.head) :
    char ≠ '(' := by
  rintro rfl
  rcases List.mem_append.1 member with inWords | inName
  · obtain ⟨word, listed, inWord⟩ := List.mem_flatMap.1 inWords
    have typed := (line.modifying word listed).2
    rcases List.mem_append.1 inWord with inside | ending
    · exact absurd (typed '(' inside) (by decide)
    · simp at ending
  · exact absurd (line.isTypeChar_of_mem_name inName) (by decide)

theorem opening_not_mem : '(' ∉ line.indent ++ line.head := by
  intro member
  rcases List.mem_append.1 member with inIndent | inHead
  · exact line.indented.not_mem (by decide) inIndent
  · exact line.ne_of_mem_head inHead rfl

theorem argumentList_cons {parameter : TypedName}
    {parameters : List TypedName}
    (listed : line.parameters = parameter :: parameters) :
    line.argumentList = parameter.text ++
      parameters.flatMap fun other => ',' :: ' ' :: other.text := by
  rw [argumentList, listed, List.map_cons, intercalate_eq_flatMap,
    List.flatMap_map]
  rfl

theorem closing_not_mem : ')' ∉ line.argumentList := by
  cases listed : line.parameters with
  | nil => simp [argumentList, listed]
  | cons parameter parameters =>
      have absent : ∀ other : TypedName, ')' ∉ other.text :=
        fun other member => (other.ne_of_mem_text member).2 rfl
      simp [line.argumentList_cons listed, absent]

theorem trimChars_head : trimChars (line.indent ++ line.head) = line.head := by
  rw [trimChars, trimStartChars_indented line.indented line.startsShown_head,
    head, trimEndChars_append_unblank line.name_ne_nil
      fun _ => line.isBlank_of_mem_name]

/-- The last word of the head is the name. -/
theorem splitLast_head :
    (splitLast ' ' line.head = none ∧ line.head = line.name) ∨
      ∃ before, splitLast ' ' line.head = some (before, line.name) := by
  have unspaced : ' ' ∉ line.name := fun member =>
    absurd (line.isBlank_of_mem_name member) (by decide)
  rcases List.eq_nil_or_concat line.modifiers with none | ⟨words, word, some⟩
  · have nameOnly : line.head = line.name := by
      simp [head, none, spaced]
    refine .inl ⟨?_, nameOnly⟩
    rw [nameOnly]
    rcases splitLast_cases ' ' line.name with ⟨cut, _⟩ | ⟨before, after, _, whole⟩
    · exact cut
    · rw [whole] at unspaced
      simp at unspaced
  · have ending : line.head = (spaced words ++ word) ++ ' ' :: line.name := by
      simp [head, some, spaced]
    refine .inr ⟨spaced words ++ word, ?_⟩
    rw [ending, splitLast_append _ unspaced]

theorem mapM_parameterType (parameters : List TypedName) :
    (parameters.map fun parameter => ' ' :: parameter.text).mapM parameterType =
      some (parameters.map TypedName.type) := by
  induction parameters with
  | nil => rfl
  | cons parameter parameters inductionHypothesis =>
      have type : parameterType (' ' :: parameter.text) =
          some parameter.type := by
        refine parameter.parameterType_of_trimChars ?_
        rw [trimChars_cons_blank _ (by decide), parameter.trimChars_text]
      simp [type, inductionHypothesis]

theorem types_argumentList :
    (if (trimChars line.argumentList).isEmpty then some []
      else (splitOn ',' line.argumentList).mapM parameterType) =
      some (line.parameters.map TypedName.type) := by
  cases listed : line.parameters with
  | nil => simp [argumentList, listed, trimChars, trimStartChars, trimEndChars]
  | cons parameter parameters =>
      have shown : StartsShown line.argumentList := by
        rw [line.argumentList_cons listed, TypedName.text, List.append_assoc]
        exact (startsShown_of_trimmed parameter.trimmed parameter.typed).append _
      have clear : ∀ piece ∈ (parameter :: parameters).map TypedName.text,
          ',' ∉ piece := by
        intro piece member comma
        obtain ⟨named, _, rfl⟩ := List.mem_map.1 member
        exact (named.ne_of_mem_text comma).1 rfl
      have pieces : splitOn ',' line.argumentList = parameter.text ::
          parameters.map fun other => ' ' :: other.text := by
        rw [argumentList, listed, List.map_cons, splitOn_intercalate clear,
          List.map_map]
        rfl
      have type : parameterType parameter.text = some parameter.type :=
        parameter.parameterType_of_trimChars parameter.trimChars_text
      rw [if_neg (by simpa using trimChars_ne_nil shown), pieces,
        List.mapM_cons, type, mapM_parameterType]
      rfl

/-- The signature is read off the line. -/
theorem constructorSignature_text :
    constructorSignature line.text = some line.signature := by
  have cut : line.text = (line.indent ++ line.head) ++
      '(' :: (line.argumentList ++ ')' :: line.rest) := by
    rw [text, body, List.append_assoc]
  have types := line.types_argumentList
  have typeTexts : (line.parameters.map TypedName.type).map String.ofList =
      line.parameters.map fun parameter => String.ofList parameter.type :=
    List.map_map
  have made : ∀ name, name = line.name →
      (if (trimChars line.argumentList).isEmpty then
          some (String.ofList name ++ ":" ++ ",".intercalate [])
        else ((splitOn ',' line.argumentList).mapM parameterType).bind
          fun types => some (String.ofList name ++ ":" ++
            ",".intercalate (types.map String.ofList))) =
        some line.signature := by
    rintro _ rfl
    split at types
    · rename_i empty
      have noTypes := Option.some.inj types
      rw [if_pos empty, signature, ← typeTexts, ← noTypes]
      rfl
    · rename_i some
      rw [if_neg some, types, Option.bind_some, typeTexts]
      rfl
  unfold constructorSignature
  rw [cut, splitOnce_append _ line.opening_not_mem]
  simp only [Option.bind_eq_bind, Option.bind_some]
  rw [splitOnce_append _ line.closing_not_mem]
  simp only [Option.bind_some]
  rw [line.trimChars_head]
  rcases line.splitLast_head with ⟨cut, nameOnly⟩ | ⟨before, cut⟩
  · rw [cut]
    exact made line.head nameOnly
  · rw [cut]
    exact made line.name rfl

end ConstructorLine

/-- A record that is for the constructor with a signature in a file. -/
structure ConstructorRecord where
  file : String
  className : String
  signature : String
  humanName : String
  column : String
  typeName : String
  suffix : String
  more : List String

namespace ConstructorRecord

variable (record : ConstructorRecord)

def fields : List String :=
  record.file :: record.className :: ("@init:" ++ record.signature) ::
    record.humanName :: record.column :: record.typeName :: record.suffix ::
      record.more

def entry (slot : Slot) : GenericEntry :=
  ⟨record.file, record.className, record.file ++ "@init:" ++ record.signature,
    slot, record.typeName, record.suffix⟩

theorem genericKey_init (file signature : String) :
    genericKey file ("@init:" ++ signature) = file ++ "@init:" ++ signature := by
  have bare : ("@init:" ++ signature).toList.takeWhile (· != ':') =
      "@init".toList := by
    rw [String.toList_append]
    rfl
  unfold genericKey
  rw [bare, String.append_assoc]
  rfl

theorem readGeneric_fields :
    readGeneric record.fields = (readSlot record.column).map record.entry := by
  rw [fields, readGeneric, genericKey_init]
  cases readSlot record.column <;> rfl

theorem isSkippedRecord_fields (plain : record.file ≠ "zipEntry") :
    isSkippedRecord record.fields = false := by
  have declared : "@init:" ++ record.signature ≠ "" := by
    intro empty
    have chars := congrArg String.toList empty
    rw [String.toList_append] at chars
    cases chars
  simp [isSkippedRecord, fields, plain, declared]

end ConstructorRecord

/-! ## Loading records -/

section Loading

variable {α : Type} {tree : FileTree} {path : Path}
  {read : List String → Except TableFault α}

theorem mapError_eq_ok {ε δ : Type} {wrap : ε → δ} {result : Except ε α}
    {value : α} : result.mapError wrap = .ok value ↔ result = .ok value := by
  cases result <;> simp [Except.mapError]

/-- The records of a table file that count. -/
def HasRecords (tree : FileTree) (path : Path) (records : List Csv.Record) :
    Prop :=
  ∃ text all, Mapping.readText tree path = .ok text ∧
    Csv.parse text path = .ok all ∧
    records = all.filter fun record => !isSkippedRecord record.fields

theorem loadRecords_eq_ok {records : List Csv.Record} {items : List α}
    (has : HasRecords tree path records) :
    loadRecords tree path read = .ok items ↔
      List.Forall₂ (fun record item => read record.fields = .ok item)
        records items := by
  obtain ⟨text, all, readable, parsed, rfl⟩ := has
  simp only [loadRecords, readable, parsed, readRecords, bind_eq_ok,
    mapError_eq_ok, mapM_eq_ok, Except.ok.injEq, exists_eq_left']

end Loading

theorem getElem?_eq_some_iff_of_forall₂ {ε α β : Type} {give : α → Except ε β}
    {items : List α} {results : List β} {index : Nat} {result : β}
    (pointwise : List.Forall₂ (fun item result => give item = .ok result) items
      results) :
    results[index]? = some result ↔
      ∃ item, items[index]? = some item ∧ give item = .ok result := by
  induction pointwise generalizing index with
  | nil => simp
  | cons given _ inductionHypothesis =>
      cases index with
      | zero => simp [given]
      | succ index => simpa using inductionHypothesis

theorem mem_lookup_iff {table : GenericTable} {key : String} {index : Nat}
    {entry : GenericEntry} :
    (index, entry) ∈ table.lookup key ↔
      table[index]? = some entry ∧ entry.key = key := by
  simp [GenericTable.lookup, List.mem_zipIdx_iff_getElem?]

/-- What is looked up comes in the order of the table. -/
theorem pairwise_lookup (table : GenericTable) (key : String) :
    ((table.lookup key).map Prod.fst).Pairwise (· < ·) := by
  have sorted : (table.zipIdx.map Prod.snd).Pairwise (· < ·) := by
    rw [List.zipIdx_map_snd]
    exact List.pairwise_lt_range'
  have kept : ((table.lookup key).map Prod.fst).Sublist
      (table.zipIdx.map Prod.snd) := by
    rw [GenericTable.lookup, List.map_map]
    exact List.filter_sublist.map Prod.snd
  exact sorted.sublist kept

/-- The records for a constructor and the lines that declare it meet on one key.
A line looks up the entries for the key, whatever its modifiers and the names of
its parameters are.  A record is read as an entry for the key.  In a table that
was loaded, the key has the entries of the records that were read with it, in
their order. -/
theorem constructor_key {file : String} (plain : file ≠ "zipEntry")
    (line : ConstructorLine) :
    let key := file ++ "@init:" ++ line.signature
    (∀ (renamer : Renamer) (number : Nat),
      renamer.declareLine file number line.text =
        renamer.declare file number [] line.text key) ∧
    (∀ record : ConstructorRecord,
      record.file = file → record.signature = line.signature →
        isSkippedRecord record.fields = false ∧
        readGeneric record.fields =
          (readSlot record.column).map record.entry ∧
        ∀ slot, (record.entry slot).key = key) ∧
    ∀ tree path records, HasRecords tree path records →
      ((∃ table, loadRecords tree path readGeneric = .ok table) ↔
        ∀ found ∈ records, ∃ entry, readGeneric found.fields = .ok entry) ∧
      ∀ table : GenericTable, loadRecords tree path readGeneric = .ok table →
        (∀ index entry, (index, entry) ∈ table.lookup key ↔
          ∃ found, records[index]? = some found ∧
            readGeneric found.fields = .ok entry ∧ entry.key = key) ∧
        ((table.lookup key).map Prod.fst).Pairwise (· < ·) ∧
        (IndexedTable.ofEntries table).lookup? key =
          some (table.lookup key) := by
  intro key
  refine ⟨fun renamer number => ?_, ?_, fun tree path records has =>
    ⟨?_, fun table loaded => ⟨fun index entry => ?_, pairwise_lookup table key,
      IndexedTable.lookup?_ofEntries table key⟩⟩⟩
  · rw [Renamer.declareLine_eq line.isStub_text, line.declarationOf_text]
    dsimp only
    rw [line.constructorSignature_text]
  · rintro record rfl same
    refine ⟨record.isSkippedRecord_fields plain, record.readGeneric_fields,
      fun slot => ?_⟩
    rw [ConstructorRecord.entry, same]
  · constructor
    · rintro ⟨table, loaded⟩ found member
      obtain ⟨entry, _, read⟩ :=
        exists_related ((loadRecords_eq_ok has).1 loaded) member
      exact ⟨entry, read⟩
    · intro readable
      obtain ⟨table, mapped⟩ := exists_mapM_eq_ok readable
      exact ⟨table, (loadRecords_eq_ok has).2 (mapM_eq_ok.1 mapped)⟩
  · have pointwise := (loadRecords_eq_ok has).1 loaded
    rw [mem_lookup_iff, getElem?_eq_some_iff_of_forall₂ pointwise]
    simp only [exists_and_right.symm, and_assoc]

def sampleConstructor : ConstructorLine where
  indent := List.replicate 4 ' '
  modifiers := ["public".toList]
  name := "A".toList
  parameters :=
    [⟨"List".toList, "p_1_".toList, by decide, by decide, by decide,
        forall_mem_of_all (by decide), forall_mem_of_all (by decide)⟩,
      ⟨"final int".toList, "count".toList, by decide, by decide, by decide,
        forall_mem_of_all (by decide), forall_mem_of_all (by decide)⟩]
  rest := " \x7b".toList
  indented := .spaces 0
  modifying := List.forall_mem_singleton.2
    ⟨by decide, forall_mem_of_all (by decide)⟩
  declares := by decide
  capital := by decide
  named := forall_mem_of_all (by decide)

def sampleText : String :=
  "zipEntry,className,srg,mcp,param,type,suffix\n" ++
    "net/A.java,net.A,\"@init:A:List,final int\",,0,java.util.List,<T>\n"

def sampleHeading : Csv.Record :=
  ⟨1, ["zipEntry", "className", "srg", "mcp", "param", "type", "suffix"]⟩

def sampleRecord : ConstructorRecord where
  file := "net/A.java"
  className := "net.A"
  signature := "A:List,final int"
  humanName := ""
  column := "0"
  typeName := "java.util.List"
  suffix := "<T>"
  more := []

/-- A table with a heading and a record for the constructor. -/
def sampleTables : FileTree :=
  { nodes := [(["generics.csv"], .file (Text.encode sampleText) 0 0)]
    clock := 1 }

theorem constructor_key_sample :
    "net/A.java" ≠ "zipEntry" ∧
      sampleConstructor.text =
        "    public A(List p_1_, final int count) \x7b".toList ∧
      (∀ (renamer : Renamer) (number : Nat),
        renamer.declareLine "net/A.java" number sampleConstructor.text =
          renamer.declare "net/A.java" number [] sampleConstructor.text
            "net/A.java@init:A:List,final int") ∧
      ∃ table : GenericTable,
        loadRecords sampleTables ⟨"generics.csv"⟩ readGeneric = .ok table ∧
        (0, sampleRecord.entry (.parameter 0)) ∈
          table.lookup "net/A.java@init:A:List,final int" := by
  have plain : "net/A.java" ≠ "zipEntry" := by decide
  obtain ⟨lines, records, tables⟩ := constructor_key plain sampleConstructor
  have key : "net/A.java" ++ "@init:" ++ sampleConstructor.signature =
      "net/A.java@init:A:List,final int" := by
    decide
  rw [key] at lines records tables
  obtain ⟨_, read, sameKey⟩ := records sampleRecord rfl (by decide)
  have slot : readSlot sampleRecord.column = .ok (.parameter 0) := by decide
  rw [slot] at read
  have has : HasRecords sampleTables ⟨"generics.csv"⟩
      [⟨2, sampleRecord.fields⟩] :=
    ⟨sampleText, [sampleHeading, ⟨2, sampleRecord.fields⟩], by decide +kernel,
      by decide +kernel, by decide +kernel⟩
  obtain ⟨loads, found⟩ := tables _ _ _ has
  obtain ⟨table, loaded⟩ := loads.2 (by simp [read, Except.map])
  refine ⟨plain, by decide, lines, table, loaded, ?_⟩
  exact ((found table loaded).1 0 _).2 ⟨_, rfl, read, sameKey _⟩

end Deobfuscate.Source
