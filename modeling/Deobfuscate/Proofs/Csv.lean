import Deobfuscate.Csv
import Deobfuscate.Text.Lines
import Mathlib.Data.List.Basic

/-!
# Reading written records

Records can be written in many ways: every field stands between quotes, with the
quotes in it doubled, or as it is if nothing in it asks for quotes, and every
record ends with a line feed that may follow a carriage return.  However they
are written, reading gives the records back, each with the line on which it
starts.
-/

namespace Deobfuscate.Csv

open Text (Terminator)

/-- Whether a character can stand in a field without quotes. -/
def isPlain (char : Char) : Bool :=
  char != ',' && char != '"' && char != '\r' && char != '\n'

/-- The characters of a field as they stand between quotes. -/
def doubleQuotes (chars : List Char) : List Char :=
  chars.flatMap fun char => if char = '"' then ['"', '"'] else [char]

/-- The ways in which a field can be written. -/
inductive WritesField (field : String) : List Char → Prop
  | quoted : WritesField field ('"' :: (doubleQuotes field.toList ++ ['"']))
  | plain (unquoted : ∀ char ∈ field.toList, isPlain char = true) :
      WritesField field field.toList

/-- The ways in which the fields of a record can be written; there is at least
one. -/
inductive WritesFields : List String → List Char → Prop
  | single {field : String} {chars : List Char}
      (writes : WritesField field chars) : WritesFields [field] chars
  | cons {field : String} {fields : List String} {chars rest : List Char}
      (writes : WritesField field chars) (others : WritesFields fields rest) :
      WritesFields (field :: fields) (chars ++ ',' :: rest)

/-- A record as it is written. -/
structure Written where
  fields : List String
  body : List Char
  ending : Terminator
  writes : WritesFields fields body

def Written.chars (written : Written) : List Char :=
  written.body ++ written.ending.chars

def textOf (records : List Written) : List Char :=
  records.flatMap Written.chars

def IsBreak (ending : Terminator) : Prop :=
  ending = .lineFeed ∨ ending = .carriageReturnLineFeed

/-- Every record ends with a line break.  Only the last one may do without,
unless nothing of it would be left to see. -/
def WellEnded : List Written → Prop
  | [] => True
  | written :: rest =>
      (IsBreak written.ending ∨
        rest = [] ∧ written.ending = .endOfText ∧ written.fields ≠ [""]) ∧
      WellEnded rest

namespace Partial

/-- Read the characters of a field, or of a part of it. -/
def read (state : Partial) (chars : List Char) : Partial :=
  { state with
    line := state.line + chars.count '\n'
    field := chars.reverse ++ state.field }

theorem read_lineFeed (state : Partial) (chars : List Char) :
    state.read ('\n' :: chars) = (state.nextLine.push '\n').read chars := by
  simp [read, nextLine, push]
  omega

theorem read_cons {char : Char} (other : char ≠ '\n') (state : Partial)
    (chars : List Char) :
    state.read (char :: chars) = (state.push char).read chars := by
  simp [read, push, other]

end Partial

theorem doubleQuotes_quote (chars : List Char) :
    doubleQuotes ('"' :: chars) = '"' :: '"' :: doubleQuotes chars :=
  rfl

theorem doubleQuotes_cons {char : Char} (unquoted : char ≠ '"')
    (chars : List Char) :
    doubleQuotes (char :: chars) = char :: doubleQuotes chars := by
  simp [doubleQuotes, unquoted]

/-- Reading to the end of a quoted field gives its characters. -/
theorem parseFrom_quoted (openedOn : Nat) (state : Partial)
    (field rest : List Char) :
    parseFrom (.quoted openedOn) state (doubleQuotes field ++ '"' :: rest) =
      parseFrom (.closing openedOn) (state.read field) rest := by
  induction field generalizing state with
  | nil => rfl
  | cons char chars inductionHypothesis =>
      by_cases quote : char = '"'
      · subst quote
        rw [doubleQuotes_quote, state.read_cons (by decide)]
        exact inductionHypothesis (state.push '"')
      · rw [doubleQuotes_cons quote, List.cons_append]
        by_cases feed : char = '\n'
        · subst feed
          rw [state.read_lineFeed]
          exact inductionHypothesis (state.nextLine.push '\n')
        · rw [state.read_cons feed, ← inductionHypothesis (state.push char)]
          simp [parseFrom, step, quote, feed]

/-- Behind the closing quote of a field things go on as outside quotes. -/
theorem parseFrom_closing (openedOn : Nat) (state : Partial)
    {rest : List Char} (closed : rest.head? ≠ some '"') :
    parseFrom (.closing openedOn) state rest =
      parseFrom .plain state rest := by
  cases rest with
  | nil => rfl
  | cons char rest =>
      have unquoted : char ≠ '"' := by simpa using closed
      simp [parseFrom, step, unquoted]

theorem stepPlain_of_isPlain {char : Char} (plain : isPlain char = true)
    (state : Partial) (next : Option Char) :
    stepPlain state char next = (.plain, state.push char, none) := by
  simp only [isPlain, Bool.and_eq_true, bne_iff_ne] at plain
  obtain ⟨⟨⟨comma, quote⟩, carriage⟩, feed⟩ := plain
  simp [stepPlain, comma, quote, carriage, feed]

theorem parseFrom_plain (state : Partial) {field : List Char}
    (rest : List Char) (plain : ∀ char ∈ field, isPlain char = true) :
    parseFrom .plain state (field ++ rest) =
      parseFrom .plain (state.read field) rest := by
  induction field generalizing state with
  | nil => rfl
  | cons char chars inductionHypothesis =>
      have first := plain char (by simp)
      have other : char ≠ '\n' := by
        rintro rfl
        simp [isPlain] at first
      rw [state.read_cons other, ← inductionHypothesis (state.push char)
        fun char inside => plain char (by simp [inside]), List.cons_append,
        parseFrom, step, stepPlain_of_isPlain first]

/-- However a field is written, its characters are read. -/
theorem parseFrom_field {state : Partial} {field : String}
    {chars rest : List Char} (writes : WritesField field chars)
    (empty : state.field = []) (closed : rest.head? ≠ some '"') :
    parseFrom .plain state (chars ++ rest) =
      parseFrom .plain (state.read field.toList) rest := by
  cases writes with
  | quoted =>
      have opened : parseFrom .plain state ('"' ::
          (doubleQuotes field.toList ++ '"' :: rest)) =
          parseFrom (.quoted state.line) state
            (doubleQuotes field.toList ++ '"' :: rest) := by
        simp [parseFrom, step, stepPlain, empty]
      rw [List.cons_append, List.append_assoc, List.singleton_append, opened,
        parseFrom_quoted, parseFrom_closing _ _ closed]
  | plain unquoted => exact parseFrom_plain state rest unquoted

/-- However a field is written, its line feeds stay. -/
theorem WritesField.count_lineFeed {field : String} {chars : List Char}
    (writes : WritesField field chars) :
    chars.count '\n' = field.toList.count '\n' := by
  cases writes with
  | quoted =>
      have doubled : ∀ chars : List Char,
          (doubleQuotes chars).count '\n' = chars.count '\n' := by
        intro chars
        induction chars with
        | nil => rfl
        | cons char chars inductionHypothesis =>
            by_cases quote : char = '"'
            · simp [quote, doubleQuotes_quote, inductionHypothesis]
            · simp [doubleQuotes_cons quote, List.count_cons,
                inductionHypothesis]
      simp [doubled]
  | plain => rfl

/-- Reading the fields of a record leaves the reader before the end of that
record. -/
theorem parseFrom_fields {fields : List String} {chars : List Char}
    (writes : WritesFields fields chars) {state : Partial} {rest : List Char}
    (empty : state.field = []) (closed : rest.head? ≠ some '"') :
    ∃ after, parseFrom .plain state (chars ++ rest) =
        parseFrom .plain after rest ∧
      after.line = state.line + chars.count '\n' ∧
      after.close = ⟨state.start, state.fields.reverse ++ fields⟩ := by
  induction writes generalizing state with
  | @single field chars writes =>
      refine ⟨state.read field.toList, parseFrom_field writes empty closed,
        ?_, ?_⟩
      · rw [writes.count_lineFeed]
        rfl
      · simp [Partial.close, Partial.read, empty]
  | @cons field fields chars others writes _ inductionHypothesis =>
      obtain ⟨after, read, line, closes⟩ :=
        @inductionHypothesis (state.read field.toList).nextField rfl
      refine ⟨after, ?_, ?_, ?_⟩
      · rw [List.append_assoc, List.cons_append,
          parseFrom_field writes empty (by simp), ← read]
        simp [parseFrom, step, stepPlain]
      · rw [line, List.count_append, List.count_cons, writes.count_lineFeed]
        simp [Partial.nextField, Partial.read]
        omega
      · rw [closes]
        simp [Partial.nextField, Partial.read, empty]

/-- The reader before a record that starts on a line. -/
def Partial.at (line : Nat) : Partial :=
  ⟨line, line, [], []⟩

/-- A line break closes the record under way. -/
theorem parseFrom_break {ending : Terminator} (breaks : IsBreak ending)
    (state : Partial) (rest : List Char) :
    parseFrom .plain state (ending.chars ++ rest) =
      (parseFrom .plain (.at (state.line + ending.chars.count '\n')) rest).map
        (state.close :: ·) := by
  rcases breaks with rfl | rfl
  · simp [Terminator.chars, parseFrom, step, stepPlain, Partial.nextRecord,
      Partial.at]
  · simp [Terminator.chars, parseFrom, step, stepPlain, Partial.nextRecord,
      Partial.at]

theorem IsBreak.head?_ne {ending : Terminator} (breaks : IsBreak ending)
    (rest : List Char) : (ending.chars ++ rest).head? ≠ some '"' := by
  rcases breaks with rfl | rfl <;> simp [Terminator.chars]

/-- A written record is read, and the next one starts behind its line
feeds. -/
theorem parseFrom_record {written : Written} (breaks : IsBreak written.ending)
    (line : Nat) (rest : List Char) :
    parseFrom .plain (.at line) (written.chars ++ rest) =
      (parseFrom .plain (.at (line + written.chars.count '\n')) rest).map
        (⟨line, written.fields⟩ :: ·) := by
  have empty : (Partial.at line).field = [] := rfl
  obtain ⟨after, read, reached, closes⟩ :=
    parseFrom_fields written.writes empty (breaks.head?_ne rest)
  rw [Written.chars, List.append_assoc, read, parseFrom_break breaks, closes,
    reached, List.count_append, Nat.add_assoc]
  rfl

/-- A record that the text ends with is read too, unless it leaves nothing to
see. -/
theorem parseFrom_lastRecord {written : Written}
    (isOpen : written.ending = .endOfText) (seen : written.fields ≠ [""])
    (line : Nat) :
    parseFrom .plain (.at line) written.chars =
      .ok [⟨line, written.fields⟩] := by
  have empty : (Partial.at line).field = [] := rfl
  have closed : ([] : List Char).head? ≠ some '"' := by simp
  obtain ⟨after, read, _, closes⟩ :=
    parseFrom_fields written.writes empty closed
  have started : ¬after.isFresh = true := by
    intro fresh
    refine seen ?_
    have fields := congrArg Record.fields closes
    simp only [Partial.isFresh, Bool.and_eq_true, List.isEmpty_iff] at fresh
    simpa [Partial.close, Partial.at, fresh] using fields.symm
  have ended : parseFrom .plain after [] =
      .ok (if after.isFresh then [] else [after.close]) := rfl
  rw [Written.chars, isOpen, Terminator.chars, read, ended, if_neg started,
    closes]
  rfl

def startingAt : Nat → List Written → List Record
  | _, [] => []
  | line, written :: rest =>
      ⟨line, written.fields⟩ ::
        startingAt (line + written.chars.count '\n') rest

theorem parseFrom_textOf {records : List Written} (ended : WellEnded records)
    (line : Nat) :
    parseFrom .plain (.at line) (textOf records) =
      .ok (startingAt line records) := by
  induction records generalizing line with
  | nil => rfl
  | cons written rest inductionHypothesis =>
      obtain ⟨breaks | ⟨rfl, isOpen, seen⟩, later⟩ := ended
      · rw [textOf, List.flatMap_cons, parseFrom_record breaks]
        have read := inductionHypothesis later
          (line + written.chars.count '\n')
        rw [textOf] at read
        rw [read]
        rfl
      · rw [textOf, List.flatMap_cons, List.flatMap_nil, List.append_nil,
          parseFrom_lastRecord isOpen seen]
        rfl

/-- A record starts one line below another for every line feed from there. -/
theorem startingAt_eq_mapIdx (line : Nat) (records : List Written) :
    startingAt line records = records.mapIdx fun index written =>
      ⟨line + (textOf (records.take index)).count '\n', written.fields⟩ := by
  induction records generalizing line with
  | nil => rfl
  | cons written rest inductionHypothesis =>
      rw [startingAt, inductionHypothesis, List.mapIdx_cons]
      simp [textOf, Nat.add_assoc]

/-! ## Arbitrary texts -/

theorem fields_of_step {mode after : Mode} {state later : Partial}
    {char : Char} {next : Option Char} {record : Record}
    (closed : step mode state char next = (after, later, some record)) :
    record.fields ≠ [] := by
  have plain : stepPlain state char next = (after, later, some record) →
      record.fields ≠ [] := by
    intro closed
    unfold stepPlain at closed
    repeat' split at closed
    all_goals cases closed
    simp [Partial.close]
  unfold step at closed
  split at closed
  · exact plain closed
  · repeat' split at closed
    all_goals cases closed
  · split at closed
    · cases closed
    · exact plain closed

theorem fields_of_parseFrom {mode : Mode} {state : Partial}
    {chars : List Char} {records : List Record}
    (read : parseFrom mode state chars = .ok records) :
    ∀ record ∈ records, record.fields ≠ [] := by
  induction chars generalizing mode state records with
  | nil =>
      unfold parseFrom at read
      split at read
      · cases read
      · cases read
        split
        · simp
        · simp [Partial.close]
  | cons char rest inductionHypothesis =>
      rw [parseFrom] at read
      split at read
      · exact inductionHypothesis read
      · rename_i closed
        cases later : parseFrom _ _ rest with
        | error openedOn =>
            rw [later] at read
            cases read
        | ok others =>
            rw [later] at read
            cases read
            exact List.forall_mem_cons.2
              ⟨fields_of_step closed, inductionHypothesis later⟩

/-- Reading undoes writing, whichever way the records are written: every record
is found on the line of its first character.  No text gives a record without
fields, and nothing but a field whose quotes stay open is refused. -/
theorem parse_textOf :
    (∀ (records : List Written) (path : Path), WellEnded records →
      parse (String.ofList (textOf records)) path =
        .ok (records.mapIdx fun index written =>
          ⟨1 + (textOf (records.take index)).count '\n', written.fields⟩)) ∧
    ∀ (text : String) (path : Path),
      (∀ error, parse text path = .error error →
        error.path = path ∧ error.fault = .unterminatedQuote) ∧
      ∀ records, parse text path = .ok records →
        ∀ record ∈ records, record.fields ≠ [] := by
  refine ⟨fun records path ended => ?_, fun text path => ⟨?_, ?_⟩⟩
  · have read := parseFrom_textOf ended 1
    rw [startingAt_eq_mapIdx] at read
    rw [parse, String.toList_ofList]
    change parseFrom .plain ⟨1, 1, [], []⟩ (textOf records) = _ at read
    rw [read]
  · intro error failed
    unfold parse at failed
    split at failed
    · cases failed
    · cases failed
      exact ⟨rfl, rfl⟩
  · intro records read
    unfold parse at read
    split at read
    · rename_i given
      cases read
      exact fields_of_parseFrom given
    · cases read

/-- A quoted field with a line break, a comma and a quote in it, and an empty
one. -/
def sampleRecord : Written where
  fields := ["a,\n\"", ""]
  body := ['"', 'a', ',', '\n', '"', '"', '"', ',']
  ending := .carriageReturnLineFeed
  writes := by
    have first : WritesField "a,\n\"" ['"', 'a', ',', '\n', '"', '"', '"'] :=
      .quoted
    have second : WritesField "" [] := .plain (by simp)
    exact .cons first (.single second)

/-- A record without a line break behind it. -/
def sampleLastRecord : Written where
  fields := ["b"]
  body := ['b']
  ending := .endOfText
  writes := .single (.plain (by simp [isPlain]))

theorem parse_textOf_sample :
    WellEnded [sampleRecord, sampleLastRecord] ∧
      textOf [sampleRecord, sampleLastRecord] =
        "\"a,\n\"\"\",\r\nb".toList ∧
      parse (String.ofList (textOf [sampleRecord, sampleLastRecord]))
          ⟨"t.csv"⟩ =
        .ok [⟨1, ["a,\n\"", ""]⟩, ⟨3, ["b"]⟩] := by
  have ended : WellEnded [sampleRecord, sampleLastRecord] :=
    ⟨.inl (.inr rfl), .inr ⟨rfl, rfl, by decide⟩, trivial⟩
  refine ⟨ended, by decide, ?_⟩
  rw [parse_textOf.1 _ _ ended]
  decide

end Deobfuscate.Csv
