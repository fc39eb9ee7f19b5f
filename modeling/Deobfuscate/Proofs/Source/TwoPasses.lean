import Deobfuscate.Proofs.Source.Markers
import Deobfuscate.Proofs.Text.JoinedLines

/-!
# Markers first, comments later

A pass that leaves markers and a pass over its result that documents give what
one pass that documents gives.  The markers are found in the text that comes
between the passes, and every other line of it is settled: a second renaming
leaves it as it is.
-/

namespace Deobfuscate.Source

open Deobfuscate.Text

section Characters

variable {lookup : NameKind → String → Option String}

theorem spelling_cases (kind : NameKind) (name : List Char) :
    spelling lookup kind name = name ∨
      ∃ human, lookup kind (String.ofList name) = some human ∧
        spelling lookup kind name = human.toList := by
  unfold spelling
  cases lookup kind (String.ofList name) with
  | none => exact .inl rfl
  | some human => exact .inr ⟨human, rfl, rfl⟩

/-- A character of a renamed line is one of the line or of a human name. -/
theorem mem_replaceNames {pending : Nat} {chars : List Char} {char : Char}
    (member : char ∈ replaceNames lookup pending chars) :
    char ∈ chars ∨ ∃ kind name human,
      lookup kind name = some human ∧ char ∈ human.toList := by
  induction chars generalizing pending with
  | nil => simp [replaceNames] at member
  | cons first rest inductionHypothesis =>
      have later : ∀ {pending}, char ∈ replaceNames lookup pending rest →
          char ∈ first :: rest ∨ ∃ kind name human,
            lookup kind name = some human ∧ char ∈ human.toList :=
        fun inside => (inductionHypothesis inside).imp_left
          (List.mem_cons_of_mem first)
      cases pending with
      | succ pending => exact later (by simpa [replaceNames] using member)
      | zero =>
          cases found : nameAt (first :: rest) with
          | none =>
              rw [replaceNames_cons_of_none lookup found] at member
              rcases List.mem_cons.1 member with rfl | inside
              · exact .inl List.mem_cons_self
              · exact later inside
          | some name =>
              obtain ⟨kind, length⟩ := name
              rw [replaceNames_cons_of_some lookup found] at member
              rcases List.mem_append.1 member with inName | inside
              · obtain same | ⟨human, given, same⟩ :=
                  @spelling_cases lookup kind ((first :: rest).take length)
                · rw [same] at inName
                  exact .inl (List.mem_of_mem_take inName)
                · rw [same] at inName
                  exact .inr ⟨kind, _, human, given, inName⟩
              · exact later inside

/-- Something is left of a line if there was something. -/
theorem replaceNames_ne_nil
    (named : ∀ kind name human, lookup kind name = some human → human ≠ "")
    {chars : List Char} (filled : chars ≠ []) :
    replaceNames lookup 0 chars ≠ [] := by
  obtain ⟨first, rest, rfl⟩ := List.exists_cons_of_ne_nil filled
  cases found : nameAt (first :: rest) with
  | none =>
      rw [replaceNames_cons_of_none lookup found]
      exact List.cons_ne_nil _ _
  | some name =>
      obtain ⟨kind, length⟩ := name
      obtain ⟨isName, rfl⟩ := nameAt_eq_some_iff_run.1 found
      rw [replaceNames_cons_of_some lookup found]
      intro nothing
      obtain ⟨empty, _⟩ := List.append_eq_nil_iff.1 nothing
      obtain same | ⟨human, given, same⟩ := @spelling_cases lookup kind
        ((first :: rest).take ((first :: rest).takeWhile isRunChar).length)
      · rw [same, ← List.prefix_iff_eq_take.1
          (List.takeWhile_prefix isRunChar)] at empty
        exact isName.ne_nil empty
      · rw [same] at empty
        exact named kind _ human given (by simpa using empty)

end Characters

namespace Renamer

section Blocks

variable {lines : List Line} {blocks : List (List Line)}

theorem flatMap_blocksAt (expand : Line → List Line) (place : Nat) :
    (blocksAt lines blocks place).flatMap expand =
      blocksAt lines (blocks.map fun block => block.flatMap expand) place := by
  rw [blocksAt, blocksAt, List.flatMap_assoc, List.zipIdx_map,
    List.flatMap_map]
  refine List.flatMap_congr fun block _ => ?_
  by_cases above : placeAbove lines block.2 = place <;> simp [above]

theorem flatMap_documented {expand : Line → List Line}
    (keeps : ∀ line ∈ lines, expand line = [line]) :
    (documented lines blocks).flatMap expand =
      documented lines (blocks.map fun block => block.flatMap expand) := by
  rw [documented, documented, weave, weave, List.flatMap_assoc]
  refine List.flatMap_congr fun line member => ?_
  have kept := keeps line.1 (List.fst_mem_of_mem_zipIdx member)
  rw [List.flatMap_append, flatMap_blocksAt, List.flatMap_singleton, kept]

theorem mem_documented {line : Line} (member : line ∈ documented lines blocks) :
    line ∈ lines ∨ ∃ block ∈ blocks, line ∈ block := by
  obtain ⟨own, listed, inside⟩ := List.mem_flatMap.1 member
  rcases List.mem_append.1 inside with above | here
  · obtain ⟨block, among, inBlock⟩ := List.mem_flatMap.1 above
    split at inBlock
    · exact .inr ⟨block.1, List.fst_mem_of_mem_zipIdx among, inBlock⟩
    · exact absurd inBlock List.not_mem_nil
  · rw [List.mem_singleton.1 here]
    exact .inl (List.fst_mem_of_mem_zipIdx listed)

/-- A block that comes above a line with some content comes right before a line
with some content: that line, or an annotation. -/
theorem content_ne_nil_of_placeAbove {index : Nat} {line place : Line}
    (here : lines[index]? = some line) (filled : line.content ≠ [])
    (above : lines[placeAbove lines index]? = some place) :
    place.content ≠ [] := by
  have inside : index < lines.length := (List.getElem?_eq_some_iff.1 here).1
  have parts := head_append_run (lines.take index)
  cases annotations : run (lines.take index) with
  | nil =>
      rw [annotations, List.append_nil, head] at parts
      have same : placeAbove lines index = index := by
        rw [placeAbove, parts, List.length_take]
        omega
      rw [same, here] at above
      rwa [← Option.some.inj above]
  | cons annotation rest =>
      rw [annotations] at parts
      have below : placeAbove lines index < index := by
        have total := congrArg List.length parts
        rw [List.length_append, List.length_take, List.length_cons] at total
        change (head (lines.take index)).length < index
        omega
      have first : lines[placeAbove lines index]? = some annotation := by
        have here : (head (lines.take index) ++ annotation :: rest)[
            (head (lines.take index)).length]? = some annotation := by
          simp
        rw [parts] at here
        rwa [← List.getElem?_take_of_lt below]
      have marked : isAnnotation annotation = true :=
        @isAnnotation_of_mem_run (lines.take index) annotation
          (by simp [annotations])
      obtain rfl : annotation = place := by
        rw [first] at above
        exact Option.some.inj above
      intro empty
      rw [ isAnnotation, empty] at marked
      cases marked

theorem areLines_weave {before : Nat → List Line} {start : Nat}
    (areLines : AreLines lines)
    (solid : ∀ place, ∀ line ∈ before place, line.IsSolid)
    (starts : ∀ index line, lines[index]? = some line →
      before (start + index) ≠ [] → line.content ≠ []) :
    AreLines (weave before start lines) := by
  induction lines generalizing start with
  | nil => exact areLines_nil
  | cons line rest inductionHypothesis =>
      obtain ⟨whole, follows, later⟩ := areLines_cons.1 areLines
      have startsLater : ∀ index next, rest[index]? = some next →
          before (start + 1 + index) ≠ [] → next.content ≠ [] := by
        intro index next here
        have shifted := starts (index + 1) next here
        rwa [Nat.add_comm index 1, ← Nat.add_assoc] at shifted
      have woven := inductionHypothesis later startsLater
      have followed : ∀ next ∈ (weave before (start + 1) rest).head?,
          Follows line next := by
        intro next first
        cases rest with
        | nil => cases first
        | cons other others =>
            have closed := (follows other rfl).1
            rw [weave_cons] at first
            cases between : before (start + 1) with
            | nil =>
                rw [between] at first
                obtain rfl : other = next := Option.some.inj first
                exact follows other rfl
            | cons comment more =>
                rw [between] at first
                obtain rfl : comment = next := Option.some.inj first
                have solidLine := solid (start + 1) comment (by simp [between])
                exact follows_of_content closed solidLine.unbroken
                  solidLine.filled
      rw [weave_cons]
      refine areLines_append (solid start)
        (areLines_cons.2 ⟨whole, followed, woven⟩) fun some next first => ?_
      obtain rfl : line = next := Option.some.inj first
      exact starts 0 line rfl some

theorem areLines_documented (sameLength : blocks.length = lines.length)
    (areLines : AreLines lines)
    (solid : ∀ block ∈ blocks, ∀ line ∈ block, line.IsSolid)
    (filled : ∀ (index : Nat) (line : Line), lines[index]? = some line →
      blocks[index]? ≠ some [] → line.content ≠ []) :
    AreLines (documented lines blocks) := by
  refine areLines_weave areLines ?_ ?_
  · intro place line member
    obtain ⟨block, listed, inside⟩ := List.mem_flatMap.1 member
    split at inside
    · exact solid block.1 (List.fst_mem_of_mem_zipIdx listed) line inside
    · exact absurd inside List.not_mem_nil
  · intro place line here some
    rw [Nat.zero_add] at some
    obtain ⟨comment, member⟩ := List.exists_mem_of_ne_nil _ some
    obtain ⟨⟨block, index⟩, listed, inside⟩ := List.mem_flatMap.1 member
    have blockAt : blocks[index]? = .some block :=
      List.mem_zipIdx_iff_getElem?.1 listed
    have within : index < lines.length := by
      rw [← sameLength]
      exact (List.getElem?_eq_some_iff.1 blockAt).1
    split at inside
    · rename_i above
      have own : lines[index]? = .some lines[index] :=
        List.getElem?_eq_getElem within
      refine content_ne_nil_of_placeAbove own ?_ (by rwa [above])
      refine filled index _ own fun empty => ?_
      rw [blockAt] at empty
      obtain rfl := Option.some.inj empty
      exact absurd inside List.not_mem_nil
    · exact absurd inside List.not_mem_nil

end Blocks

/-! ## A pass without type arguments -/

section Passes

variable {renamer : Renamer} {file : String} {terminator : Terminator}

theorem declare_of_noGenerics (noGenerics : renamer.tables.generics = [])
    (number : Nat) (comment : List (List Char)) (line : List Char)
    (key : String) :
    renamer.declare file number comment line key =
      .ok { above := comment, line } := by
  have nothing : renamer.tables.generics.lookup key = [] := by
    rw [noGenerics]
    rfl
  rw [declare, nothing]
  rfl

/-- A line stays as it is if nothing it names is documented. -/
theorem declareLine_of_noComment (noGenerics : renamer.tables.generics = [])
    {line : List Char}
    (noMethod : ∀ indent name, declarationOf line = .method indent name →
      renamer.memberComment "METHOD" true renamer.tables.methods indent name =
        [])
    (noField : ∀ indent name,
      renamer.memberComment "FIELD" false renamer.tables.fields indent name =
        [])
    (unresolved : isStub line = true → renamer.resolveStub line = none)
    (number : Nat) :
    renamer.declareLine file number line = .ok { line } := by
  have declares := @declare_of_noGenerics renamer file noGenerics number
  rw [declareLine]
  by_cases returns : startsWith "return ".toList (trimStartChars line) = true
  · rw [if_pos returns]
  · rw [if_neg returns]
    cases method : methodOfLine line with
    | some found =>
        obtain ⟨indent, name⟩ := found
        have declaration : declarationOf line = .method indent name := by
          rw [declarationOf, if_neg returns, method]
        dsimp only
        rw [noMethod indent name declaration, declares]
    | none =>
        dsimp only
        split
        · rename_i marked
          rw [expandStub, unresolved marked.2]
        · cases fieldOfLine line with
          | some found =>
              dsimp only
              rw [noField, declares]
          | none =>
              dsimp only
              cases constructorSignature line with
              | some signature =>
                  dsimp only
                  rw [declares, ite_self]
              | none => exact ite_self _

def resolved (renamer : Renamer) (line : List Char) : Declared :=
  if isStub line then renamer.expandStub line else { line }

/-- The lines that come of a line that only a marker can change. -/
def expandLine (renamer : Renamer) (file : String) (terminator : Terminator)
    (line : Line) : List Line :=
  let declared := renamer.resolved line.content
  declared.directlyAbove.map (fun content => ⟨content, terminator⟩) ++
    [⟨renamer.finishLine file declared.line, line.terminator⟩]

theorem resolved_eq (line : List Char) :
    renamer.resolved line =
      { directlyAbove := (renamer.resolved line).directlyAbove
        line := (renamer.resolved line).line } := by
  unfold resolved expandStub
  split
  · split <;> rfl
  · rfl

theorem renameLines_of_resolved {lines : List Line}
    (declared : ∀ line ∈ lines, ∀ number,
      renamer.declareLine file number line.content =
        .ok (renamer.resolved line.content))
    (number : Nat) (output : List Line) :
    renamer.renameLines file terminator number output lines =
      .ok (output.reverse ++ lines.flatMap
        (renamer.expandLine file terminator), []) := by
  induction lines generalizing number output with
  | nil => simp [renameLines]
  | cons line rest inductionHypothesis =>
      obtain ⟨first, later⟩ := List.forall_mem_cons.1 declared
      rw [renameLines, first number, resolved_eq]
      dsimp only [bind, Except.bind, pure, Except.pure]
      simp only [List.reverse_nil, List.map_nil, silent_insertAbove,
        inductionHypothesis later]
      simp [expandLine]

end Passes

end Renamer

namespace Tables

/-- The renamer that puts comments above declarations. -/
def full (tables : Tables) : Renamer :=
  { tables, mode := .full }

/-- The renamer that puts markers above declarations. -/
def stub (tables : Tables) : Renamer :=
  { tables, mode := .stub }

/-- Tables that give names, and document methods only. -/
structure DocumentsMethods (tables : Tables) : Prop where
  noGenerics : tables.generics = []
  noEdits : tables.edits = []
  noFields : ∀ name, NameTable.documentation? tables.fields name = none
  methods : ∀ name, (tables.methods.get? name).isSome = true →
    IsName .method name.toList
  identifiers : ∀ kind name human,
    tables.full.humanName kind name = some human →
      human ≠ "" ∧ ∀ char ∈ human.toList, isRunChar char = true

/-- A line is no marker, and settled by a renaming: a second one changes nothing
more, and no documented method is declared by what came of it. -/
structure Settles (tables : Tables) (line : List Char) : Prop where
  unmarked : Renamer.isStub line = false
  stable : tables.full.rename (tables.full.rename line) =
    tables.full.rename line
  undeclared : ∀ indent name,
    Renamer.declarationOf (tables.full.rename line) = .method indent name →
      NameTable.documentation? tables.methods name = none

def MakesNoMarker (tables : Tables) (line : List Char) : Prop :=
  Renamer.isStub (tables.full.rename line) = true → ∀ name,
    firstName (tables.full.rename line) = some (.method, name) →
      NameTable.documentation? tables.methods name = none

def leavesBare (tables : Tables) : Declaration → Bool
  | .method _ name => (NameTable.documentation? tables.methods name).isNone
  | _ => true

instance (tables : Tables) (line : List Char) :
    Decidable (tables.Settles line) :=
  decidable_of_iff
    (Renamer.isStub line = false ∧
      tables.full.rename (tables.full.rename line) = tables.full.rename line ∧
      tables.leavesBare
        (Renamer.declarationOf (tables.full.rename line)) = true) <| by
    constructor
    · rintro ⟨unmarked, stable, bare⟩
      refine ⟨unmarked, stable, fun indent name declares => ?_⟩
      rw [declares] at bare
      exact Option.isNone_iff_eq_none.1 bare
    · rintro ⟨unmarked, stable, undeclared⟩
      refine ⟨unmarked, stable, ?_⟩
      cases declares : Renamer.declarationOf (tables.full.rename line) with
      | method indent name =>
          exact Option.isNone_iff_eq_none.2 (undeclared indent name declares)
      | field | constructor | nothing => rfl

def renamed (tables : Tables) (line : Line) : Line :=
  ⟨tables.full.rename line.content, line.terminator⟩

end Tables

namespace Renamer

section Documenting

variable {tables : Tables} (documents : tables.DocumentsMethods)

theorem exists_splitIndent_of_declarationOf {line indent : List Char}
    {name : String} (declares : declarationOf line = .method indent name) :
    ∃ body, splitIndent line = some (indent, body) := by
  have method : methodOfLine line = some (indent, name) := by
    unfold declarationOf at declares
    split at declares
    · cases declares
    · split at declares
      · rename_i found
        cases declares
        exact found
      · split at declares
        · cases declares
        · split at declares <;> cases declares
  obtain ⟨shape, shaped, named⟩ := Option.bind_eq_some_iff.1 method
  obtain ⟨⟨front, body⟩, cut, made⟩ := Option.bind_eq_some_iff.1 shaped
  cases made
  dsimp only at named
  split at named
  · cases named
    exact ⟨body, cut⟩
  · cases named

theorem commentFor_stub {renamer : Renamer} (marks : renamer.mode = .stub)
    (indent : List Char) (name documentation : String) :
    renamer.commentFor indent "METHOD" name documentation true =
      [markerLine indent name] := by
  rw [commentFor, marks]
  simp [markerLine, toString]

include documents

theorem blocks_cases (terminator : Terminator) (line : Line) :
    (tables.stub.blockFor terminator line = [] ∧
      tables.full.blockFor terminator line = []) ∨
    ∃ indent name documentation, IsIndent indent ∧
      IsName .method name.toList ∧
      NameTable.documentation? tables.methods name = some documentation ∧
      line.content ≠ [] ∧
      tables.stub.blockFor terminator line =
        [⟨markerLine indent name, terminator⟩] ∧
      tables.full.blockFor terminator line =
        (openComment indent documentation ++ [endComment indent]).map
          fun content => ⟨content, terminator⟩ := by
  have without : (∀ renamer : Renamer, renamer.tables = tables →
      renamer.commentAbove line.content = []) →
      tables.stub.blockFor terminator line = [] ∧
        tables.full.blockFor terminator line = [] := by
    intro nothing
    unfold blockFor
    rw [nothing tables.stub rfl, nothing tables.full rfl]
    exact ⟨rfl, rfl⟩
  cases declares : declarationOf line.content with
  | method indent name =>
      cases found : NameTable.documentation? tables.methods name with
      | none =>
          refine .inl (without fun renamer same => ?_)
          rw [commentAbove, declares, same]
          simp [found]
      | some documentation =>
          obtain ⟨body, cut⟩ := exists_splitIndent_of_declarationOf declares
          have comment : ∀ renamer : Renamer, renamer.tables = tables →
              renamer.commentAbove line.content =
                renamer.commentFor indent "METHOD" name documentation true := by
            intro renamer same
            rw [commentAbove, declares, same]
            simp [found]
          have listed : (tables.methods.get? name).isSome = true := by
            obtain ⟨entry, here, _⟩ := Option.bind_eq_some_iff.1 found
            simp [here]
          refine .inr ⟨indent, name, documentation, isIndent_of_splitIndent cut,
            documents.methods name listed, found, ?_, ?_, ?_⟩
          · intro empty
            rw [empty] at cut
            cases cut
          · rw [blockFor, comment tables.stub rfl, commentFor_stub rfl]
            rfl
          · rw [blockFor, comment tables.full rfl, ← javadoc_method]
            rfl
  | field indent name =>
      refine .inl (without fun renamer same => ?_)
      rw [commentAbove, declares, same]
      simp [documents.noFields]
  | constructor =>
      refine .inl (without fun renamer _ => ?_)
      rw [commentAbove, declares]
  | nothing =>
      refine .inl (without fun renamer _ => ?_)
      rw [commentAbove, declares]

/-! ## Lines of the text between the passes -/

theorem finishLine_eq {renamer : Renamer} (same : renamer.tables = tables)
    (file : String) (line : List Char) :
    renamer.finishLine file line = tables.full.rename line := by
  have noEdits : renamer.editsFor file = [] := by
    rw [editsFor, same, documents.noEdits]
    rfl
  have noCasts : renamer.dropNullCasts line = line := by
    rw [dropNullCasts, same, documents.noGenerics]
    rfl
  have names : renamer.humanName = tables.full.humanName := by
    funext kind name
    unfold humanName
    rw [same]
    rfl
  rw [finishLine, noEdits, noCasts, List.foldl_nil, rename, rename, names]

section Settled

variable {line : List Char} (settles : tables.Settles line)
  (makesNoMarker : tables.MakesNoMarker line)

include makesNoMarker

theorem resolveStub_renamed
    (marked : isStub (tables.full.rename line) = true) :
    tables.full.resolveStub (tables.full.rename line) = none := by
  have none := makesNoMarker marked
  rw [resolveStub]
  cases found : firstName (tables.full.rename line) with
  | none => rfl
  | some first =>
      obtain ⟨kind, name⟩ := first
      have undocumented : tables.full.documentation? kind name = .none := by
        cases kind with
        | method => exact none name found
        | field => exact documents.noFields name
        | parameter => rfl
      simp [undocumented]

theorem resolved_renamed :
    tables.full.resolved (tables.full.rename line) =
      { line := tables.full.rename line } := by
  rw [resolved]
  split
  · rename_i marked
    rw [expandStub, resolveStub_renamed documents makesNoMarker marked]
  · rfl

include settles

theorem declareLine_renamed (file : String) (number : Nat) :
    tables.full.declareLine file number (tables.full.rename line) =
      .ok (tables.full.resolved (tables.full.rename line)) := by
  rw [resolved_renamed documents makesNoMarker]
  refine declareLine_of_noComment documents.noGenerics ?_ ?_
    (resolveStub_renamed documents makesNoMarker) number
  · intro indent name declares
    have undocumented := settles.undeclared indent name declares
    rw [memberComment, if_neg (by simp [Tables.full])]
    simp [Tables.full, undocumented]
  · intro indent name
    rw [memberComment, if_neg (by simp [Tables.full])]
    simp [Tables.full, documents.noFields]

theorem expandLine_renamed (file : String) (terminator own : Terminator) :
    tables.full.expandLine file terminator ⟨tables.full.rename line, own⟩ =
      [⟨tables.full.rename line, own⟩] := by
  rw [expandLine, resolved_renamed documents makesNoMarker]
  have finished : ∀ chars, tables.full.finishLine file chars =
      tables.full.rename chars :=
    finishLine_eq documents rfl file
  simp [finished, settles.stable]

end Settled

/-- A marker becomes the comment that one pass puts in its place. -/
theorem expandLine_markerLine {indent : List Char} {name documentation : String}
    (indented : IsIndent indent) (isName : IsName .method name.toList)
    (found : NameTable.documentation? tables.methods name =
      some documentation) (file : String) (terminator : Terminator) :
    tables.full.expandLine file terminator ⟨markerLine indent name, terminator⟩ =
      (openComment indent documentation ++ [endComment indent]).map
        fun content => ⟨content, terminator⟩ := by
  have expanded : tables.full.resolved (markerLine indent name) =
      { directlyAbove := openComment indent documentation
        line := endComment indent } := by
    rw [resolved, if_pos (isStub_markerLine indented name),
      expandStub_markerLine indented name isName found]
  rw [expandLine, expanded]
  have finished : ∀ chars, tables.full.finishLine file chars =
      tables.full.rename chars :=
    finishLine_eq documents rfl file
  simp [finished, rename_endComment indented]

theorem unbroken_rename {line : List Char} (unbroken : Unbroken line) :
    Unbroken (tables.full.rename line) := by
  have absent : ∀ char, isRunChar char = false → char ∉ line →
      char ∉ tables.full.rename line := by
    intro char separates absent member
    obtain inLine | ⟨kind, name, human, given, inHuman⟩ := mem_replaceNames member
    · exact absent inLine
    · have joins := (documents.identifiers kind name human given).2 char inHuman
      rw [separates] at joins
      cases joins
  exact ⟨absent '\n' (by decide) unbroken.1, absent '\r' (by decide) unbroken.2⟩

theorem rename_ne_nil {line : List Char} (filled : line ≠ []) :
    tables.full.rename line ≠ [] :=
  replaceNames_ne_nil (fun kind name human given =>
    (documents.identifiers kind name human given).1) filled

omit documents in
theorem renamed_of_empty {line : Line} (empty : line.content = []) :
    tables.renamed line = line := by
  obtain ⟨content, terminator⟩ := line
  obtain rfl : content = [] := empty
  rfl

theorem areLines_renamed {lines : List Line} (areLines : AreLines lines) :
    AreLines (lines.map tables.renamed) := by
  induction lines with
  | nil => exact areLines_nil
  | cons line rest inductionHypothesis =>
      obtain ⟨whole, follows, later⟩ := areLines_cons.1 areLines
      refine areLines_cons.2 ⟨⟨unbroken_rename documents whole.1, ?_⟩, ?_,
        inductionHypothesis later⟩
      · intro empty
        obtain ⟨noContent, noTerminator⟩ := List.append_eq_nil_iff.1 empty
        by_cases filled : line.content = []
        · exact whole.2 (List.append_eq_nil_iff.2 ⟨filled, noTerminator⟩)
        · exact rename_ne_nil documents filled noContent
      · intro next first
        cases rest with
        | nil => cases first
        | cons other others =>
            obtain rfl : _ = next := Option.some.inj first
            obtain ⟨closed, apart⟩ := follows other rfl
            have nextWhole := later.whole other List.mem_cons_self
            by_cases filled : other.content = []
            · refine ⟨closed, fun returns => ?_⟩
              rw [renamed_of_empty filled]
              exact apart returns
            · exact follows_of_content closed
                (unbroken_rename documents nextWhole.1)
                (rename_ne_nil documents filled)

def outputOf (renamer : Renamer) (terminator : Terminator)
    (lines : List Line) : List Line :=
  documented (lines.map renamer.tables.renamed)
    (lines.map (renamer.blockFor terminator))

theorem areLines_outputOf {terminator : Terminator}
    (closed : terminator ≠ .endOfText) {lines : List Line}
    (areLines : AreLines lines) :
    AreLines (tables.stub.outputOf terminator lines) := by
  refine areLines_documented (by simp) (areLines_renamed documents areLines)
    ?_ ?_
  · intro block member line inside
    obtain ⟨own, _, rfl⟩ := List.mem_map.1 member
    obtain ⟨none, _⟩ | ⟨indent, name, _, indented, isName, _, _, marked, _⟩ :=
      blocks_cases documents terminator own
    · rw [none] at inside
      cases inside
    · rw [marked] at inside
      rw [List.mem_singleton.1 inside]
      exact isSolid_markerLine indented name isName closed
  · intro index line here some
    rw [List.getElem?_map] at here some
    obtain ⟨own, original, rfl⟩ := Option.map_eq_some_iff.1 here
    rw [original, Option.map_some] at some
    obtain ⟨none, _⟩ | ⟨_, _, _, _, _, _, filled, _⟩ :=
      blocks_cases documents terminator own
    · exact absurd (congrArg Option.some none) some
    · exact rename_ne_nil documents filled

omit documents in
theorem terminator_of_mem_blocksAt {renamer : Renamer} {terminator : Terminator}
    {lines own : List Line} {place : Nat} {comment : Line}
    (member : comment ∈
      blocksAt lines (own.map (renamer.blockFor terminator)) place) :
    comment.terminator = terminator := by
  obtain ⟨⟨block, index⟩, listed, inside⟩ := List.mem_flatMap.1 member
  obtain ⟨line, _, rfl⟩ := List.mem_map.1 (List.fst_mem_of_mem_zipIdx listed)
  split at inside
  · obtain ⟨content, _, rfl⟩ := List.mem_map.1 inside
    rfl
  · exact absurd inside List.not_mem_nil

/-- The first line ends as it did, or a marker that ends so comes before it. -/
theorem firstTerminator_outputOf (text : List Char) :
    firstTerminator (joinLines
      (tables.stub.outputOf (firstTerminator text) (splitLines text))) =
        firstTerminator text := by
  have closed := firstTerminator_ne_endOfText text
  have own := firstTerminator_eq text
  have areLines := areLines_outputOf documents closed (areLines_splitLines text)
  generalize firstTerminator text = terminator at closed own areLines ⊢
  rw [firstTerminator_eq, splitLines_joinLines areLines]
  cases lines : splitLines text with
  | nil =>
      rw [lines] at own
      exact own.symm
  | cons line rest =>
      rw [lines] at own
      rw [outputOf, documented]
      cases front : blocksAt ((line :: rest).map tables.stub.tables.renamed)
          ((line :: rest).map (tables.stub.blockFor terminator)) 0 with
      | nil =>
          rw [List.map_cons, List.map_cons] at front ⊢
          rw [weave_cons, front]
          exact own.symm
      | cons comment more =>
          have ends : comment.terminator = terminator :=
            terminator_of_mem_blocksAt (by rw [front]; exact List.mem_cons_self)
          rw [List.map_cons, List.map_cons] at front ⊢
          rw [weave_cons, front]
          dsimp only [List.cons_append]
          rw [ends, if_neg closed]

/-! ## The text between the passes -/

section Texts

variable {text : String}
  (settles : ∀ line ∈ splitLines text.toList, tables.Settles line.content)

include settles

theorem renameFile_of_settles {renamer : Renamer}
    (same : renamer.tables = tables) (documenting : renamer.mode ≠ .skip)
    (file : String) :
    renamer.renameFile file text =
      .ok ⟨String.ofList (joinLines (renamer.outputOf
        (firstTerminator text.toList) (splitLines text.toList))), []⟩ := by
  have unmarked : ∀ line ∈ splitLines text.toList,
      isStub line.content = false :=
    fun line member => (settles line member).unmarked
  have stays : ∀ line ∈ splitLines text.toList,
      renamer.silent.resolved line.content = { line := line.content } := by
    intro line member
    rw [resolved, unmarked line member]
    rfl
  have declared : ∀ line ∈ splitLines text.toList, ∀ number,
      renamer.silent.declareLine file number line.content =
        .ok (renamer.silent.resolved line.content) := by
    intro line member number
    rw [stays line member]
    refine declareLine_of_noComment (by rw [silent, same, documents.noGenerics])
      ?_ ?_ (fun marked => ?_) number
    · exact fun _ _ _ => if_pos rfl
    · exact fun _ _ => if_pos rfl
    · rw [unmarked line member] at marked
      cases marked
  have eachLine : (splitLines text.toList).flatMap
      (renamer.silent.expandLine file (firstTerminator text.toList)) =
        (splitLines text.toList).map tables.renamed := by
    rw [List.map_eq_flatMap]
    refine List.flatMap_congr fun line member => ?_
    rw [expandLine, stays line member]
    dsimp only
    rw [@finishLine_eq tables documents renamer.silent same]
    rfl
  have silently := @renameLines_of_resolved renamer.silent file
    (firstTerminator text.toList) _ declared 1 []
  obtain ⟨error, fails, _⟩ | ⟨lines, used, ran, _, _, renamed⟩ :=
    @renameFile_documents renamer file documenting text unmarked
  · rw [renameFile_of_renameLines silently] at fails
    cases fails
  · rw [silently] at ran
    obtain ⟨rfl, rfl⟩ := Prod.mk.inj (Except.ok.inj ran)
    rw [renamed, List.reverse_nil, List.nil_append, eachLine, outputOf, same]

theorem declareLine_outputOf
    (makesNoMarker : ∀ line ∈ splitLines text.toList,
      tables.MakesNoMarker line.content)
    {line : Line} (member : line ∈ tables.stub.outputOf
      (firstTerminator text.toList) (splitLines text.toList))
    (file : String) (number : Nat) :
    tables.full.declareLine file number line.content =
      .ok (tables.full.resolved line.content) := by
  obtain renamed | ⟨block, listed, inside⟩ := mem_documented member
  · obtain ⟨own, original, rfl⟩ := List.mem_map.1 renamed
    exact declareLine_renamed documents (settles own original)
      (makesNoMarker own original) file number
  · obtain ⟨own, _, rfl⟩ := List.mem_map.1 listed
    obtain ⟨none, _⟩ | ⟨indent, name, _, indented, _, _, _, marked, _⟩ :=
      blocks_cases documents (firstTerminator text.toList) own
    · rw [none] at inside
      cases inside
    · rw [marked] at inside
      rw [List.mem_singleton.1 inside, resolved,
        if_pos (isStub_markerLine indented name)]
      exact declareLine_markerLine indented name (by simp [Tables.full]) file
        number

theorem flatMap_expandLine_outputOf
    (makesNoMarker : ∀ line ∈ splitLines text.toList,
      tables.MakesNoMarker line.content) (file : String) :
    (tables.stub.outputOf (firstTerminator text.toList)
      (splitLines text.toList)).flatMap
        (tables.full.expandLine file (firstTerminator text.toList)) =
      tables.full.outputOf (firstTerminator text.toList)
        (splitLines text.toList) := by
  have keeps : ∀ line ∈
        (splitLines text.toList).map tables.stub.tables.renamed,
      tables.full.expandLine file (firstTerminator text.toList) line =
        [line] := by
    intro line member
    obtain ⟨own, original, rfl⟩ := List.mem_map.1 member
    exact expandLine_renamed documents (settles own original)
      (makesNoMarker own original) file _ _
  have block : ∀ line,
      (tables.stub.blockFor (firstTerminator text.toList) line).flatMap
          (tables.full.expandLine file (firstTerminator text.toList)) =
        tables.full.blockFor (firstTerminator text.toList) line := by
    intro line
    obtain ⟨noMarker, noComment⟩ |
        ⟨indent, name, documentation, indented, isName, found, _, marked,
          comment⟩ :=
      blocks_cases documents (firstTerminator text.toList) line
    · rw [noMarker, noComment]
      rfl
    · rw [marked, comment, List.flatMap_singleton,
        expandLine_markerLine documents indented isName found]
  rw [outputOf, outputOf, flatMap_documented keeps, List.map_map]
  congr 1
  exact List.map_congr_left fun line _ => block line

end Texts

end Documenting

/-- A pass that leaves markers and a pass over its result that documents give
what one pass that documents gives. -/
theorem renameFile_full_after_stub {tables : Tables}
    (documents : tables.DocumentsMethods) {text : String}
    (settles : ∀ line ∈ splitLines text.toList, tables.Settles line.content)
    (makesNoMarker : ∀ line ∈ splitLines text.toList,
      tables.MakesNoMarker line.content) (file : String) :
    ∃ marked documented,
      tables.stub.renameFile file text = .ok marked ∧
      tables.full.renameFile file text = .ok documented ∧
      tables.full.renameFile file marked.text = .ok documented := by
  refine ⟨_, _, renameFile_of_settles documents settles rfl (by simp [Tables.stub]) file,
    renameFile_of_settles documents settles rfl (by simp [Tables.full]) file, ?_⟩
  dsimp only
  have closed := firstTerminator_ne_endOfText text.toList
  have areLines := areLines_outputOf documents closed
    (areLines_splitLines text.toList)
  have again := @renameLines_of_resolved tables.full file
    (firstTerminator text.toList) _
    (fun line member number =>
      declareLine_outputOf documents settles makesNoMarker member file number) 1 []
  rw [flatMap_expandLine_outputOf documents settles makesNoMarker] at again
  have starts := firstTerminator_outputOf documents text.toList
  generalize tables.stub.outputOf (firstTerminator text.toList)
    (splitLines text.toList) = output at areLines starts again ⊢
  have ran : tables.full.renameLines file
      (firstTerminator (String.ofList (joinLines output)).toList) 1 []
      (splitLines (String.ofList (joinLines output)).toList) =
        .ok (tables.full.outputOf (firstTerminator text.toList)
          (splitLines text.toList), []) := by
    rw [String.toList_ofList, starts, splitLines_joinLines areLines]
    exact again
  exact renameFile_of_renameLines ran

theorem documentsMethods_empty : Tables.DocumentsMethods {} where
  noGenerics := rfl
  noEdits := rfl
  noFields := fun _ => rfl
  methods := fun _ listed => by cases listed
  identifiers := fun kind _ _ given => by cases kind <;> cases given

theorem documentsMethods_insert {methods : NameTable}
    (documents : Tables.DocumentsMethods { methods }) {key : String}
    {entry : NameEntry} (isName : IsName .method key.toList)
    (named : entry.name ≠ "")
    (isRun : ∀ char ∈ entry.name.toList, isRunChar char = true) :
    Tables.DocumentsMethods { methods := methods.insert key entry } where
  noGenerics := rfl
  noEdits := rfl
  noFields := fun _ => rfl
  methods := by
    intro name listed
    rw [Dict.get?_insert] at listed
    split at listed
    · rename_i same
      rwa [← same]
    · exact documents.methods name listed
  identifiers := by
    intro kind name human given
    cases kind with
    | method =>
        obtain ⟨held, found, rfl⟩ := Option.map_eq_some_iff.1 given
        change (methods.insert key entry).get? name = some held at found
        rw [Dict.get?_insert] at found
        split at found
        · cases found
          exact ⟨named, isRun⟩
        · exact documents.identifiers .method name held.name
            (Option.map_eq_some_iff.2 ⟨held, found, rfl⟩)
    | field => cases given
    | parameter => cases given

/-- A marker stands above the annotation, and the comment takes its place. -/
theorem renameFile_full_after_stub_method :
    let tables := sampleRenamer.tables
    tables.DocumentsMethods ∧
      (∀ line ∈ splitLines sampleText.toList, tables.Settles line.content) ∧
      (∀ line ∈ splitLines sampleText.toList,
        tables.MakesNoMarker line.content) ∧
      ∃ documented,
        tables.full.renameFile "A.java" sampleText = .ok documented ∧
        tables.full.renameFile "A.java" ("class A \x7b\r\n" ++
          "    // DOCSTUB METHOD $$ func_1_a\r\n    @Override\n" ++
          "    public void doFoo() \x7b\r") = .ok documented := by
  intro tables
  have documents : tables.DocumentsMethods :=
    documentsMethods_insert documentsMethods_empty
      (isName_of_nameAt (by decide)) (by decide) (forall_mem_of_all (by decide))
  have settles : ∀ line ∈ splitLines sampleText.toList,
      tables.Settles line.content := by
    decide +kernel
  have makesNoMarker : ∀ line ∈ splitLines sampleText.toList,
      tables.MakesNoMarker line.content := by
    have unmarked : ∀ line ∈ splitLines sampleText.toList,
        isStub (tables.full.rename line.content) = false := by
      decide
    intro line member marked
    rw [unmarked line member] at marked
    cases marked
  have marks : tables.stub.renameFile "A.java" sampleText =
      .ok ⟨"class A \x7b\r\n" ++
        "    // DOCSTUB METHOD $$ func_1_a\r\n    @Override\n" ++
        "    public void doFoo() \x7b\r", []⟩ := by
    decide +kernel
  obtain ⟨marked, documented, first, once, again⟩ :=
    renameFile_full_after_stub documents settles makesNoMarker "A.java"
  rw [marks] at first
  cases first
  exact ⟨documents, settles, makesNoMarker, documented, once, again⟩

/-- A table with a human name that makes a marker of a line. -/
def markingTables : Tables where
  methods :=
    (Dict.empty.insert "func_1_a" ⟨"DOCSTUB", none⟩).insert "func_2_b"
      ⟨"func_2_b", some "Does it."⟩

/-- A renaming that makes a marker of a line comes to light in the second
pass. -/
theorem not_full_after_stub :
    markingTables.DocumentsMethods ∧
      (∀ line ∈ splitLines "// func_1_a func_2_b\n".toList,
        markingTables.Settles line.content) ∧
      ¬ ∃ marked documented,
        markingTables.stub.renameFile "A.java" "// func_1_a func_2_b\n" =
          .ok marked ∧
        markingTables.full.renameFile "A.java" "// func_1_a func_2_b\n" =
          .ok documented ∧
        markingTables.full.renameFile "A.java" marked.text = .ok documented := by
  have first : Tables.DocumentsMethods
      { methods := Dict.empty.insert "func_1_a" ⟨"DOCSTUB", none⟩ } :=
    documentsMethods_insert documentsMethods_empty
      (isName_of_nameAt (by decide)) (by decide) (forall_mem_of_all (by decide))
  have documents : markingTables.DocumentsMethods :=
    documentsMethods_insert first
      (isName_of_nameAt (by decide)) (by decide) (forall_mem_of_all (by decide))
  have marks : markingTables.stub.renameFile "A.java"
      "// func_1_a func_2_b\n" = .ok ⟨"// DOCSTUB func_2_b\n", []⟩ := by
    decide +kernel
  have once : markingTables.full.renameFile "A.java"
      "// func_1_a func_2_b\n" = .ok ⟨"// DOCSTUB func_2_b\n", []⟩ := by
    decide
  have again : markingTables.full.renameFile "A.java" "// DOCSTUB func_2_b\n" =
      .ok ⟨"/**\n * Does it.\n */\n", []⟩ := by
    decide
  refine ⟨documents, by decide, ?_⟩
  rintro ⟨marked, documented, first, second, third⟩
  rw [marks] at first
  rw [once] at second
  cases first
  cases second
  rw [again] at third
  exact absurd third (by decide)

end Renamer

end Deobfuscate.Source
