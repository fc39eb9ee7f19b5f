import Deobfuscate.Source.Renamer
import Mathlib.Data.List.DropRight

/-!
# Comments above declarations

A renamer that documents does to the lines of a file what a silent one does: it
fails where that fails, uses the same type arguments and gives the same lines.
Only comments come between them, one for each declaration with documentation,
above the annotations of that declaration.
-/

namespace Deobfuscate.Source.Renamer

open Deobfuscate.Text

def placeAbove (lines : List Line) (index : Nat) : Nat :=
  ((lines.take index).rdropWhile isAnnotation).length

def blocksAt (lines : List Line) (blocks : List (List Line)) (place : Nat) :
    List Line :=
  blocks.zipIdx.flatMap fun block =>
    if placeAbove lines block.2 = place then block.1 else []

/-- Put something before each of some lines, which are counted from a number
on. -/
def weave (before : Nat → List Line) (start : Nat) (lines : List Line) :
    List Line :=
  (lines.zipIdx start).flatMap fun line => before line.2 ++ [line.1]

/-- Lines with the block of each line put above it and its annotations. -/
def documented (lines : List Line) (blocks : List (List Line)) : List Line :=
  weave (blocksAt lines blocks) 0 lines

section Weaving

variable {before other : Nat → List Line} {start : Nat}

theorem weave_cons (line : Line) (rest : List Line) :
    weave before start (line :: rest) =
      before start ++ line :: weave before (start + 1) rest := by
  simp [weave]

theorem weave_append (first second : List Line) :
    weave before start (first ++ second) =
      weave before start first ++
        weave before (start + first.length) second := by
  rw [weave, List.zipIdx_append, List.flatMap_append]
  rfl

theorem weave_congr {lines : List Line}
    (same : ∀ place, start ≤ place → place < start + lines.length →
      before place = other place) :
    weave before start lines = weave other start lines := by
  induction lines generalizing start with
  | nil => rfl
  | cons line rest inductionHypothesis =>
      rw [weave_cons, weave_cons, same start le_rfl (by simp),
        inductionHypothesis fun place from_ below => same place (by omega)
          (by simp only [List.length_cons]; omega)]

theorem weave_of_nothing {lines : List Line}
    (nothing : ∀ place, start ≤ place → before place = []) :
    weave before start lines = lines := by
  induction lines generalizing start with
  | nil => rfl
  | cons line rest inductionHypothesis =>
      rw [weave_cons, nothing start le_rfl, List.nil_append,
        inductionHypothesis fun place later => nothing place (by omega)]

theorem weave_first {line : Line} {rest : List Line}
    (nothing : ∀ place, start < place → before place = []) :
    weave before start (line :: rest) = before start ++ line :: rest := by
  rw [weave_cons, weave_of_nothing nothing]

end Weaving

section Places

variable {lines : List Line} {blocks : List (List Line)}

theorem placeAbove_le (lines : List Line) (index : Nat) :
    placeAbove lines index ≤ index := by
  have shorter := (List.rdropWhile_prefix isAnnotation
    (l := lines.take index)).length_le
  exact shorter.trans (List.length_take_le index lines)

theorem rdropWhile_append_annotations {first run : List Line}
    (annotations : ∀ line ∈ run, isAnnotation line = true) :
    (first ++ run).rdropWhile isAnnotation =
      first.rdropWhile isAnnotation := by
  rw [List.rdropWhile, List.reverse_append, List.dropWhile_append_of_pos]
  · rfl
  · simpa using annotations

/-- No block comes below the first of the annotations that the lines end
with. -/
theorem placeAbove_le_of_run {head run : List Line}
    (annotations : ∀ line ∈ run, isAnnotation line = true) (index : Nat) :
    placeAbove (head ++ run) index ≤ head.length := by
  have shorter : placeAbove (head ++ run) index =
      placeAbove head index := by
    rw [placeAbove, List.take_append, rdropWhile_append_annotations]
    · rfl
    · exact fun line member => annotations line (List.mem_of_mem_take member)
  rw [shorter]
  exact ((List.rdropWhile_prefix isAnnotation
    (l := head.take index)).length_le).trans (List.length_take_le' index head)

theorem blocksAt_eq_nil {place : Nat}
    (below : ∀ index < blocks.length, placeAbove lines index ≠ place) :
    blocksAt lines blocks place = [] := by
  rw [blocksAt, List.flatMap_eq_nil_iff]
  intro block member
  have bound := List.snd_lt_of_mem_zipIdx member
  exact if_neg (below block.2 (by omega))

theorem blocksAt_concat (sameLength : blocks.length = lines.length)
    (line : Line) (block : List Line) (place : Nat) :
    blocksAt (lines ++ [line]) (blocks ++ [block]) place =
      blocksAt lines blocks place ++
        if placeAbove lines lines.length = place then block else [] := by
  have sameAbove : ∀ index ≤ lines.length,
      placeAbove (lines ++ [line]) index = placeAbove lines index := by
    intro index within
    rw [placeAbove, placeAbove, List.take_append_of_le_length within]
  rw [blocksAt, List.zipIdx_append, List.flatMap_append]
  congr 1
  · refine List.flatMap_congr fun block member => ?_
    have bound := List.snd_lt_of_mem_zipIdx member
    rw [sameAbove _ (by omega)]
  · simp [sameLength, sameAbove]

def head (lines : List Line) : List Line :=
  lines.rdropWhile isAnnotation

/-- The annotations that lines end with. -/
def run (lines : List Line) : List Line :=
  lines.rtakeWhile isAnnotation

theorem head_append_run (lines : List Line) : head lines ++ run lines = lines :=
  List.rdropWhile_append_rtakeWhile ..

theorem isAnnotation_of_mem_run {line : Line} (member : line ∈ run lines) :
    isAnnotation line = true :=
  List.mem_rtakeWhile_imp member

theorem placeAbove_length (lines : List Line) :
    placeAbove lines lines.length = (head lines).length := by
  rw [placeAbove, List.take_length, head]

/-- All blocks come above the annotations that the lines end with. -/
theorem blocksAt_of_lt {place : Nat} (below : (head lines).length < place) :
    blocksAt lines blocks place = [] := by
  refine blocksAt_eq_nil fun index _ same => ?_
  have above : placeAbove (head lines ++ run lines) index ≤
      (head lines).length :=
    placeAbove_le_of_run (fun line => isAnnotation_of_mem_run) index
  rw [head_append_run, same] at above
  omega

variable (sameLength : blocks.length = lines.length)

include sameLength

theorem blocksAt_length : blocksAt lines blocks lines.length = [] :=
  blocksAt_eq_nil fun index bound same => by
    have above := placeAbove_le lines index
    omega

def documentedHead (lines : List Line) (blocks : List (List Line)) :
    List Line :=
  weave (blocksAt lines blocks) 0 (head lines) ++
    blocksAt lines blocks (head lines).length

theorem documented_eq :
    documented lines blocks = documentedHead lines blocks ++ run lines := by
  have parts : documented lines blocks =
      weave (blocksAt lines blocks) 0 (head lines) ++
        weave (blocksAt lines blocks) (0 + (head lines).length) (run lines) := by
    rw [← weave_append, head_append_run]
    rfl
  rw [parts, documentedHead, List.append_assoc, Nat.zero_add]
  cases annotations : run lines with
  | nil =>
      have whole := head_append_run lines
      rw [annotations, List.append_nil] at whole
      rw [whole, blocksAt_length sameLength]
      rfl
  | cons first rest =>
      rw [weave_first fun place => blocksAt_of_lt]

/-- A line that follows has its block put above the annotations that the lines
end with. -/
theorem documented_concat (line : Line) (block : List Line) :
    documented (lines ++ [line]) (blocks ++ [block]) =
      documentedHead lines blocks ++ block ++ run lines ++ [line] := by
  have longer := blocksAt_concat sameLength line block
  rw [placeAbove_length] at longer
  have first : weave (blocksAt (lines ++ [line]) (blocks ++ [block])) 0
      (head lines) = weave (blocksAt lines blocks) 0 (head lines) := by
    refine weave_congr fun place _ below => ?_
    rw [longer, if_neg (by omega), List.append_nil]
  have here : blocksAt (lines ++ [line]) (blocks ++ [block])
      (head lines).length =
        blocksAt lines blocks (head lines).length ++ block := by
    rw [longer, if_pos rfl]
  have later : ∀ place, (head lines).length < place →
      blocksAt (lines ++ [line]) (blocks ++ [block]) place = [] := by
    intro place below
    rw [longer, if_neg (by omega), blocksAt_of_lt below]
    rfl
  have parts : documented (lines ++ [line]) (blocks ++ [block]) =
      weave (blocksAt (lines ++ [line]) (blocks ++ [block])) 0
        (head lines ++ (run lines ++ [line])) := by
    rw [← List.append_assoc, head_append_run]
    rfl
  rw [parts, weave_append, first, Nat.zero_add, documentedHead]
  cases run lines with
  | nil =>
      rw [List.nil_append, weave_first later, here]
      simp
  | cons annotation rest =>
      rw [List.cons_append, weave_first later, here]
      simp

omit sameLength in
theorem not_annotation_of_documentedHead
    (plain : ∀ block ∈ blocks, ∀ line ∈ block, isAnnotation line = false)
    {last : Line} (ends : last ∈ (documentedHead lines blocks).getLast?) :
    isAnnotation last = false := by
  rw [documentedHead, List.getLast?_append, Option.mem_def,
    Option.or_eq_some_iff] at ends
  obtain inBlocks | ⟨_, inHead⟩ := ends
  · obtain ⟨block, listed, inside⟩ :=
      List.mem_flatMap.1 (List.mem_of_getLast? inBlocks)
    split at inside
    · exact plain _ (List.fst_mem_of_mem_zipIdx listed) last inside
    · exact absurd inside List.not_mem_nil
  · obtain nothing | ⟨before, final, split⟩ := (head lines).eq_nil_or_concat
    · rw [nothing] at inHead
      cases inHead
    · have same : final = last := by
        rw [split, List.concat_eq_append, weave_append, weave_cons] at inHead
        simpa [weave] using inHead
      have nonempty : head lines ≠ [] := by simp [split]
      have stops := List.rdropWhile_last_not isAnnotation lines nonempty
      change ¬ isAnnotation ((head lines).getLast nonempty) = true at stops
      simpa [split, same] using stops

end Places

/-! ## Putting comments into an output -/

theorem insertAbove_append {annotations rest comment : List Line}
    (each : ∀ line ∈ annotations, isAnnotation line = true)
    (ends : ∀ line ∈ rest.head?, isAnnotation line = false) :
    insertAbove comment (annotations ++ rest) =
      annotations ++ (comment ++ rest) := by
  induction annotations with
  | nil =>
      cases rest with
      | nil => simp [insertAbove]
      | cons line rest =>
          have plain := ends line rfl
          simp [insertAbove, plain]
  | cons line annotations inductionHypothesis =>
      have first := each line (by simp)
      rw [List.cons_append, insertAbove, if_pos first,
        inductionHypothesis fun other member => each other (by simp [member])]
      rfl

/-- What comes of an output that holds lines with their blocks when a line and
its block follow. -/
theorem insertAbove_documented {lines : List Line} {blocks : List (List Line)}
    (sameLength : blocks.length = lines.length)
    (plain : ∀ block ∈ blocks, ∀ line ∈ block, isAnnotation line = false)
    (line : Line) (block : List Line) :
    line :: insertAbove block.reverse (documented lines blocks).reverse =
      (documented (lines ++ [line]) (blocks ++ [block])).reverse := by
  rw [documented_eq sameLength, documented_concat sameLength,
    List.reverse_append, insertAbove_append]
  · simp
  · intro annotation member
    exact isAnnotation_of_mem_run (List.mem_reverse.1 member)
  · intro last ends
    rw [List.head?_reverse] at ends
    exact not_annotation_of_documentedHead plain ends

def declarationOf (line : List Char) : Declaration :=
  if startsWith "return ".toList (trimStartChars line) then .nothing
  else
    match methodOfLine line with
    | some (indent, name) => .method indent name
    | none =>
        match fieldOfLine line with
        | some (indent, name) => .field indent name
        | none =>
            if isConstructorLine line then .constructor else .nothing

def commentAbove (renamer : Renamer) (line : List Char) : List (List Char) :=
  match declarationOf line with
  | .method indent name =>
      match NameTable.documentation? renamer.tables.methods name with
      | some text => renamer.commentFor indent "METHOD" name text true
      | none => []
  | .field indent name =>
      match NameTable.documentation? renamer.tables.fields name with
      | some text => renamer.commentFor indent "FIELD" name text false
      | none => []
  | .constructor => []
  | .nothing => []

/-- The renamer that puts no comments anywhere. -/
def silent (renamer : Renamer) : Renamer :=
  { renamer with mode := .skip }

section Declaring

variable {renamer : Renamer} {file : String} {number : Nat} {line : List Char}

theorem declare_cases (comment : List (List Char)) (key : String) :
    (∃ error, renamer.silent.declare file number [] line key = .error error ∧
        renamer.declare file number comment line key = .error error) ∨
      ∃ edited used, renamer.silent.declare file number [] line key =
          .ok { line := edited, used } ∧
        renamer.declare file number comment line key =
          .ok { above := comment, line := edited, used } := by
  unfold declare silent
  dsimp only
  rcases insertSuffixes file number line
    (renamer.tables.generics.lookup key) with error | ⟨edited, used⟩
  · exact .inl ⟨error, rfl, rfl⟩
  · exact .inr ⟨edited, used, rfl, rfl⟩

/-- What becomes of a line that is no marker depends on what it declares. -/
theorem declareLine_eq (plain : isStub line = false) :
    renamer.declareLine file number line =
      match declarationOf line with
      | .method indent name =>
          renamer.declare file number
            (renamer.memberComment "METHOD" true renamer.tables.methods
              indent name) line name
      | .field indent name =>
          renamer.declare file number
            (renamer.memberComment "FIELD" false renamer.tables.fields
              indent name) line name
      | .constructor =>
          match constructorSignature line with
          | some signature =>
              renamer.declare file number [] line
                (file ++ "@init:" ++ signature)
          | none => .ok { line }
      | .nothing => .ok { line } := by
  have notStub : ¬(renamer.mode ≠ .skip ∧ isStub line = true) := by simp [plain]
  unfold declareLine declarationOf
  rw [if_neg notStub]
  by_cases returns : startsWith "return ".toList (trimStartChars line) = true
  · rw [if_pos returns, if_pos returns]
  · rw [if_neg returns, if_neg returns]
    cases methodOfLine line with
    | some method => rfl
    | none =>
        cases fieldOfLine line with
        | some field => rfl
        | none => cases isConstructorLine line <;> rfl

/-- On a line that is no marker a renamer that documents does what a silent one
does, and puts the comment of the declaration above it. -/
theorem declareLine_cases (documents : renamer.mode ≠ .skip)
    (plain : isStub line = false) :
    (∃ error, renamer.silent.declareLine file number line = .error error ∧
        renamer.declareLine file number line = .error error) ∨
      ∃ edited used, renamer.silent.declareLine file number line =
          .ok { line := edited, used } ∧
        renamer.declareLine file number line =
          .ok { above := renamer.commentAbove line, line := edited, used } := by
  have comment : ∀ kind isMethod table indent name,
      renamer.memberComment kind isMethod table indent name =
        match NameTable.documentation? table name with
        | some text => renamer.commentFor indent kind name text isMethod
        | none => [] :=
    fun _ _ _ _ _ => if_neg documents
  have noComment : ∀ kind isMethod table indent name,
      renamer.silent.memberComment kind isMethod table indent name = [] :=
    fun _ _ _ _ _ => if_pos rfl
  rw [declareLine_eq plain, declareLine_eq plain, commentAbove]
  cases declarationOf line with
  | method indent name =>
      simp only [comment, noComment]
      exact declare_cases _ _
  | field indent name =>
      simp only [comment, noComment]
      exact declare_cases _ _
  | constructor =>
      cases constructorSignature line with
      | none => exact .inr ⟨line, [], rfl, rfl⟩
      | some signature => exact declare_cases [] _
  | nothing => exact .inr ⟨line, [], rfl, rfl⟩

theorem isBlank_of_mem_indent {shape : Shape}
    (shaped : Shape.ofLine line = some shape) {char : Char}
    (member : char ∈ shape.indent) : isBlank char = true := by
  obtain ⟨⟨indent, body⟩, split, rest⟩ := Option.bind_eq_some_iff.1 shaped
  cases rest
  have blanks : char = ' ' ∨ char = '\t' := by
    unfold splitIndent at split
    dsimp only at split
    split at split
    · split at split
      · cases split
        exact .inl (by simpa using List.mem_takeWhile_imp member)
      · cases split
    · split at split
      · cases split
        exact .inr (by simpa using List.mem_takeWhile_imp member)
      · cases split
  obtain rfl | rfl := blanks <;> decide

theorem not_annotation_of_indent {indent rest : List Char} {char : Char}
    (blanks : ∀ char ∈ indent, isBlank char = true)
    (visible : isBlank char = false) (notAt : char ≠ '@')
    (terminator : Terminator) :
    isAnnotation ⟨indent ++ char :: rest, terminator⟩ = false := by
  have trimmed : trimStartChars (indent ++ char :: rest) = char :: rest := by
    rw [trimStartChars, List.dropWhile_append_of_pos blanks,
      List.dropWhile_cons_of_neg (by simp [visible])]
  simp [ isAnnotation, trimmed, notAt]

theorem not_annotation_of_javadoc {indent text content : List Char}
    (blanks : ∀ char ∈ indent, isBlank char = true) {isMethod : Bool}
    (member : content ∈ javadoc indent text isMethod)
    (terminator : Terminator) : isAnnotation ⟨content, terminator⟩ = false := by
  have starts : ∀ rest, isAnnotation ⟨indent ++ '/' :: rest, terminator⟩ =
      false := fun _ =>
    not_annotation_of_indent blanks (by decide) (by decide) terminator
  have goesOn : ∀ rest, isAnnotation ⟨indent ++ ' ' :: '*' :: rest,
      terminator⟩ = false := by
    intro rest
    have more : ∀ char ∈ indent ++ [' '], isBlank char = true := by
      intro char inside
      obtain before | last := List.mem_append.1 inside
      · exact blanks char before
      · rw [List.mem_singleton.1 last]
        decide
    rw [List.append_cons]
    exact not_annotation_of_indent more (by decide) (by decide) terminator
  unfold javadoc at member
  dsimp only at member
  split at member
  · obtain rfl | between := List.mem_cons.1 member
    · exact starts _
    · obtain between | last := List.mem_append.1 between
      · obtain ⟨line, _, rfl⟩ := List.mem_map.1 between
        unfold commentLine
        split
        · exact goesOn []
        · rw [List.append_assoc]
          exact goesOn _
      · rw [List.mem_singleton.1 last]
        exact goesOn _
  · rw [List.mem_singleton.1 member, List.append_assoc, List.append_assoc]
    exact starts _

theorem not_annotation_of_comment {indent : List Char}
    (blanks : ∀ char ∈ indent, isBlank char = true) {kind name text : String}
    {isMethod : Bool} {content : List Char}
    (member : content ∈ renamer.commentFor indent kind name text isMethod)
    (terminator : Terminator) : isAnnotation ⟨content, terminator⟩ = false := by
  unfold commentFor at member
  split at member
  · have spelled : (s!"// DOCSTUB {kind} $$ {name}").toList =
        '/' :: ("/ DOCSTUB ".toList ++ kind.toList ++ " $$ ".toList ++
          name.toList) := by
      simp [toString]
    rw [List.mem_singleton.1 member, spelled]
    exact not_annotation_of_indent blanks (by decide) (by decide) terminator
  · exact not_annotation_of_javadoc blanks member terminator

/-- A member is declared behind blanks. -/
theorem isBlank_of_declarationOf {indent : List Char} {name : String}
    (member : declarationOf line = .method indent name ∨
      declarationOf line = .field indent name) :
    ∀ char ∈ indent, isBlank char = true := by
  have found : methodOfLine line = some (indent, name) ∨
      fieldOfLine line = some (indent, name) := by
    unfold declarationOf at member
    split at member
    · simp at member
    · split at member
      · rename_i method
        exact .inl (by simpa [method] using member)
      · split at member
        · rename_i field
          exact .inr (by simpa [field] using member)
        · split at member <;> simp at member
  obtain method | field := found
  · obtain ⟨shape, shaped, rest⟩ := Option.bind_eq_some_iff.1 method
    split at rest
    · cases rest
      exact fun char => isBlank_of_mem_indent shaped
    · cases rest
  · obtain ⟨shape, shaped, rest⟩ := Option.bind_eq_some_iff.1 field
    dsimp only at rest
    split at rest
    · cases rest
      exact fun char => isBlank_of_mem_indent shaped
    · cases rest

theorem not_annotation_of_commentAbove {content : List Char}
    (member : content ∈ renamer.commentAbove line) (terminator : Terminator) :
    isAnnotation ⟨content, terminator⟩ = false := by
  unfold commentAbove at member
  split at member
  · rename_i declares
    split at member
    · exact not_annotation_of_comment
        (isBlank_of_declarationOf (.inl declares)) member terminator
    · exact absurd member List.not_mem_nil
  · rename_i declares
    split at member
    · exact not_annotation_of_comment
        (isBlank_of_declarationOf (.inr declares)) member terminator
    · exact absurd member List.not_mem_nil
  · exact absurd member List.not_mem_nil
  · exact absurd member List.not_mem_nil

end Declaring

/-! ## Whole files -/

def blockFor (renamer : Renamer) (terminator : Terminator) (line : Line) :
    List Line :=
  (renamer.commentAbove line.content).map fun content => ⟨content, terminator⟩

section Files

variable {renamer : Renamer} {file : String} {terminator : Terminator}

theorem not_annotation_of_blockFor {line inside : Line}
    (member : inside ∈ renamer.blockFor terminator line) :
    isAnnotation inside = false := by
  obtain ⟨content, listed, rfl⟩ := List.mem_map.1 member
  exact not_annotation_of_commentAbove listed terminator

theorem silent_insertAbove (output : List Line) :
    insertAbove [] output = output := by
  induction output with
  | nil => rfl
  | cons line rest inductionHypothesis =>
      rw [insertAbove, inductionHypothesis]
      simp

theorem renameLines_cons {number : Nat} {line : Line} {output rest : List Line}
    {comment : List (List Char)} {edited : List Char} {used : List Nat}
    (declared : renamer.declareLine file number line.content =
      .ok { above := comment, line := edited, used }) :
    renamer.renameLines file terminator number output (line :: rest) =
      (renamer.renameLines file terminator (number + 1)
        (⟨renamer.finishLine file edited, line.terminator⟩ ::
          insertAbove
            (comment.map fun content => (⟨content, terminator⟩ : Line)).reverse
            output) rest).map
        fun renamed => (renamed.1, used ++ renamed.2) := by
  have mapped : ∀ result : Except BoundaryError (List Line × List Nat),
      (result >>= fun renamed => pure (renamed.1, used ++ renamed.2)) =
        result.map fun renamed => (renamed.1, used ++ renamed.2) := by
    rintro (_ | _) <;> rfl
  rw [renameLines, declared, ← List.map_reverse]
  exact mapped _

variable (documents : renamer.mode ≠ .skip)

include documents

/-- From an output with blocks in it, renaming goes on as it does silently from
the output without them. -/
theorem renameLines_documents {rest : List Line}
    (plain : ∀ line ∈ rest, isStub line.content = false) (number : Nat)
    {lines : List Line} {blocks : List (List Line)}
    (sameLength : blocks.length = lines.length)
    (unmarked : ∀ block ∈ blocks, ∀ line ∈ block,
      isAnnotation line = false) :
    (∃ error,
      renamer.silent.renameLines file terminator number lines.reverse rest =
        .error error ∧
      renamer.renameLines file terminator number
        (documented lines blocks).reverse rest = .error error) ∨
      ∃ finished used,
        renamer.silent.renameLines file terminator number lines.reverse rest =
          .ok (lines ++ finished, used) ∧
        finished.map Line.terminator = rest.map Line.terminator ∧
        renamer.renameLines file terminator number
          (documented lines blocks).reverse rest =
            .ok (documented (lines ++ finished)
              (blocks ++ rest.map (renamer.blockFor terminator)), used) := by
  induction rest generalizing number lines blocks with
  | nil =>
      refine .inr ⟨[], [], ?_, rfl, ?_⟩ <;> simp [renameLines]
  | cons line rest inductionHypothesis =>
      obtain ⟨error, silently, aloud⟩ | ⟨edited, used, silently, aloud⟩ :=
        @declareLine_cases renamer file number line.content documents
          (plain line (by simp))
      · refine .inl ⟨error, ?_, ?_⟩
        · rw [renameLines, silently]
          rfl
        · rw [renameLines, aloud]
          rfl
      · generalize ended : (⟨renamer.finishLine file edited,
          line.terminator⟩ : Line) = ending
        have silentStep : renamer.silent.renameLines file terminator number
            lines.reverse (line :: rest) =
          (renamer.silent.renameLines file terminator (number + 1)
            (lines ++ [ending]).reverse rest).map
              fun renamed => (renamed.1, used ++ renamed.2) := by
          rw [renameLines_cons silently, List.map_nil, List.reverse_nil,
            silent_insertAbove, List.reverse_append, ← ended]
          rfl
        have step : renamer.renameLines file terminator number
            (documented lines blocks).reverse (line :: rest) =
          (renamer.renameLines file terminator (number + 1)
            (documented (lines ++ [ending])
              (blocks ++ [renamer.blockFor terminator line])).reverse rest).map
                fun renamed => (renamed.1, used ++ renamed.2) := by
          rw [renameLines_cons aloud,
            ← insertAbove_documented sameLength unmarked, ← ended]
          rfl
        have longer : (blocks ++ [renamer.blockFor terminator line]).length =
            (lines ++ [ending]).length := by
          simp [sameLength]
        have unmarkedToo : ∀ block ∈
            blocks ++ [renamer.blockFor terminator line],
            ∀ line ∈ block, isAnnotation line = false := by
          intro block member
          obtain before | here := List.mem_append.1 member
          · exact unmarked block before
          · rw [List.mem_singleton.1 here]
            exact fun _ => not_annotation_of_blockFor
        rw [silentStep, step]
        obtain ⟨error, silentFails, fails⟩ |
            ⟨finished, more, silentRan, terminators, ran⟩ :=
          inductionHypothesis (fun other member => plain other (by simp [member]))
            (number + 1) longer unmarkedToo
        · exact .inl ⟨error, by rw [silentFails]; rfl, by rw [fails]; rfl⟩
        · refine .inr ⟨ending :: finished, used ++ more, ?_, ?_, ?_⟩
          · rw [silentRan, List.append_assoc]
            rfl
          · rw [List.map_cons, List.map_cons, terminators, ← ended]
          · rw [ran, List.append_assoc, List.append_assoc]
            rfl

omit documents in
/-- What becomes of a file depends on what becomes of its lines. -/
theorem renameFile_of_renameLines {text : String}
    {result : Except BoundaryError (List Line × List Nat)}
    (ran : renamer.renameLines file (firstTerminator text.toList) 1 []
      (splitLines text.toList) = result) :
    renamer.renameFile file text =
      result.map fun renamed =>
        ⟨String.ofList (joinLines renamed.1), renamed.2⟩ := by
  rw [renameFile, ran]
  cases result <;> rfl

/-- Documenting a file changes nothing but that comments come in: renaming fails
as it does silently, or gives the lines it gives silently, with the comment for
each declaration above it and its annotations. -/
theorem renameFile_documents {text : String}
    (plain : ∀ line ∈ splitLines text.toList, isStub line.content = false) :
    (∃ error, renamer.silent.renameFile file text = .error error ∧
        renamer.renameFile file text = .error error) ∨
      ∃ lines used,
        renamer.silent.renameLines file (firstTerminator text.toList) 1 []
          (splitLines text.toList) = .ok (lines, used) ∧
        renamer.silent.renameFile file text =
          .ok ⟨String.ofList (joinLines lines), used⟩ ∧
        lines.map Line.terminator =
          (splitLines text.toList).map Line.terminator ∧
        renamer.renameFile file text =
          .ok ⟨String.ofList (joinLines (documented lines
            ((splitLines text.toList).map
              (renamer.blockFor (firstTerminator text.toList))))), used⟩ := by
  obtain ⟨error, silently, aloud⟩ | ⟨lines, used, silently, same, aloud⟩ :=
    @renameLines_documents renamer file (firstTerminator text.toList) documents
      (splitLines text.toList) plain 1 [] [] rfl (by simp)
  · exact .inl ⟨error, renameFile_of_renameLines silently,
      renameFile_of_renameLines aloud⟩
  · exact .inr ⟨lines, used, silently, renameFile_of_renameLines silently, same,
      renameFile_of_renameLines aloud⟩

end Files

/-- A renamer with a documented method. -/
def sampleRenamer : Renamer where
  tables :=
    { methods :=
        Dict.empty.insert "func_1_a" ⟨"doFoo", some "Does foo."⟩ }

def sampleText : String :=
  "class A \x7b\r\n    @Override\n    public void func_1_a() \x7b\r"

theorem sample_plain :
    ∀ line ∈ splitLines sampleText.toList, isStub line.content = false := by
  decide

/-- The comment stands above the annotation and ends its lines as the file ends
its first. -/
theorem renameFile_documents_method :
    sampleRenamer.mode ≠ .skip ∧
      (∀ line ∈ splitLines sampleText.toList, isStub line.content = false) ∧
      sampleRenamer.renameFile "A.java" sampleText =
        .ok ⟨"class A \x7b\r\n    /**\r\n     * Does foo.\r\n     */\r\n" ++
          "    @Override\n    public void doFoo() \x7b\r", []⟩ := by
  have documents : sampleRenamer.mode ≠ .skip := by decide
  have silently : sampleRenamer.silent.renameLines "A.java"
      (firstTerminator sampleText.toList) 1 [] (splitLines sampleText.toList) =
        .ok ([⟨"class A \x7b".toList, .carriageReturnLineFeed⟩,
          ⟨"    @Override".toList, .lineFeed⟩,
          ⟨"    public void doFoo() \x7b".toList, .carriageReturn⟩], []) := by
    decide +kernel
  refine ⟨documents, sample_plain, ?_⟩
  obtain ⟨error, fails, _⟩ | ⟨lines, used, ran, _, _, renamed⟩ :=
    @renameFile_documents sampleRenamer "A.java" documents sampleText sample_plain
  · rw [renameFile_of_renameLines silently] at fails
    cases fails
  · rw [silently] at ran
    cases ran
    rw [renamed]
    decide +kernel

end Deobfuscate.Source.Renamer
