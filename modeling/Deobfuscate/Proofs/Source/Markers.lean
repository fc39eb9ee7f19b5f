import Deobfuscate.Proofs.Source.Comments
import Deobfuscate.Proofs.Source.Declaration
import Deobfuscate.Proofs.Text.JoinedLines
import Deobfuscate.Proofs.Text.Search

/-!
# Marker lines

Where a documented method is declared, a marker can stand for its documentation.
A later pass finds the name behind the marker and puts the comment in its place,
with the indentation of the marker.
-/

namespace Deobfuscate.Source

open Deobfuscate.Text

/-- Names do not start everywhere. -/
theorem nameAt_eq_none {char : Char} {rest : List Char}
    (starts : char ≠ 'f' ∧ char ≠ 'p') : nameAt (char :: rest) = none := by
  have noMethod : ('f' = char) = False := by simp [Ne.symm starts.1]
  have noParameter : ('p' = char) = False := by simp [Ne.symm starts.2]
  simp [nameAt, stripStart, noMethod, noParameter]

theorem firstName_append {before : List Char} (rest : List Char)
    (nameless : ∀ char ∈ before, char ≠ 'f' ∧ char ≠ 'p') :
    firstName (before ++ rest) = firstName rest := by
  induction before with
  | nil => rfl
  | cons char before inductionHypothesis =>
      obtain ⟨first, later⟩ := List.forall_mem_cons.1 nameless
      rw [List.cons_append, firstName, nameAt_eq_none first,
        inductionHypothesis later]

theorem firstName_of_isName {kind : NameKind} {name : List Char}
    (isName : IsName kind name) :
    firstName name = some (kind, String.ofList name) := by
  have here : nameAt name = some (kind, name.length) :=
    nameAt_eq_some_iff.2 ⟨name, [], by simp, isName, rfl, rfl⟩
  obtain ⟨char, rest, rfl⟩ := List.exists_cons_of_ne_nil isName.ne_nil
  rw [firstName, here]
  dsimp only
  rw [List.take_length]

theorem isName_of_nameAt {kind : NameKind} {name : List Char}
    (whole : nameAt name = some (kind, name.length)) : IsName kind name := by
  obtain ⟨isName, sameLength⟩ := nameAt_eq_some_iff_run.1 whole
  rwa [(List.takeWhile_prefix isRunChar).eq_of_length sameLength.symm] at isName

namespace Renamer

def markerLine (indent : List Char) (name : String) : List Char :=
  indent ++ ("// DOCSTUB METHOD $$ ".toList ++ name.toList)

section Markers

variable {indent : List Char} (indented : IsIndent indent) (name : String)

include indented

theorem trimStartChars_markerLine :
    trimStartChars (markerLine indent name) =
      "// DOCSTUB METHOD $$ ".toList ++ name.toList :=
  trimStartChars_indented indented ⟨'/', _, rfl, by decide⟩

theorem isStub_markerLine : isStub (markerLine indent name) = true := by
  rw [isStub, trimStartChars_markerLine indented]
  simp [stubMarkers, startsWith]

theorem startsWith_return_markerLine :
    startsWith "return ".toList (trimStartChars (markerLine indent name)) =
      false := by
  rw [trimStartChars_markerLine indented]
  rfl

theorem methodOfLine_markerLine :
    methodOfLine (markerLine indent name) = none := by
  have cut : splitIndent (markerLine indent name) =
      some (indent, "// DOCSTUB METHOD $$ ".toList ++ name.toList) :=
    splitIndent_append indented ⟨'/', _, rfl, by decide⟩
  have noWord : ∀ rest, splitWords 0 [] ('/' :: rest) =
      (0, [], '/' :: rest) := by
    intro rest
    have outside : ¬ isTypeChar '/' = true := by decide
    simp [splitWords, outside]
  have shape : Shape.ofLine (markerLine indent name) =
      some ⟨indent, 0, [], "// DOCSTUB METHOD $$ ".toList ++ name.toList⟩ := by
    rw [Shape.ofLine, cut]
    simp only [Option.bind_eq_bind, Option.bind_some]
    rfl
  simp [methodOfLine, shape]

theorem firstName_markerLine (isName : IsName .method name.toList) :
    firstName (markerLine indent name) = some (.method, name) := by
  have marked : ∀ char ∈ "// DOCSTUB METHOD $$ ".toList,
      char ≠ 'f' ∧ char ≠ 'p' :=
    forall_mem_of_all (by decide)
  have nameless : ∀ char ∈ indent ++ "// DOCSTUB METHOD $$ ".toList,
      char ≠ 'f' ∧ char ≠ 'p' := by
    intro char member
    rcases List.mem_append.1 member with inIndent | inMark
    · have blank := indented.isBlank char inIndent
      constructor
      · rintro rfl
        exact absurd blank (by decide)
      · rintro rfl
        exact absurd blank (by decide)
    · exact marked char inMark
  rw [markerLine, ← List.append_assoc, firstName_append _ nameless,
    firstName_of_isName isName, String.ofList_toList]

/-- The indentation of the marker is found again. -/
theorem findPiece_markerLine :
    findPiece "// DOCSTUB".toList (markerLine indent name) =
      some (indent, " METHOD $$ ".toList ++ name.toList) := by
  have visible : '/' ∉ indent := indented.not_mem (by decide)
  have here : findPiece "// DOCSTUB".toList
      ("// DOCSTUB METHOD $$ ".toList ++ name.toList) =
        some ([], " METHOD $$ ".toList ++ name.toList) :=
    findPiece_self
  have behind : findPiece "// DOCSTUB".toList (markerLine indent name) =
      (findPiece "// DOCSTUB".toList
        ("// DOCSTUB METHOD $$ ".toList ++ name.toList)).map fun parts =>
          (indent ++ parts.1, parts.2) :=
    findPiece_append _ _ visible
  rw [behind, here, Option.map_some, List.append_nil]

/-- A marker is a line of its own, whatever stands around it. -/
theorem isSolid_markerLine (isName : IsName .method name.toList)
    {terminator : Terminator} (closed : terminator ≠ .endOfText) :
    Line.IsSolid ⟨markerLine indent name, terminator⟩ := by
  have indentUnbroken : Unbroken indent := by
    constructor
    · exact fun member => indented.eq_or_eq.elim
        (fun spaces => absurd (spaces _ member) (by decide))
        fun tabs => absurd (tabs _ member) (by decide)
    · exact fun member => indented.eq_or_eq.elim
        (fun spaces => absurd (spaces _ member) (by decide))
        fun tabs => absurd (tabs _ member) (by decide)
  have nameUnbroken : Unbroken name.toList := by
    constructor
    · exact fun member => absurd (isName.isRunChar _ member) (by decide)
    · exact fun member => absurd (isName.isRunChar _ member) (by decide)
  have marked : Unbroken "// DOCSTUB METHOD $$ ".toList := by decide
  exact ⟨indentUnbroken.append (marked.append nameUnbroken),
    by simp [markerLine], closed⟩

variable {renamer : Renamer} {documentation : String}

/-- The comment that the marker stands for is that of the method, indented as
the marker is. -/
theorem resolveStub_markerLine (isName : IsName .method name.toList)
    (documents : NameTable.documentation? renamer.tables.methods name =
      some documentation) :
    renamer.resolveStub (markerLine indent name) =
      some (javadoc indent documentation.toList true) := by
  have marked : stubMarkers.findSome? (fun marker =>
      findPiece marker (markerLine indent name)) =
        some (indent, " METHOD $$ ".toList ++ name.toList) := by
    rw [stubMarkers, List.findSome?_cons, findPiece_markerLine indented]
  rw [resolveStub, firstName_markerLine indented name isName, marked]
  simp [documentation?, documents]

def openComment (indent : List Char) (documentation : String) :
    List (List Char) :=
  (indent ++ "/**".toList) ::
    (documentationLines indent documentation.toList).map (commentLine indent)

/-- The last line of the comment for a method. -/
def endComment (indent : List Char) : List Char :=
  indent ++ " */".toList

omit indented in
theorem javadoc_method (documentation : String) :
    javadoc indent documentation.toList true =
      openComment indent documentation ++ [endComment indent] := by
  simp [javadoc, openComment, endComment]

theorem expandStub_markerLine (isName : IsName .method name.toList)
    (documents : NameTable.documentation? renamer.tables.methods name =
      some documentation) :
    renamer.expandStub (markerLine indent name) =
      { directlyAbove := openComment indent documentation
        line := endComment indent } := by
  rw [expandStub, resolveStub_markerLine indented name isName documents,
    javadoc_method]
  simp

/-- A pass that documents puts the comment in the place of the marker. -/
theorem declareLine_markerLine (documenting : renamer.mode ≠ .skip)
    (file : String) (number : Nat) :
    renamer.declareLine file number (markerLine indent name) =
      .ok (renamer.expandStub (markerLine indent name)) := by
  rw [declareLine, startsWith_return_markerLine indented, if_neg (by decide),
    methodOfLine_markerLine indented]
  dsimp only
  rw [if_pos ⟨documenting, isStub_markerLine indented name⟩]

theorem rename_endComment (renamer : Renamer) :
    renamer.rename (endComment indent) = endComment indent := by
  have separates : ∀ char ∈ endComment indent, isRunChar char = false := by
    intro char member
    rcases List.mem_append.1 member with inIndent | inMark
    · rcases indented.eq_or_eq with spaces | tabs
      · rw [spaces char inIndent]
        decide
      · rw [tabs char inIndent]
        decide
    · have mark : ∀ char ∈ " */".toList, isRunChar char = false :=
        forall_mem_of_all (by decide)
      exact mark char inMark
  have kept := replaceNames_separators renamer.humanName [] separates
  rw [List.append_nil] at kept
  simpa [rename, replaceNames] using kept

end Markers

end Renamer

end Deobfuscate.Source
