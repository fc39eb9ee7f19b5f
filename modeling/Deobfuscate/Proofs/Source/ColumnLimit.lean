import Deobfuscate.Proofs.Source.Wrapping

/-!
# The width of documentation comments

Documentation is wrapped so that a line of a comment block stays within the
column limit, its indentation and its marker included.  The one-line layout has
longer markers than a line of a block has, so a comment in that layout stays
within the limit only if its text leaves room for them.
-/

namespace Deobfuscate.Source

open Deobfuscate.Text

/-- A text has at least as many bytes as characters. -/
theorem length_le_utf8ByteSize (chars : List Char) :
    chars.length ≤ (String.ofList chars).utf8ByteSize := by
  induction chars with
  | nil => simp
  | cons char rest inductionHypothesis =>
      have positive := Char.utf8Size_pos char
      have split : String.ofList (char :: rest) =
          String.singleton char ++ String.ofList rest := by
        simp
      rw [split, String.utf8ByteSize_append, String.utf8ByteSize_singleton,
        List.length_cons]
      omega

section Layout

variable {indent text : List Char}

/-- A documentation text that fits: none of its chunks is wider than what the
indentation and the marker leave of a line. -/
def Fits (indent text : List Char) : Prop :=
  ∀ piece ∈ splitEscapedBreaks text, ∀ chunk ∈ chunks piece,
    chunk.length ≤ javadocWidth - indent.length - 3

instance : Decidable (Fits indent text) :=
  inferInstanceAs (Decidable (∀ piece ∈ splitEscapedBreaks text,
    ∀ chunk ∈ chunks piece, chunk.length ≤ javadocWidth - indent.length - 3))

variable (narrow : (String.ofList indent).utf8ByteSize < 117)

include narrow

theorem length_documentationLine (fits : Fits indent text) {line : List Char}
    (member : line ∈ documentationLines indent text) :
    indent.length + 3 + line.length ≤ javadocWidth := by
  have bytes := length_le_utf8ByteSize indent
  have positive :
      0 < javadocWidth - ((String.ofList indent).utf8ByteSize + 3) := by
    unfold javadocWidth
    omega
  obtain ⟨piece, inText, wrapped⟩ := List.mem_flatMap.1 member
  obtain within | ⟨chunk, inPiece, rfl⟩ :=
    within_or_chunk_of_mem_wrap positive piece wrapped
  · unfold javadocWidth at within ⊢
    omega
  · have bounded := fits piece inText chunk inPiece
    have trimmed := length_trimChars_le chunk
    unfold javadocWidth at bounded ⊢
    omega

omit narrow in
theorem length_commentLine_le (line : List Char) :
    (commentLine indent line).length ≤ indent.length + 3 + line.length := by
  unfold commentLine
  split <;> simp <;> omega

/-- A comment block stays within the limit. -/
theorem length_block_le (fits : Fits indent text) :
    ∀ line ∈ (indent ++ "/**".toList) ::
        ((documentationLines indent text).map (commentLine indent) ++
          [indent ++ " */".toList]),
      line.length ≤ javadocWidth := by
  have bytes := length_le_utf8ByteSize indent
  have marker : indent.length + 3 ≤ javadocWidth := by
    unfold javadocWidth
    omega
  intro line member
  obtain rfl | member := List.mem_cons.1 member
  · simpa using marker
  · obtain between | last := List.mem_append.1 member
    · obtain ⟨documentation, listed, rfl⟩ := List.mem_map.1 between
      exact (length_commentLine_le documentation).trans
        (length_documentationLine narrow fits listed)
    · rw [List.mem_singleton.1 last]
      simpa using marker

end Layout

/-- A comment stays within the column limit just if it is a block, as that of a
method or of a text of several lines, or its text leaves room for the markers of
the one-line layout. -/
theorem javadoc_within_iff {indent text : List Char}
    (narrow : (String.ofList indent).utf8ByteSize < 117)
    (fits : Fits indent text) (isMethod : Bool) :
    (∀ line ∈ javadoc indent text isMethod, line.length ≤ javadocWidth) ↔
      isMethod = true ∨ 1 < (documentationLines indent text).length ∨
        indent.length + text.length + 7 ≤ javadocWidth := by
  unfold javadoc
  dsimp only
  by_cases block : 1 < (documentationLines indent text).length ∨
      isMethod = true
  · have isBlock : (decide (1 < (documentationLines indent text).length) ||
        isMethod) = true := by
      simpa using block
    rw [if_pos isBlock]
    constructor
    · intro _
      exact block.elim (fun several => .inr (.inl several)) .inl
    · intro _
      exact length_block_le narrow fits
  · have noBlock : ¬(decide (1 < (documentationLines indent text).length) ||
        isMethod) = true := by
      simpa using block
    have total : (indent ++ "/** ".toList ++ text ++ " */".toList).length =
        indent.length + text.length + 7 := by
      simp
      omega
    obtain ⟨notSeveral, notMethod⟩ := not_or.1 block
    rw [if_neg noBlock, List.forall_mem_singleton, total]
    simp [notSeveral, notMethod]

/-- A long text of a field is wrapped. -/
theorem javadoc_within_iff_wrapped :
    let indent := "        ".toList
    let text := (List.replicate 60 "word ".toList).flatten
    (String.ofList indent).utf8ByteSize < 117 ∧ Fits indent text ∧
      ∀ line ∈ javadoc indent text false, line.length ≤ javadocWidth := by
  intro indent text
  have narrow : (String.ofList indent).utf8ByteSize < 117 := by decide
  have fits : Fits indent text := by decide +kernel
  have several : 1 < (documentationLines indent text).length := by
    decide +kernel
  exact ⟨narrow, fits,
    (javadoc_within_iff narrow fits false).2 (.inr (.inl several))⟩

/-- A text of a field that fits on a line of a block is too wide for the one-line
layout it gets. -/
theorem field_comment_too_wide :
    let indent := "    ".toList
    let text := ("Returns the distance between this entity and the given " ++
      "point, measured along the ground and ignoring the height.").toList
    (String.ofList indent).utf8ByteSize < 117 ∧ Fits indent text ∧
      ∃ line ∈ javadoc indent text false, javadocWidth < line.length := by
  decide +kernel

end Deobfuscate.Source
