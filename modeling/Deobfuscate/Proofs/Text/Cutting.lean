import Deobfuscate.Patch.WorkingSet
import Deobfuscate.Proofs.Text.JoinedLines

/-!
# The cutting of a text

There is one list of lines that a text is cut into.  Every way to cut finds it:
`splitLines` from behind, `scanLines` in one pass from the left, `lineContents`
and the lines of a text file without the terminators.  The terminator that a text
starts to use is the one of its first line.

Lines that are taken out of a text and joined are not always cut apart again: a
carriage return and the line feed of an empty line behind it become one
terminator.  Nothing else is changed.
-/

namespace Deobfuscate.Text

open Deobfuscate.Patch

/-- Lines that a text is cut into: joined they give the text, no line has a line
break inside, a line that is left open is the last one and there is something of
it, and no carriage return is torn from a line feed behind it. -/
structure IsCutting (chars : List Char) (lines : List Line) : Prop where
  joined : joinLines lines = chars
  unbroken : ∀ line ∈ lines, Unbroken line.content
  filled : ∀ line ∈ lines, line.terminator = .endOfText → line.content ≠ []
  apart : lines.IsChain fun line next =>
    line.terminator ≠ .endOfText ∧
      (line.terminator = .carriageReturn → next ≠ ⟨[], .lineFeed⟩)

theorem Line.chars_ne_nil_iff {line : Line} :
    line.chars ≠ [] ↔ (line.terminator = .endOfText → line.content ≠ []) := by
  obtain ⟨content, terminator⟩ := line
  cases terminator <;> simp [Line.chars, Terminator.chars]

/-- Only an empty line closed by a line feed starts with one. -/
theorem Line.head?_chars_eq_lineFeed {line : Line}
    (unbroken : Unbroken line.content) :
    line.chars.head? = some '\n' ↔ line = ⟨[], .lineFeed⟩ := by
  obtain ⟨content, terminator⟩ := line
  cases content with
  | nil => cases terminator <;> simp [Line.chars, Terminator.chars]
  | cons char content =>
      have notFeed : char ≠ '\n' := by
        rintro rfl
        exact unbroken.1 List.mem_cons_self
      simp [Line.chars, notFeed]

theorem follows_iff {line next : Line} (unbroken : Unbroken next.content) :
    Follows line next ↔
      line.terminator ≠ .endOfText ∧
        (line.terminator = .carriageReturn → next ≠ ⟨[], .lineFeed⟩) := by
  simp only [Follows, ne_eq, Line.head?_chars_eq_lineFeed unbroken]

theorem areLines_iff {lines : List Line} :
    AreLines lines ↔ IsCutting (joinLines lines) lines := by
  constructor
  · rintro ⟨whole, follow⟩
    exact {
      joined := rfl
      unbroken := fun line member => (whole line member).1
      filled := fun line member => Line.chars_ne_nil_iff.1 (whole line member).2
      apart := follow.imp_of_mem_imp fun line next _ later =>
        (follows_iff (whole next later).1).1 }
  · rintro ⟨_, unbroken, filled, apart⟩
    exact {
      whole := fun line member =>
        ⟨unbroken line member, Line.chars_ne_nil_iff.2 (filled line member)⟩
      follow := apart.imp_of_mem_imp fun line next _ later =>
        (follows_iff (unbroken next later)).2 }

/-- A text is cut into the lines that `splitLines` finds and no others. -/
theorem isCutting_iff {chars : List Char} {lines : List Line} :
    IsCutting chars lines ↔ lines = splitLines chars := by
  constructor
  · intro cutting
    have areLines : AreLines lines :=
      areLines_iff.2 (cutting.joined.symm ▸ cutting)
    rw [← cutting.joined, splitLines_joinLines areLines]
  · rintro rfl
    have cutting := areLines_iff.1 (areLines_splitLines chars)
    rwa [joinLines_splitLines] at cutting

/-- The terminator of the first of some lines, or a line feed if there is
none. -/
def leadingTerminator : List Line → Terminator
  | [] => .lineFeed
  | line :: _ =>
      if line.terminator = .endOfText then .lineFeed else line.terminator

/-- Each way to cut a text finds the one list of lines there is, or their
contents, and the terminator that a text starts to use is the one of its first
line. -/
theorem cuttings_agree (text : String) :
    (∀ lines, IsCutting text.toList lines ↔ lines = splitLines text.toList) ∧
      scanLines text.toList = splitLines text.toList ∧
      lineContents text.toList =
        (splitLines text.toList).map Line.content ∧
      (TextFile.ofText text).lines =
        (splitLines text.toList).map (String.ofList ∘ Line.content) ∧
      firstTerminator text.toList =
        leadingTerminator (splitLines text.toList) ∧
      (TextFile.ofText text).terminator =
        leadingTerminator (splitLines text.toList) := by
  have contents := lineContents_eq_map text.toList
  have first : firstTerminator text.toList =
      leadingTerminator (splitLines text.toList) := by
    rw [firstTerminator_eq]
    rfl
  refine ⟨fun lines => isCutting_iff, scanLines_eq_splitLines _, contents, ?_,
    first, first⟩
  rw [TextFile.ofText, contents, List.map_map]

/-- Line breaks of all kinds, next to each other. -/
example : splitLines "a\r\r\nb\n\rc".toList =
    [⟨['a'], .carriageReturn⟩, ⟨[], .carriageReturnLineFeed⟩,
      ⟨['b'], .lineFeed⟩, ⟨[], .carriageReturn⟩, ⟨['c'], .endOfText⟩] := by
  decide

/-- Put carriage returns together with the line feeds of empty lines behind
them. -/
def mergeBreaks : List Line → List Line
  | ⟨content, .carriageReturn⟩ :: ⟨[], .lineFeed⟩ :: rest =>
      ⟨content, .carriageReturnLineFeed⟩ :: mergeBreaks rest
  | line :: rest => line :: mergeBreaks rest
  | [] => []

theorem joinLines_mergeBreaks (lines : List Line) :
    joinLines (mergeBreaks lines) = joinLines lines := by
  fun_induction mergeBreaks lines with
  | case1 content rest inductionHypothesis =>
      simp [joinLines_cons, Terminator.chars, inductionHypothesis]
  | case2 line rest notPair inductionHypothesis =>
      rw [joinLines_cons, joinLines_cons, inductionHypothesis]
  | case3 => rfl

/-- No empty line closed by a line feed is made by merging. -/
theorem head?_of_mergeBreaks {lines : List Line}
    (first : (mergeBreaks lines).head? = some ⟨[], .lineFeed⟩) :
    lines.head? = some ⟨[], .lineFeed⟩ := by
  fun_cases mergeBreaks lines with
  | case1 content rest => simp [mergeBreaks] at first
  | case2 line rest notPair => rwa [mergeBreaks.eq_2 _ _ notPair] at first
  | case3 => cases first

theorem areLines_mergeBreaks {lines : List Line}
    (whole : ∀ line ∈ lines, line.IsWhole) (closed : Closed lines) :
    AreLines (mergeBreaks lines) := by
  fun_induction mergeBreaks lines with
  | case1 content rest inductionHypothesis =>
      obtain ⟨first, _, later⟩ :
          Line.IsWhole ⟨content, .carriageReturn⟩ ∧
            Line.IsWhole ⟨[], .lineFeed⟩ ∧ ∀ line ∈ rest, line.IsWhole := by
        simpa using whole
      have closedRest : Closed rest :=
        (List.pairwise_cons.1 (List.pairwise_cons.1 closed).2).2
      refine areLines_cons.2 ⟨⟨first.1, by simp [Line.chars, Terminator.chars]⟩,
        fun next _ => ⟨by simp, by simp⟩,
        inductionHypothesis later closedRest⟩
  | case2 line rest notPair inductionHypothesis =>
      obtain ⟨first, later⟩ := List.forall_mem_cons.1 whole
      obtain ⟨terminated, closedRest⟩ := List.pairwise_cons.1 closed
      have areLines := inductionHypothesis later closedRest
      refine areLines_cons.2 ⟨first, fun next here => ⟨?_, ?_⟩, areLines⟩
      · cases rest with
        | nil => cases here
        | cons other rest => exact terminated other List.mem_cons_self
      · intro returns feeds
        have unbroken := (areLines.whole next (List.mem_of_mem_head? here)).1
        obtain rfl := (Line.head?_chars_eq_lineFeed unbroken).1 feeds
        -- The line feed was there before merging, so it would have been merged.
        obtain ⟨others, paired⟩ :=
          List.head?_eq_some_iff.1 (head?_of_mergeBreaks here)
        exact notPair line.content others (by rw [← returns]) paired
  | case3 => exact areLines_nil

/-- Lines of which only the last one is left open are cut apart again once line
breaks that have come together are merged. -/
theorem splitLines_joinLines_eq_mergeBreaks {lines : List Line}
    (whole : ∀ line ∈ lines, line.IsWhole) (closed : Closed lines) :
    splitLines (joinLines lines) = mergeBreaks lines := by
  rw [← joinLines_mergeBreaks,
    splitLines_joinLines (areLines_mergeBreaks whole closed)]

/-- Joined lines are cut apart again just if they are the lines of a text. -/
theorem splitLines_joinLines_iff {lines : List Line} :
    splitLines (joinLines lines) = lines ↔ AreLines lines := by
  constructor
  · intro apart
    rw [← apart]
    exact areLines_splitLines _
  · exact splitLines_joinLines

end Deobfuscate.Text
