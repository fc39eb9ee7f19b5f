import Deobfuscate.Proofs.Text.Lines
import Mathlib.Data.List.Chain

/-!
# Cutting joined lines

Lines that are joined are cut apart again if each of them is the beginning of a
text that goes on with the next one: there is something of it, no line break is
inside it, and its terminator is not completed by what follows.
-/

namespace Deobfuscate.Text

def Line.IsWhole (line : Line) : Prop :=
  Unbroken line.content ∧ line.chars ≠ []

def Follows (line next : Line) : Prop :=
  line.terminator ≠ .endOfText ∧
    (line.terminator = .carriageReturn → next.chars.head? ≠ some '\n')

structure AreLines (lines : List Line) : Prop where
  whole : ∀ line ∈ lines, line.IsWhole
  follow : lines.IsChain Follows

theorem areLines_nil : AreLines [] :=
  ⟨by simp, .nil⟩

theorem areLines_cons {line : Line} {rest : List Line} :
    AreLines (line :: rest) ↔
      line.IsWhole ∧ (∀ next ∈ rest.head?, Follows line next) ∧
        AreLines rest := by
  constructor
  · rintro ⟨whole, follow⟩
    obtain ⟨first, later⟩ := List.forall_mem_cons.1 whole
    obtain ⟨next, chain⟩ := List.isChain_cons.1 follow
    exact ⟨first, next, later, chain⟩
  · rintro ⟨first, next, later, chain⟩
    exact ⟨List.forall_mem_cons.2 ⟨first, later⟩,
      List.isChain_cons.2 ⟨next, chain⟩⟩

/-- A line with something before its terminator. -/
structure Line.IsSolid (line : Line) : Prop where
  unbroken : Unbroken line.content
  filled : line.content ≠ []
  closed : line.terminator ≠ .endOfText

theorem Line.IsSolid.isWhole {line : Line} (solid : line.IsSolid) :
    line.IsWhole := by
  refine ⟨solid.unbroken, fun empty => solid.filled ?_⟩
  exact (List.append_eq_nil_iff.1 empty).1

/-- A line with some content stands behind every line that is closed. -/
theorem follows_of_content {line next : Line}
    (closed : line.terminator ≠ .endOfText) (unbroken : Unbroken next.content)
    (filled : next.content ≠ []) : Follows line next := by
  refine ⟨closed, fun _ feeds => ?_⟩
  rw [Line.chars, List.head?_append_of_ne_nil _ filled] at feeds
  exact unbroken.1 (List.mem_of_mem_head? feeds)

/-- Solid lines come before lines the first of which has some content. -/
theorem areLines_append {block rest : List Line}
    (solid : ∀ line ∈ block, line.IsSolid) (areLines : AreLines rest)
    (starts : block ≠ [] → ∀ next ∈ rest.head?, next.content ≠ []) :
    AreLines (block ++ rest) := by
  induction block with
  | nil => exact areLines
  | cons line block inductionHypothesis =>
      obtain ⟨first, later⟩ := List.forall_mem_cons.1 solid
      have startsRest := starts (List.cons_ne_nil _ _)
      refine areLines_cons.2 ⟨first.isWhole, fun next here => ?_,
        inductionHypothesis later fun _ => startsRest⟩
      cases block with
      | nil =>
          have whole := areLines.whole next (List.mem_of_mem_head? here)
          exact follows_of_content first.closed whole.1 (startsRest next here)
      | cons other block =>
          obtain rfl : other = next := Option.some.inj here
          have second := later other List.mem_cons_self
          exact follows_of_content first.closed second.unbroken second.filled

theorem splitLines_cons {char : Char} (rest : List Char)
    (notFeed : char ≠ '\n') (notReturn : char ≠ '\r') :
    splitLines (char :: rest) = consLine char (splitLines rest) :=
  splitLines.eq_5 _ _ (fun _ same _ => notReturn same) notReturn notFeed

/-- A text without a line break is one line. -/
theorem splitLines_open {content : List Char} (unbroken : Unbroken content)
    (filled : content ≠ []) :
    splitLines content = [⟨content, .endOfText⟩] := by
  induction content with
  | nil => exact absurd rfl filled
  | cons char content inductionHypothesis =>
      obtain ⟨notFeed, laterFeed⟩ := not_or.1 (mt List.mem_cons.2 unbroken.1)
      obtain ⟨notReturn, laterReturn⟩ :=
        not_or.1 (mt List.mem_cons.2 unbroken.2)
      rw [splitLines_cons _ (Ne.symm notFeed) (Ne.symm notReturn)]
      by_cases last : content = []
      · rw [last]
        rfl
      · rw [inductionHypothesis ⟨laterFeed, laterReturn⟩ last]
        rfl

/-- A line is cut off what follows it. -/
theorem splitLines_append {terminator : Terminator}
    (closed : terminator ≠ .endOfText) {content rest : List Char}
    (unbroken : Unbroken content)
    (apart : terminator = .carriageReturn → rest.head? ≠ some '\n') :
    splitLines (content ++ (terminator.chars ++ rest)) =
      ⟨content, terminator⟩ :: splitLines rest := by
  induction content with
  | nil =>
      cases terminator with
      | lineFeed => simp [Terminator.chars, splitLines]
      | carriageReturn =>
          have notPair : ∀ others, rest = '\n' :: others → False := by
            rintro others rfl
            exact apart rfl rfl
          simp [Terminator.chars, splitLines.eq_3 _ notPair]
      | carriageReturnLineFeed => simp [Terminator.chars, splitLines]
      | endOfText => exact absurd rfl closed
  | cons char content inductionHypothesis =>
      obtain ⟨notFeed, laterFeed⟩ := not_or.1 (mt List.mem_cons.2 unbroken.1)
      obtain ⟨notReturn, laterReturn⟩ :=
        not_or.1 (mt List.mem_cons.2 unbroken.2)
      rw [List.cons_append,
        splitLines_cons _ (Ne.symm notFeed) (Ne.symm notReturn),
        inductionHypothesis ⟨laterFeed, laterReturn⟩]
      rfl

theorem joinLines_cons (line : Line) (rest : List Line) :
    joinLines (line :: rest) =
      line.content ++ (line.terminator.chars ++ joinLines rest) := by
  simp [joinLines, Line.chars]

/-- A text starts as the first of its lines does. -/
theorem head?_joinLines {line : Line} (rest : List Line)
    (whole : line.IsWhole) :
    (joinLines (line :: rest)).head? = line.chars.head? := by
  rw [joinLines, List.flatMap_cons, List.head?_append_of_ne_nil _ whole.2]

/-- Joined lines are cut apart again. -/
theorem splitLines_joinLines {lines : List Line} (areLines : AreLines lines) :
    splitLines (joinLines lines) = lines := by
  induction lines with
  | nil => rfl
  | cons line rest inductionHypothesis =>
      obtain ⟨whole, follows, later⟩ := areLines_cons.1 areLines
      rw [joinLines_cons]
      by_cases closed : line.terminator = .endOfText
      · have last : rest = [] := by
          cases rest with
          | nil => rfl
          | cons next others => exact absurd closed (follows next rfl).1
        have filled : line.content ≠ [] := by
          have some := whole.2
          rwa [Line.chars, closed, Terminator.chars, List.append_nil] at some
        subst last
        rw [closed, Terminator.chars, joinLines, List.flatMap_nil,
          List.append_nil, List.append_nil, splitLines_open whole.1 filled,
          ← closed]
      · have apart : line.terminator = .carriageReturn →
            (joinLines rest).head? ≠ some '\n' := by
          intro returns
          cases rest with
          | nil => simp [joinLines]
          | cons next others =>
              have nextWhole := later.whole next List.mem_cons_self
              rw [head?_joinLines others nextWhole]
              exact (follows next rfl).2 returns
        rw [splitLines_append closed whole.1 apart, inductionHypothesis later]

theorem areLines_closed {terminator : Terminator} {rest : List Char}
    (closed : terminator ≠ .endOfText)
    (apart : terminator = .carriageReturn → rest.head? ≠ some '\n')
    (later : AreLines (splitLines rest)) :
    AreLines (⟨[], terminator⟩ :: splitLines rest) := by
  have nothing : Unbroken [] := ⟨List.not_mem_nil, List.not_mem_nil⟩
  have some : Line.chars ⟨[], terminator⟩ ≠ [] := by
    cases terminator <;> simp_all [Line.chars, Terminator.chars]
  refine areLines_cons.2 ⟨⟨nothing, some⟩, fun next first => ⟨closed, ?_⟩, later⟩
  intro returns starts
  obtain ⟨others, split⟩ : ∃ others, splitLines rest = next :: others :=
    List.head?_eq_some_iff.1 first
  have whole := later.whole next (by simp [split])
  have start := head?_joinLines others whole
  rw [← split, joinLines_splitLines, starts] at start
  exact apart returns start

theorem areLines_consLine {char : Char} {lines : List Line}
    (notFeed : char ≠ '\n') (notReturn : char ≠ '\r')
    (areLines : AreLines lines) : AreLines (consLine char lines) := by
  cases lines with
  | nil =>
      refine areLines_cons.2 ⟨⟨?_, ?_⟩, by simp, areLines_nil⟩
      · exact Unbroken.cons notFeed notReturn
          ⟨List.not_mem_nil, List.not_mem_nil⟩
      · simp [Line.chars]
  | cons line rest =>
      obtain ⟨whole, follows, later⟩ := areLines_cons.1 areLines
      refine areLines_cons.2 ⟨⟨whole.1.cons notFeed notReturn, ?_⟩, ?_, later⟩
      · simp [Line.chars]
      · exact follows

theorem areLines_splitLines (chars : List Char) :
    AreLines (splitLines chars) := by
  fun_induction splitLines chars with
  | case1 => exact areLines_nil
  | case2 rest inductionHypothesis =>
      exact areLines_closed (by decide) (by simp) inductionHypothesis
  | case3 rest notPair inductionHypothesis =>
      refine areLines_closed (by decide) (fun _ starts => ?_)
        inductionHypothesis
      obtain ⟨others, whole⟩ := List.head?_eq_some_iff.1 starts
      exact notPair others whole
  | case4 rest inductionHypothesis =>
      exact areLines_closed (by decide) (by simp) inductionHypothesis
  | case5 char rest notPair notReturn notFeed inductionHypothesis =>
      exact areLines_consLine notFeed notReturn inductionHypothesis

theorem firstTerminator_ne_endOfText (chars : List Char) :
    firstTerminator chars ≠ .endOfText := by
  rw [firstTerminator_eq]
  split
  · decide
  · split
    · decide
    · assumption

end Deobfuscate.Text
