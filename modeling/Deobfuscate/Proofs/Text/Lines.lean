import Deobfuscate.Text.Lines

/-!
# The lines of a text

`splitLines` is the plainest of the ways to cut a text into lines.  This module
describes the others through it: the cutting in one pass, the contents alone,
the terminator that a text starts to use and whether its last line is
terminated.

A text is uniform when all its terminated lines end in the same way.  A uniform
text is what its contents give when they are joined by that terminator.
-/

namespace Deobfuscate.Text

def prependReversed (current : List Char) (lines : List Line) : List Line :=
  current.foldl (fun lines char => consLine char lines) lines

@[simp]
theorem prependReversed_nothing (lines : List Line) :
    prependReversed [] lines = lines :=
  rfl

theorem prependReversed_cons (current : List Char) (line : Line)
    (lines : List Line) :
    prependReversed current (line :: lines) =
      ⟨current.reverse ++ line.content, line.terminator⟩ :: lines := by
  induction current generalizing line with
  | nil =>
      rfl
  | cons char rest inductionHypothesis =>
      have moved := inductionHypothesis ⟨char :: line.content, line.terminator⟩
      simpa [prependReversed, consLine] using moved

theorem prependReversed_nil (current : List Char) :
    prependReversed current [] =
      if current.isEmpty then [] else [⟨current.reverse, .endOfText⟩] := by
  cases current with
  | nil =>
      rfl
  | cons char rest =>
      have moved := prependReversed_cons rest ⟨[char], .endOfText⟩ []
      simpa [prependReversed, consLine] using moved

/-- Cutting in one pass is cutting the rest and putting the line under way in
front of it. -/
theorem scanLinesFrom_eq (current chars : List Char) :
    scanLinesFrom current chars =
      prependReversed current (splitLines chars) := by
  fun_induction scanLinesFrom current chars with
  | case1 current empty =>
      simp [splitLines, prependReversed_nil, empty]
  | case2 current nonempty =>
      simp [splitLines, prependReversed_nil, nonempty]
  | case3 current rest inductionHypothesis =>
      simp [splitLines, prependReversed_cons, inductionHypothesis]
  | case4 current rest notPair inductionHypothesis =>
      rw [splitLines.eq_3 _ notPair, prependReversed_cons]
      simp [inductionHypothesis]
  | case5 current rest inductionHypothesis =>
      simp [splitLines, prependReversed_cons, inductionHypothesis]
  | case6 current char rest notPair notReturn notFeed inductionHypothesis =>
      rw [inductionHypothesis, splitLines.eq_5 _ _ notPair notReturn notFeed]
      rfl

theorem scanLines_eq_splitLines (chars : List Char) :
    scanLines chars = splitLines chars := by
  rw [scanLines, scanLinesFrom_eq]
  rfl

theorem lineContentsFrom_eq_map (current chars : List Char) :
    lineContentsFrom current chars =
      (scanLinesFrom current chars).map Line.content := by
  fun_induction scanLinesFrom current chars with
  | case1 current empty =>
      simp [lineContentsFrom, empty]
  | case2 current nonempty =>
      simp [lineContentsFrom, nonempty]
  | case3 current rest inductionHypothesis =>
      simp [lineContentsFrom, inductionHypothesis]
  | case4 current rest notPair inductionHypothesis =>
      simp [lineContentsFrom, inductionHypothesis]
  | case5 current rest inductionHypothesis =>
      simp [lineContentsFrom, inductionHypothesis]
  | case6 current char rest notPair notReturn notFeed inductionHypothesis =>
      simp [lineContentsFrom, inductionHypothesis]

theorem lineContents_eq_map (chars : List Char) :
    lineContents chars = (splitLines chars).map Line.content := by
  rw [lineContents, lineContentsFrom_eq_map, ← scanLines_eq_splitLines]
  rfl

/-- Characters without a line break. -/
def Unbroken (chars : List Char) : Prop :=
  '\n' ∉ chars ∧ '\r' ∉ chars

instance (chars : List Char) : Decidable (Unbroken chars) :=
  inferInstanceAs (Decidable (_ ∧ _))

theorem Unbroken.cons {char : Char} {chars : List Char}
    (notFeed : char ≠ '\n') (notReturn : char ≠ '\r')
    (unbroken : Unbroken chars) : Unbroken (char :: chars) :=
  ⟨by simp [unbroken.1, Ne.symm notFeed],
    by simp [unbroken.2, Ne.symm notReturn]⟩

theorem Unbroken.reverse {chars : List Char} (unbroken : Unbroken chars) :
    Unbroken chars.reverse :=
  ⟨by simpa using unbroken.1, by simpa using unbroken.2⟩

/-- No line has a line break in it. -/
theorem unbroken_of_mem_lineContentsFrom {current chars line : List Char}
    (started : Unbroken current)
    (member : line ∈ lineContentsFrom current chars) : Unbroken line := by
  have nothing : Unbroken [] := ⟨List.not_mem_nil, List.not_mem_nil⟩
  fun_induction lineContentsFrom current chars with
  | case1 current empty => cases member
  | case2 current some =>
      rw [List.mem_singleton.1 member]
      exact started.reverse
  | case3 current rest inductionHypothesis =>
      rcases List.mem_cons.1 member with rfl | later
      · exact started.reverse
      · exact inductionHypothesis nothing later
  | case4 current rest notPair inductionHypothesis =>
      rcases List.mem_cons.1 member with rfl | later
      · exact started.reverse
      · exact inductionHypothesis nothing later
  | case5 current rest inductionHypothesis =>
      rcases List.mem_cons.1 member with rfl | later
      · exact started.reverse
      · exact inductionHypothesis nothing later
  | case6 current char rest notPair notReturn notFeed inductionHypothesis =>
      exact inductionHypothesis (started.cons notFeed notReturn) member

theorem unbroken_of_mem_lineContents {chars line : List Char}
    (member : line ∈ lineContents chars) : Unbroken line :=
  unbroken_of_mem_lineContentsFrom ⟨List.not_mem_nil, List.not_mem_nil⟩ member

theorem Unbroken.append {chars others : List Char} (first : Unbroken chars)
    (second : Unbroken others) : Unbroken (chars ++ others) :=
  ⟨by simp [first.1, second.1], by simp [first.2, second.2]⟩

/-- A character of a line is read as such. -/
theorem lineContentsFrom_cons {char : Char} (current rest : List Char)
    (notFeed : char ≠ '\n') (notReturn : char ≠ '\r') :
    lineContentsFrom current (char :: rest) =
      lineContentsFrom (char :: current) rest :=
  lineContentsFrom.eq_5 _ _ _ (fun _ same _ => notReturn same) notReturn notFeed

/-- The last line may be left open. -/
theorem lineContentsFrom_open (current : List Char) {line : List Char}
    (unbroken : Unbroken line) (some : current.reverse ++ line ≠ []) :
    lineContentsFrom current line = [current.reverse ++ line] := by
  induction line generalizing current with
  | nil =>
      have nonempty : current.isEmpty = false := by
        simpa using some
      simp [lineContentsFrom, nonempty]
  | cons char line inductionHypothesis =>
      obtain ⟨notFeed, laterFeed⟩ := not_or.1 (mt List.mem_cons.2 unbroken.1)
      obtain ⟨notReturn, laterReturn⟩ :=
        not_or.1 (mt List.mem_cons.2 unbroken.2)
      rw [lineContentsFrom_cons _ _ (Ne.symm notFeed) (Ne.symm notReturn),
        inductionHypothesis _ ⟨laterFeed, laterReturn⟩ (by simp)]
      simp

/-- A line is closed by its terminator.  A line feed behind a carriage return
would belong to it. -/
theorem lineContentsFrom_append {terminator : Terminator}
    (proper : terminator ≠ .endOfText) (current : List Char)
    {line rest : List Char} (unbroken : Unbroken line)
    (apart : terminator = .carriageReturn → rest.head? ≠ some '\n') :
    lineContentsFrom current (line ++ (terminator.chars ++ rest)) =
      (current.reverse ++ line) :: lineContentsFrom [] rest := by
  induction line generalizing current with
  | nil =>
      cases terminator with
      | lineFeed => simp [Terminator.chars, lineContentsFrom]
      | carriageReturn =>
          have notPair : ∀ others, rest = '\n' :: others → False := by
            rintro others rfl
            exact apart rfl rfl
          simp [Terminator.chars, lineContentsFrom.eq_3 _ _ notPair]
      | carriageReturnLineFeed => simp [Terminator.chars, lineContentsFrom]
      | endOfText => exact absurd rfl proper
  | cons char line inductionHypothesis =>
      obtain ⟨notFeed, laterFeed⟩ := not_or.1 (mt List.mem_cons.2 unbroken.1)
      obtain ⟨notReturn, laterReturn⟩ :=
        not_or.1 (mt List.mem_cons.2 unbroken.2)
      rw [List.cons_append,
        lineContentsFrom_cons _ _ (Ne.symm notFeed) (Ne.symm notReturn),
        inductionHypothesis _ ⟨laterFeed, laterReturn⟩]
      simp

/-- Only the last of some lines may be left open. -/
def Closed (lines : List Line) : Prop :=
  lines.Pairwise fun earlier _ => earlier.terminator ≠ .endOfText

instance (lines : List Line) : Decidable (Closed lines) :=
  inferInstanceAs (Decidable (lines.Pairwise _))

/-- Lines that were put together are read back. -/
theorem lineContents_joinLines {lines : List Line} (closed : Closed lines)
    (clear : ∀ line ∈ lines, line.content ≠ [] ∧ Unbroken line.content) :
    lineContents (joinLines lines) = lines.map Line.content := by
  unfold lineContents
  induction lines with
  | nil => rfl
  | cons line rest inductionHypothesis =>
      obtain ⟨some, unbroken⟩ := clear line List.mem_cons_self
      have later : ∀ line ∈ rest, line.content ≠ [] ∧ Unbroken line.content :=
        fun line member => clear line (List.mem_cons_of_mem _ member)
      obtain ⟨terminated, closedRest⟩ := List.pairwise_cons.1 closed
      have whole : joinLines (line :: rest) =
          line.content ++ (line.terminator.chars ++ joinLines rest) := by
        simp [joinLines, Line.chars]
      by_cases proper : line.terminator = .endOfText
      · have last : rest = [] := by
          cases rest with
          | nil => rfl
          | cons next others =>
              exact absurd proper (terminated next List.mem_cons_self)
        subst last
        rw [whole, proper]
        simpa [Terminator.chars, joinLines] using
          lineContentsFrom_open [] unbroken some
      · have apart : (joinLines rest).head? ≠ Option.some '\n' := by
          cases rest with
          | nil => simp [joinLines]
          | cons next others =>
              obtain ⟨written, unbrokenNext⟩ := later next List.mem_cons_self
              obtain ⟨char, chars, content⟩ := List.exists_cons_of_ne_nil written
              intro same
              have first : char = '\n' := by
                simpa [joinLines, Line.chars, content] using same
              exact unbrokenNext.1 (by simp [content, first])
        rw [whole,
          lineContentsFrom_append proper [] unbroken (fun _ => apart),
          inductionHypothesis closedRest later]
        rfl

theorem lineContents_lineFeed {line : List Char} (rest : List Char)
    (unbroken : Unbroken line) :
    lineContents (line ++ '\n' :: rest) = line :: lineContents rest := by
  have proper : Terminator.lineFeed ≠ .endOfText := by decide
  exact lineContentsFrom_append proper [] unbroken (by simp)

/-- Lines that are joined by line feeds are read back, but for an empty last
line that is left open. -/
theorem lineContents_intercalate (closed : Bool) :
    ∀ {lines : List (List Char)}, (∀ line ∈ lines, Unbroken line) →
      lineContents (['\n'].intercalate lines ++
          if closed && !lines.isEmpty then ['\n'] else []) =
        if closed = false ∧ lines.getLast? = some [] then lines.dropLast
        else lines
  | [], _ => by simp [lineContents, lineContentsFrom]
  | [line], unbroken => by
      have clear : Unbroken line := unbroken line List.mem_cons_self
      cases closed with
      | true =>
          simpa [lineContents, lineContentsFrom] using
            lineContents_lineFeed [] clear
      | false =>
          by_cases empty : line = []
          · simp [empty, lineContents, lineContentsFrom]
          · simpa [empty, lineContents] using
              lineContentsFrom_open [] clear (by simpa using empty)
  | line :: next :: rest, unbroken => by
      have clear : ∀ other ∈ next :: rest, Unbroken other :=
        fun other member => unbroken other (List.mem_cons_of_mem _ member)
      have later := lineContents_intercalate closed clear
      have first : ['\n'].intercalate (line :: next :: rest) =
          line ++ '\n' :: ['\n'].intercalate (next :: rest) := by
        simp [List.intercalate]
      have read := lineContents_lineFeed (['\n'].intercalate (next :: rest) ++
          if closed && !(next :: rest).isEmpty then ['\n'] else [])
        (unbroken line List.mem_cons_self)
      simp only [List.isEmpty_cons] at later read ⊢
      rw [first, List.append_assoc, List.cons_append, read, later]
      split <;> simp_all

/-! ## Shape of the lines -/

/-- Only the last line of a text is left open. -/
theorem closed_splitLines (chars : List Char) : Closed (splitLines chars) := by
  fun_induction splitLines chars with
  | case1 =>
      exact List.Pairwise.nil
  | case2 rest inductionHypothesis =>
      exact List.pairwise_cons.2 ⟨fun _ _ => by simp, inductionHypothesis⟩
  | case3 rest _ inductionHypothesis =>
      exact List.pairwise_cons.2 ⟨fun _ _ => by simp, inductionHypothesis⟩
  | case4 rest inductionHypothesis =>
      exact List.pairwise_cons.2 ⟨fun _ _ => by simp, inductionHypothesis⟩
  | case5 char rest _ _ _ inductionHypothesis =>
      cases split : splitLines rest with
      | nil =>
          exact List.pairwise_singleton _ _
      | cons line lines =>
          rw [split] at inductionHypothesis
          obtain ⟨terminated, later⟩ :=
            List.pairwise_cons.1 inductionHypothesis
          exact List.pairwise_cons.2 ⟨terminated, later⟩

/-- Every line of a text has a character, be it that of its terminator. -/
theorem length_splitLines_le (chars : List Char) :
    (splitLines chars).length ≤ chars.length := by
  fun_induction splitLines chars with
  | case1 =>
      exact Nat.le_refl 0
  | case2 rest inductionHypothesis =>
      simp only [List.length_cons]
      omega
  | case3 rest _ inductionHypothesis =>
      simpa using inductionHypothesis
  | case4 rest inductionHypothesis =>
      simpa using inductionHypothesis
  | case5 char rest _ _ _ inductionHypothesis =>
      cases split : splitLines rest with
      | nil =>
          simp [consLine]
      | cons line lines =>
          rw [split] at inductionHypothesis
          simp only [consLine, List.length_cons] at inductionHypothesis ⊢
          omega

/-- A text starts to use the terminator of its first line, or line feeds if that
line is left open. -/
theorem firstTerminator_eq (chars : List Char) :
    firstTerminator chars =
      match splitLines chars with
      | [] => .lineFeed
      | line :: _ =>
          if line.terminator = .endOfText then .lineFeed
          else line.terminator := by
  fun_induction splitLines chars with
  | case1 =>
      rfl
  | case2 rest _ =>
      simp [firstTerminator]
  | case3 rest notPair _ =>
      simp [firstTerminator]
  | case4 rest _ =>
      simp [firstTerminator]
  | case5 char rest notPair notReturn notFeed inductionHypothesis =>
      rw [firstTerminator.eq_5 _ _ notPair notReturn notFeed,
        inductionHypothesis]
      cases splitLines rest with
      | nil => simp [consLine]
      | cons line lines => rfl

theorem endsClosed_cons_cons (first second : Char) (rest : List Char) :
    endsClosed (first :: second :: rest) = endsClosed (second :: rest) := by
  simp [endsClosed]

theorem endsClosed_cons_terminator {char : Char}
    (closes : char = '\n' ∨ char = '\r') (rest : List Char) :
    endsClosed (char :: rest) = endsClosed rest := by
  cases rest with
  | nil => rcases closes with rfl | rfl <;> rfl
  | cons next others => exact endsClosed_cons_cons char next others

/-- A text ends closed when none of its lines is open. -/
theorem endsClosed_eq (chars : List Char) :
    endsClosed chars =
      (splitLines chars).all fun line => line.terminator != .endOfText := by
  fun_induction splitLines chars with
  | case1 =>
      rfl
  | case2 rest inductionHypothesis =>
      rw [endsClosed_cons_terminator (Or.inr rfl),
        endsClosed_cons_terminator (Or.inl rfl), inductionHypothesis]
      rfl
  | case3 rest _ inductionHypothesis =>
      rw [endsClosed_cons_terminator (Or.inr rfl), inductionHypothesis]
      rfl
  | case4 rest inductionHypothesis =>
      rw [endsClosed_cons_terminator (Or.inl rfl), inductionHypothesis]
      rfl
  | case5 char rest _ notReturn notFeed inductionHypothesis =>
      cases rest with
      | nil =>
          simpa [endsClosed, splitLines, consLine] using
            ⟨notFeed, notReturn⟩
      | cons next rest =>
          rw [endsClosed_cons_cons, inductionHypothesis]
          have nonempty : splitLines (next :: rest) ≠ [] := by
            intro empty
            have joined := joinLines_splitLines (next :: rest)
            rw [empty] at joined
            cases joined
          cases split : splitLines (next :: rest) with
          | nil => exact absurd split nonempty
          | cons line lines => rfl

def Uniform (terminator : Terminator) (chars : List Char) : Prop :=
  ∀ line ∈ splitLines chars,
    line.terminator = terminator ∨ line.terminator = .endOfText

instance (terminator : Terminator) (chars : List Char) :
    Decidable (Uniform terminator chars) :=
  inferInstanceAs (Decidable (∀ line ∈ splitLines chars, _))

def UsesTerminator (terminator : Terminator) (chars : List Char) : Prop :=
  ∃ line ∈ splitLines chars, line.terminator = terminator

instance (terminator : Terminator) (chars : List Char) :
    Decidable (UsesTerminator terminator chars) :=
  inferInstanceAs (Decidable (∃ line ∈ splitLines chars, _))

/-- A uniform text starts to use its terminator.  Only line feeds are found
where no line is terminated. -/
theorem firstTerminator_of_uniform {terminator : Terminator}
    {chars : List Char} (proper : terminator ≠ .endOfText)
    (uniform : Uniform terminator chars)
    (used : terminator = .lineFeed ∨ UsesTerminator terminator chars) :
    firstTerminator chars = terminator := by
  rw [firstTerminator_eq]
  have openLast := closed_splitLines chars
  unfold Uniform at uniform
  unfold UsesTerminator at used
  cases split : splitLines chars with
  | nil =>
      rw [split] at used
      rcases used with feed | ⟨line, member, _⟩
      · exact feed.symm
      · cases member
  | cons first rest =>
      rw [split] at uniform used openLast
      rcases uniform first (by simp) with same | isOpen
      · rw [← same] at proper ⊢
        simp [proper]
      · -- An open line is the last one, so no line uses the terminator.
        have last : rest = [] := by
          cases rest with
          | nil => rfl
          | cons next _ =>
              exact absurd isOpen ((List.pairwise_cons.1 openLast).1 next (by simp))
        subst last
        rcases used with feed | ⟨line, member, ends⟩
        · simp [isOpen, feed]
        · rw [List.mem_singleton.1 member, isOpen] at ends
          exact absurd ends.symm proper

/-- Lines that end in the same way, but for an open last one, are their contents
joined by the terminator. -/
theorem joinLines_of_uniform {terminator : Terminator} :
    ∀ {lines : List Line},
      (∀ line ∈ lines,
        line.terminator = terminator ∨ line.terminator = .endOfText) →
      Closed lines →
      joinLines lines =
        terminator.chars.intercalate (lines.map Line.content) ++
          if (lines.all fun line => line.terminator != .endOfText) &&
              !lines.isEmpty
          then terminator.chars else []
  | [], _, _ => rfl
  | [line], uniform, _ => by
      by_cases isOpen : line.terminator = .endOfText
      · simp [joinLines, Line.chars, isOpen, Terminator.chars]
      · have same : line.terminator = terminator :=
          (uniform line (by simp)).resolve_right isOpen
        rw [same] at isOpen
        simp [joinLines, Line.chars, same, isOpen]
  | line :: next :: rest, uniform, openLast => by
      obtain ⟨terminated, laterOpenLast⟩ := List.pairwise_cons.1 openLast
      have closed : line.terminator ≠ .endOfText := terminated next (by simp)
      have same : line.terminator = terminator :=
        (uniform line (by simp)).resolve_right closed
      have later := joinLines_of_uniform
        (fun other member => uniform other (List.mem_cons_of_mem _ member))
        laterOpenLast
      have unfolded : joinLines (line :: next :: rest) =
          line.content ++ terminator.chars ++ joinLines (next :: rest) := by
        simp [joinLines, Line.chars, same]
      rw [unfolded, later]
      simp [List.intercalate, closed]

/-- A uniform text is its contents joined by its terminator, with one more at
the end if it ends closed. -/
theorem eq_intercalate_of_uniform {terminator : Terminator}
    {chars : List Char} (uniform : Uniform terminator chars) :
    chars =
      terminator.chars.intercalate (lineContents chars) ++
        if endsClosed chars && !(lineContents chars).isEmpty
        then terminator.chars else [] := by
  have joined := joinLines_of_uniform uniform (closed_splitLines chars)
  rw [joinLines_splitLines] at joined
  rw [lineContents_eq_map, endsClosed_eq]
  simpa using joined

end Deobfuscate.Text
