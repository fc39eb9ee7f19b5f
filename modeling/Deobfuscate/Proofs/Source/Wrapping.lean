import Deobfuscate.Source.Javadoc
import Mathlib.Data.List.Chain
import Mathlib.Data.List.DropRight

/-!
# Wrapping documentation

A text is cut into chunks, each of which ends where a line may be broken.
Wrapping puts consecutive chunks together as long as they fit, so that a line is
broken only where the next chunk would not fit and is too long only if it is a
single chunk.  Nothing but blanks gets lost.
-/

namespace Deobfuscate.Source

open Deobfuscate.Text

/-- A text is cut after each character where a line may be broken, and nowhere
else. -/
structure IsChunked (text : List Char) (pieces : List (List Char)) : Prop where
  whole : pieces.flatten = text
  filled : ∀ piece ∈ pieces, piece ≠ []
  uncut : ∀ piece ∈ pieces, ∀ char ∈ piece.dropLast, isBreak char = false
  broken : pieces.IsChain fun piece _ => ∀ char ∈ piece.getLast?,
    isBreak char = true

section Chunks

variable {char : Char} {text chunk : List Char} {pieces : List (List Char)}

theorem IsChunked.tail (chunked : IsChunked text (chunk :: pieces)) :
    IsChunked pieces.flatten pieces where
  whole := rfl
  filled other member := chunked.filled other (List.mem_cons_of_mem _ member)
  uncut other member := chunked.uncut other (List.mem_cons_of_mem _ member)
  broken := chunked.broken.tail

/-- A character where a line may be broken is a chunk. -/
theorem IsChunked.cons_break (chunked : IsChunked text pieces)
    (isBroken : isBreak char = true) :
    IsChunked (char :: text) ([char] :: pieces) where
  whole := by rw [List.flatten_cons, chunked.whole, List.singleton_append]
  filled := List.forall_mem_cons.2 ⟨by simp, chunked.filled⟩
  uncut := List.forall_mem_cons.2 ⟨by simp, chunked.uncut⟩
  broken := List.isChain_cons.2
    ⟨fun _ _ last ends => Option.some.inj ends ▸ isBroken, chunked.broken⟩

/-- Any other character starts the chunk that follows. -/
theorem IsChunked.cons_first (chunked : IsChunked text (chunk :: pieces))
    (notBroken : isBreak char = false) :
    IsChunked (char :: text) ((char :: chunk) :: pieces) := by
  obtain ⟨whole, filled, uncut, broken⟩ := chunked
  obtain ⟨firstFilled, laterFilled⟩ := List.forall_mem_cons.1 filled
  obtain ⟨firstUncut, laterUncut⟩ := List.forall_mem_cons.1 uncut
  obtain ⟨firstBroken, laterBroken⟩ := List.isChain_cons.1 broken
  refine ⟨?_, ?_, ?_, ?_⟩
  · rw [← whole, List.flatten_cons, List.flatten_cons, List.cons_append]
  · exact List.forall_mem_cons.2 ⟨List.cons_ne_nil _ _, laterFilled⟩
  · refine List.forall_mem_cons.2 ⟨?_, laterUncut⟩
    rw [List.dropLast_cons_of_ne_nil firstFilled]
    exact List.forall_mem_cons.2 ⟨notBroken, firstUncut⟩
  · refine List.isChain_cons.2 ⟨?_, laterBroken⟩
    rwa [List.getLast?_cons_of_ne_nil firstFilled]

theorem chunks_ne_nil (filled : text ≠ []) : chunks text ≠ [] := by
  obtain ⟨char, rest, rfl⟩ := List.exists_cons_of_ne_nil filled
  rw [chunks]
  split
  · simp
  · split <;> simp

theorem isChunked_chunks (text : List Char) : IsChunked text (chunks text) := by
  induction text with
  | nil => exact ⟨rfl, by simp [chunks], by simp [chunks], by simp [chunks]⟩
  | cons char rest inductionHypothesis =>
      rw [chunks]
      split
      · rename_i isBroken
        exact inductionHypothesis.cons_break isBroken
      · rename_i notBroken
        cases later : chunks rest with
        | nil =>
            have empty : rest = [] := by
              by_contra filled
              exact chunks_ne_nil filled later
            exact ⟨by simp [empty], by simp, by simp, by simp⟩
        | cons chunk more =>
            rw [later] at inductionHypothesis
            exact inductionHypothesis.cons_first (by simpa using notBroken)

/-- What ends where a line may be broken, or with the text, is a chunk. -/
theorem chunks_append {rest : List Char} (filled : chunk ≠ [])
    (uncut : ∀ char ∈ chunk.dropLast, isBreak char = false)
    (ends : rest = [] ∨ ∀ char ∈ chunk.getLast?, isBreak char = true) :
    chunks (chunk ++ rest) = chunk :: chunks rest := by
  induction chunk with
  | nil => exact absurd rfl filled
  | cons char chunk inductionHypothesis =>
      cases chunk with
      | nil =>
          by_cases isBroken : isBreak char = true
          · simp [chunks, isBroken]
          · have last : rest = [] :=
              ends.resolve_right fun breaks => isBroken (breaks char rfl)
            simp [chunks, isBroken, last]
      | cons next chunk =>
          rw [List.dropLast_cons_cons] at uncut
          obtain ⟨first, later⟩ := List.forall_mem_cons.1 uncut
          rw [List.getLast?_cons_cons] at ends
          have rested := inductionHypothesis (by simp) later ends
          rw [List.cons_append, chunks, rested]
          simp [first]

/-- There is only one way to cut a text. -/
theorem IsChunked.eq_chunks (chunked : IsChunked text pieces) :
    pieces = chunks text := by
  induction pieces generalizing text with
  | nil =>
      rw [← chunked.whole]
      rfl
  | cons piece pieces inductionHypothesis =>
      have ends : pieces.flatten = [] ∨
          ∀ char ∈ piece.getLast?, isBreak char = true := by
        cases pieces with
        | nil => exact .inl rfl
        | cons next others =>
            exact .inr (List.isChain_cons_cons.1 chunked.broken).1
      have cut := chunks_append (chunked.filled piece List.mem_cons_self)
        (chunked.uncut piece List.mem_cons_self) ends
      rw [← chunked.whole, List.flatten_cons, cut,
        ← inductionHypothesis chunked.tail]

end Chunks

/-- What is left of a text without its blanks. -/
def visible (chars : List Char) : List Char :=
  chars.filter fun char => !isBlank char

theorem visible_append (first second : List Char) :
    visible (first ++ second) = visible first ++ visible second :=
  List.filter_append ..

theorem visible_trimStartChars (chars : List Char) :
    visible (trimStartChars chars) = visible chars := by
  induction chars with
  | nil => rfl
  | cons char rest inductionHypothesis =>
      rw [trimStartChars, List.dropWhile_cons]
      split
      · rename_i blank
        rw [← trimStartChars, inductionHypothesis]
        simp [visible, blank]
      · rfl

theorem visible_trimEndChars (chars : List Char) :
    visible (trimEndChars chars) = visible chars := by
  have backward := congrArg List.reverse (visible_trimStartChars chars.reverse)
  simpa [visible, trimEndChars, trimStartChars, List.filter_reverse]
    using backward

theorem visible_trimChars (chars : List Char) :
    visible (trimChars chars) = visible chars := by
  rw [trimChars, visible_trimEndChars, visible_trimStartChars]

theorem length_trimChars_le (chars : List Char) :
    (trimChars chars).length ≤ chars.length := by
  have atEnd : (trimChars chars).length ≤ (trimStartChars chars).length := by
    simpa [trimChars, trimEndChars] using
      (List.dropWhile_suffix isBlank
        (l := (trimStartChars chars).reverse)).length_le
  have atStart : (trimStartChars chars).length ≤ chars.length :=
    (List.dropWhile_suffix isBlank).length_le
  omega

/-- A blank at the end does not count. -/
theorem trimChars_concat_blank (chars : List Char) {char : Char}
    (blank : isBlank char = true) :
    trimChars (chars ++ [char]) = trimChars chars := by
  unfold trimChars trimStartChars
  rw [List.dropWhile_append]
  split
  · rename_i nothing
    simp [trimEndChars, blank, List.isEmpty_iff.1 nothing]
  · simp [trimEndChars, blank]

/-- A line needs no more room than its characters without a space at their
end. -/
theorem length_trimChars_le_chunkWidth (chars : List Char) :
    (trimChars chars).length ≤ chunkWidth chars := by
  unfold chunkWidth
  split
  · rename_i spaced
    obtain ⟨start, rfl⟩ := List.getLast?_eq_some_iff.1 spaced
    rw [trimChars_concat_blank start (by decide)]
    simpa using length_trimChars_le start
  · exact length_trimChars_le chars

/-! ## Groups of chunks -/

/-- Chunks are put together to groups in order.  A group is too wide only if it
is a single chunk, and it ends only where the first chunk of the next group
would not fit. -/
structure IsFilling (width : Nat) (pieces : List (List Char))
    (groups : List (List (List Char))) : Prop where
  whole : groups.flatten = pieces
  filled : ∀ group ∈ groups, group ≠ []
  fits : ∀ group ∈ groups, group.length = 1 ∨ chunkWidth group.flatten ≤ width
  full : groups.IsChain fun group next => ∀ chunk ∈ next.head?,
    width < group.flatten.length + chunkWidth chunk

/-- The groups that chunks are put into, the first of which has been started. -/
def fillGroups (width : Nat) (group : List (List Char)) :
    List (List Char) → List (List (List Char))
  | [] => [group]
  | chunk :: rest =>
      if width < group.flatten.length + chunkWidth chunk then
        group :: fillGroups width [chunk] rest
      else fillGroups width (group ++ [chunk]) rest

section Groups

variable {width : Nat} {group : List (List Char)} {pieces : List (List Char)}

theorem fillLines_eq :
    fillLines width group.flatten pieces =
      (fillGroups width group pieces).flatMap fun group =>
        finishedLine group.flatten := by
  induction pieces generalizing group with
  | nil => simp [fillLines, fillGroups]
  | cons chunk rest inductionHypothesis =>
      have alone := @inductionHypothesis [chunk]
      have together := @inductionHypothesis (group ++ [chunk])
      rw [List.flatten_singleton] at alone
      rw [List.flatten_append, List.flatten_singleton] at together
      rw [fillLines, fillGroups]
      split
      · rw [alone, List.flatMap_cons]
      · exact together

theorem flatten_fillGroups :
    (fillGroups width group pieces).flatten = group ++ pieces := by
  induction pieces generalizing group with
  | nil => simp [fillGroups]
  | cons chunk rest inductionHypothesis =>
      rw [fillGroups]
      split <;> simp [inductionHypothesis]

theorem ne_nil_of_mem_fillGroups (started : group ≠ []) :
    ∀ other ∈ fillGroups width group pieces, other ≠ [] := by
  induction pieces generalizing group with
  | nil => simpa [fillGroups] using started
  | cons chunk rest inductionHypothesis =>
      rw [fillGroups]
      split
      · exact List.forall_mem_cons.2
          ⟨started, inductionHypothesis (List.cons_ne_nil _ _)⟩
      · exact inductionHypothesis (by simp)

theorem chunkWidth_append {chars chunk : List Char} (filled : chunk ≠ []) :
    chunkWidth (chars ++ chunk) = chars.length + chunkWidth chunk := by
  have positive : 0 < chunk.length := List.length_pos_iff.2 filled
  unfold chunkWidth
  rw [List.getLast?_append_of_ne_nil _ filled, List.length_append]
  split <;> omega

theorem fits_fillGroups
    (fits : group.length = 1 ∨ chunkWidth group.flatten ≤ width)
    (filled : ∀ piece ∈ pieces, piece ≠ []) :
    ∀ other ∈ fillGroups width group pieces,
      other.length = 1 ∨ chunkWidth other.flatten ≤ width := by
  induction pieces generalizing group with
  | nil => simpa [fillGroups] using fits
  | cons chunk rest inductionHypothesis =>
      obtain ⟨first, later⟩ := List.forall_mem_cons.1 filled
      rw [fillGroups]
      split
      · exact List.forall_mem_cons.2
          ⟨fits, inductionHypothesis (.inl rfl) later⟩
      · rename_i roomy
        refine inductionHypothesis (.inr ?_) later
        rw [List.flatten_append, List.flatten_singleton, chunkWidth_append first]
        omega

/-- The group under way only gets longer. -/
theorem exists_fillGroups_eq_cons :
    ∃ more others, fillGroups width group pieces = (group ++ more) :: others := by
  induction pieces generalizing group with
  | nil => exact ⟨[], [], by simp [fillGroups]⟩
  | cons chunk rest inductionHypothesis =>
      rw [fillGroups]
      split
      · exact ⟨[], _, by rw [List.append_nil]⟩
      · obtain ⟨more, others, whole⟩ := @inductionHypothesis (group ++ [chunk])
        exact ⟨chunk :: more, others, by rw [whole]; simp⟩

theorem full_fillGroups :
    (fillGroups width group pieces).IsChain fun group next =>
      ∀ chunk ∈ next.head?,
        width < group.flatten.length + chunkWidth chunk := by
  induction pieces generalizing group with
  | nil => simp [fillGroups]
  | cons chunk rest inductionHypothesis =>
      rw [fillGroups]
      split
      · rename_i overfull
        obtain ⟨more, others, whole⟩ :=
          @exists_fillGroups_eq_cons width [chunk] rest
        have later := @inductionHypothesis [chunk]
        rw [whole] at later ⊢
        refine List.isChain_cons_cons.2 ⟨?_, later⟩
        simpa using overfull
      · exact inductionHypothesis

theorem isFilling_fillGroups {first : List Char}
    (filled : ∀ piece ∈ first :: pieces, piece ≠ []) :
    IsFilling width (first :: pieces) (fillGroups width [first] pieces) where
  whole := flatten_fillGroups
  filled := ne_nil_of_mem_fillGroups (List.cons_ne_nil _ _)
  fits := fits_fillGroups (.inl rfl) (List.forall_mem_cons.1 filled).2
  full := full_fillGroups

end Groups

/-- The lines that groups of chunks are shown as.  Blank ones are left out. -/
def shownLines (groups : List (List (List Char))) : List (List Char) :=
  (groups.map fun group => trimChars group.flatten).filter fun line =>
    !line.isEmpty

theorem flatMap_finishedLine (groups : List (List (List Char))) :
    (groups.flatMap fun group => finishedLine group.flatten) =
      shownLines groups := by
  induction groups with
  | nil => rfl
  | cons group groups inductionHypothesis =>
      rw [List.flatMap_cons, inductionHypothesis]
      unfold finishedLine shownLines
      dsimp only
      rw [List.map_cons, List.filter_cons]
      split <;> simp_all

theorem visible_shownLines (groups : List (List (List Char))) :
    visible (shownLines groups).flatten = visible groups.flatten.flatten := by
  induction groups with
  | nil => rfl
  | cons group groups inductionHypothesis =>
      have first := visible_trimChars group.flatten
      have later : visible (shownLines (group :: groups)).flatten =
          visible (trimChars group.flatten) ++
            visible (shownLines groups).flatten := by
        rw [shownLines, List.map_cons, List.filter_cons]
        split
        · rw [List.flatten_cons, visible_append, shownLines]
        · rename_i blank
          have empty : trimChars group.flatten = [] := by simpa using blank
          rw [empty]
          rfl
      rw [later, first, inductionHypothesis, List.flatten_cons,
        List.flatten_append, visible_append]

section Wrapped

variable {width : Nat} (positive : 0 < width) (text : List Char)

include positive

/-- A text stays as it is if it fits on one line.  Otherwise its lines are groups
of its chunks. -/
theorem wrap_cases :
    text.length ≤ width ∧ wrap text width = [text] ∨
      width < text.length ∧ ∃ groups, IsFilling width (chunks text) groups ∧
        wrap text width = shownLines groups := by
  rcases Nat.lt_or_ge width text.length with long | short
  · have filled : text ≠ [] := List.ne_nil_of_length_pos (by omega)
    obtain ⟨first, rest, cut⟩ :=
      List.exists_cons_of_ne_nil (chunks_ne_nil filled)
    have pieces := (isChunked_chunks text).filled
    rw [cut] at pieces ⊢
    have started : fillLines width [] (first :: rest) =
        fillLines width [first].flatten rest := by
      rw [fillLines, List.flatten_singleton]
      split <;> rfl
    refine .inr ⟨long, fillGroups width [first] rest,
      isFilling_fillGroups pieces, ?_⟩
    rw [wrap, if_neg (by omega), cut, started, fillLines_eq,
      flatMap_finishedLine]
  · exact .inl ⟨short, if_pos (.inr short)⟩

/-- A line is too long only if it is a single chunk. -/
theorem within_or_chunk_of_mem_wrap {line : List Char}
    (member : line ∈ wrap text width) :
    line.length ≤ width ∨ ∃ piece ∈ chunks text, line = trimChars piece := by
  obtain ⟨short, kept⟩ | ⟨_, groups, filling, wrapped⟩ :=
    wrap_cases positive text
  · rw [kept, List.mem_singleton] at member
    exact .inl (member ▸ short)
  · rw [wrapped] at member
    obtain ⟨group, listed, rfl⟩ :=
      List.mem_map.1 (List.mem_of_mem_filter member)
    rcases filling.fits group listed with single | narrow
    · obtain ⟨piece, rfl⟩ := List.length_eq_one_iff.1 single
      have inText : piece ∈ chunks text :=
        filling.whole ▸ List.mem_flatten_of_mem listed List.mem_cons_self
      exact .inr ⟨piece, inText, by rw [List.flatten_singleton]⟩
    · exact .inl ((length_trimChars_le_chunkWidth _).trans narrow)

theorem visible_wrap :
    visible (wrap text width).flatten = visible text := by
  obtain ⟨_, kept⟩ | ⟨_, groups, filling, wrapped⟩ := wrap_cases positive text
  · rw [kept, List.flatten_singleton]
  · rw [wrapped, visible_shownLines, filling.whole,
      (isChunked_chunks text).whole]

end Wrapped

/-- Wrapping is greedy, bounded and loses nothing.  A line is too long only if it
is a single chunk; blanks apart the lines hold the text; and unless the text fits
on one line, the lines are consecutive groups of chunks, each of which ends only
where the next chunk would not fit. -/
theorem wrap_greedy {text : List Char} {width : Nat}
    {pieces : List (List Char)} (positive : 0 < width)
    (chunked : IsChunked text pieces) :
    (∀ line ∈ wrap text width, line.length ≤ width ∨
        ∃ piece ∈ pieces, line = trimChars piece) ∧
      visible (wrap text width).flatten = visible text ∧
      (text.length ≤ width ∧ wrap text width = [text] ∨
        width < text.length ∧ ∃ groups, IsFilling width pieces groups ∧
          wrap text width = shownLines groups) := by
  rw [chunked.eq_chunks]
  exact ⟨fun _ => within_or_chunk_of_mem_wrap positive text,
    visible_wrap positive text, wrap_cases positive text⟩

/-- Blanks before a break are dropped, and a chunk that is too long has a line to
itself. -/
theorem wrap_greedy_overlong :
    let text := "ab  cd, extraordinary-x".toList
    let pieces :=
      ["ab ", " ", "cd,", " ", "extraordinary-", "x"].map String.toList
    0 < 5 ∧ IsChunked text pieces ∧
      visible (wrap text 5).flatten = visible text ∧
      ∃ groups, IsFilling 5 pieces groups ∧ shownLines groups =
        ["ab", "cd,", "extraordinary-", "x"].map String.toList := by
  intro text pieces
  have cut : pieces = chunks text := by decide
  have chunked : IsChunked text pieces := cut ▸ isChunked_chunks text
  have lines : wrap text 5 =
      ["ab", "cd,", "extraordinary-", "x"].map String.toList := by
    decide +kernel
  obtain ⟨_, kept, ⟨short, _⟩ | ⟨_, groups, filling, wrapped⟩⟩ :=
    wrap_greedy (by decide : 0 < 5) chunked
  · exact absurd short (by decide)
  · exact ⟨by decide, chunked, kept, groups, filling, wrapped.symm.trans lines⟩

end Deobfuscate.Source
