import Deobfuscate.Patch.Parser
import Deobfuscate.Proofs.FileTree.Lookup
import Deobfuscate.Proofs.Text.Lines
import Deobfuscate.Proofs.Text.Search

/-!
# What is read from a diff

Reading a diff is a walk through states, one line at a time.  In every state the
hunks that are complete have as many lines on each side as their headers say, and
the hunk under way still awaits the others.  So every hunk that is read is
complete, and no line break stands in one of its lines.
-/

namespace Deobfuscate.Patch

open Deobfuscate.Text

/-- A hunk as its header announces it, but for lines that are still awaited on
both sides. -/
structure Hunk.Awaits (hunk : Hunk) (oldLeft newLeft : Nat) : Prop where
  old : hunk.oldLines.length + oldLeft = hunk.oldCount
  new : hunk.newLines.length + newLeft = hunk.newCount
  unbroken : ∀ line ∈ hunk.lines, Unbroken line.text.toList
  /-- The numbers of the header are machine words. -/
  starts : hunk.oldStart < wordBound ∧ hunk.newStart < wordBound
  counts : hunk.oldCount < wordBound ∧ hunk.newCount < wordBound

instance (hunk : Hunk) (oldLeft newLeft : Nat) :
    Decidable (hunk.Awaits oldLeft newLeft) :=
  decidable_of_iff
    (hunk.oldLines.length + oldLeft = hunk.oldCount ∧
      hunk.newLines.length + newLeft = hunk.newCount ∧
      (∀ line ∈ hunk.lines, Unbroken line.text.toList) ∧
      (hunk.oldStart < wordBound ∧ hunk.newStart < wordBound) ∧
      hunk.oldCount < wordBound ∧ hunk.newCount < wordBound)
    ⟨fun ⟨old, new, unbroken, starts, counts⟩ =>
        ⟨old, new, unbroken, starts, counts⟩,
      fun ⟨old, new, unbroken, starts, counts⟩ =>
        ⟨old, new, unbroken, starts, counts⟩⟩

/-- A hunk has as many lines on each side as its header says. -/
abbrev Hunk.Complete (hunk : Hunk) : Prop :=
  hunk.Awaits 0 0

def Spec.Complete (spec : Spec) : Prop :=
  ∀ hunk ∈ spec.hunks, hunk.Complete

instance (spec : Spec) : Decidable spec.Complete :=
  inferInstanceAs (Decidable (∀ hunk ∈ spec.hunks, hunk.Complete))

theorem Spec.Complete.addHunk {spec : Spec} {hunk : Hunk}
    (complete : spec.Complete) (added : hunk.Complete) :
    (spec.addHunk hunk).Complete := by
  intro other member
  rcases List.mem_append.1 member with before | last
  · exact complete other before
  · rw [List.mem_singleton.1 last]
    exact added

/-- A line that is awaited on a side moves from those awaited to those read. -/
theorem length_filter_concat (side : HunkLine → Bool) (lines : List HunkLine)
    {line : HunkLine} {left : Nat} (awaited : side line = true → left ≠ 0) :
    ((lines ++ [line]).filter side).length +
        (if side line then left - 1 else left) =
      (lines.filter side).length + left := by
  rw [List.filter_append, List.length_append]
  cases here : side line with
  | true =>
      have some := awaited here
      simp only [List.filter_cons, here, if_true, List.filter_nil,
        List.length_singleton]
      omega
  | false => simp [here]

namespace Hunk.Awaits

variable {hunk : Hunk} {oldLeft newLeft : Nat}

theorem markOpenEnded (awaits : hunk.Awaits oldLeft newLeft) :
    hunk.markOpenEnded.Awaits oldLeft newLeft := by
  obtain ⟨old, new, unbroken, starts, counts⟩ := awaits
  unfold Hunk.markOpenEnded
  split <;> exact ⟨old, new, unbroken, starts, counts⟩

/-- A further line is no longer awaited. -/
theorem addLine (awaits : hunk.Awaits oldLeft newLeft) {line : HunkLine}
    (unbroken : Unbroken line.text.toList)
    (oldSome : line.isOld = true → oldLeft ≠ 0)
    (newSome : line.isNew = true → newLeft ≠ 0) :
    Hunk.Awaits { hunk with lines := hunk.lines ++ [line] }
      (if line.isOld then oldLeft - 1 else oldLeft)
      (if line.isNew then newLeft - 1 else newLeft) := by
  obtain ⟨old, new, earlier, starts, counts⟩ := awaits
  refine ⟨(length_filter_concat _ _ oldSome).trans old,
    (length_filter_concat _ _ newSome).trans new, ?_, starts, counts⟩
  intro other member
  rcases List.mem_append.1 member with before | last
  · exact earlier other before
  · rw [List.mem_singleton.1 last]
    exact unbroken

end Hunk.Awaits

/-- Reading lines leads from one state to another and closes specifications. -/
inductive Reads : ReadState → List (List Char) → List Spec → ReadState → Prop
  | nil (state : ReadState) : Reads state [] [] state
  | cons {state next last : ReadState} {line : List Char}
      {lines : List (List Char)} {closed later : List Spec}
      (first : readDiffLine state line = .ok (next, closed))
      (rest : Reads next lines later last) :
      Reads state (line :: lines) (closed ++ later) last

namespace Reads

theorem append {state middle last : ReadState}
    {lines others : List (List Char)} {closed later : List Spec}
    (first : Reads state lines closed middle)
    (second : Reads middle others later last) :
    Reads state (lines ++ others) (closed ++ later) last := by
  induction first with
  | nil state => exact second
  | cons line rest inductionHypothesis =>
      rw [List.cons_append, List.append_assoc]
      exact .cons line (inductionHypothesis second)

/-- A line that closes nothing. -/
theorem step {state next : ReadState} {line : List Char}
    (read : readDiffLine state line = .ok (next, [])) :
    Reads state [line] [] next :=
  .cons read (.nil next)

end Reads

/-- A diff is read when its lines are and nothing is missing at its end. -/
theorem readDiffLines_eq_ok {state : ReadState} (number : Nat)
    {lines : List (List Char)} {specs : List Spec} :
    readDiffLines state number lines = .ok specs ↔
      ∃ closed last final, Reads state lines closed last ∧
        readEnd last = .ok final ∧ specs = closed ++ final := by
  induction lines generalizing state number specs with
  | nil =>
      rw [readDiffLines]
      constructor
      · intro read
        cases ended : readEnd state with
        | error fault =>
            rw [ended] at read
            cases read
        | ok final =>
            rw [ended] at read
            exact ⟨[], state, final, .nil state, ended,
              (Except.ok.inj read).symm⟩
      · rintro ⟨closed, last, final, walk, ended, rfl⟩
        cases walk
        rw [ended]
        rfl
  | cons line lines inductionHypothesis =>
      rw [readDiffLines]
      cases read : readDiffLine state line with
      | error fault =>
          constructor
          · intro impossible
            cases impossible
          · rintro ⟨closed, last, final, walk, ended, rfl⟩
            cases walk with
            | cons first rest =>
                rw [read] at first
                cases first
      | ok result =>
          obtain ⟨next, closed⟩ := result
          dsimp only
          constructor
          · intro mapped
            cases later : readDiffLines next (number + 1) lines with
            | error fault =>
                rw [later] at mapped
                cases mapped
            | ok others =>
                rw [later] at mapped
                obtain ⟨more, last, final, walk, ended, rfl⟩ :=
                  (inductionHypothesis _).1 later
                refine ⟨closed ++ more, last, final, .cons read walk, ended, ?_⟩
                rw [List.append_assoc]
                exact (Except.ok.inj mapped).symm
          · rintro ⟨all, last, final, walk, ended, rfl⟩
            cases walk with
            | cons first rest =>
                rw [read] at first
                cases first
                rw [(inductionHypothesis _).2 ⟨_, _, _, rest, ended, rfl⟩,
                  List.append_assoc]
                rfl

theorem parse_eq_ok {text name : String} {specs : List Spec} :
    parse text name = .ok specs ↔
      ∃ closed last final,
        Reads .outside (lineContents text.toList) closed last ∧
          readEnd last = .ok final ∧ specs = closed ++ final := by
  rw [← readDiffLines_eq_ok 1, parse]
  cases readDiffLines .outside 1 (lineContents text.toList) with
  | error error =>
      constructor
      · intro impossible
        cases impossible
      · intro impossible
        cases impossible
  | ok found =>
      constructor
      · intro same
        cases same
        rfl
      · intro same
        cases same
        rfl

/-! ## What a line leaves complete -/

/-- The hunks of a state are complete, but for the lines that the one under way
still awaits. -/
def ReadState.Sound : ReadState → Prop
  | .outside => True
  | .afterOldHeader _ => True
  | .betweenHunks spec => spec.Complete
  | .inHunk spec hunk oldLeft newLeft =>
      spec.Complete ∧ hunk.Awaits oldLeft newLeft
  | .afterHunk spec hunk => spec.Complete ∧ hunk.Complete

def SoundResult (result : ReadState × List Spec) : Prop :=
  result.1.Sound ∧ ∀ spec ∈ result.2, spec.Complete

theorem sound_ofHunk {spec : Spec} {hunk : Hunk} {oldLeft newLeft : Nat}
    (complete : spec.Complete) (awaits : hunk.Awaits oldLeft newLeft) :
    (ReadState.ofHunk spec hunk oldLeft newLeft).Sound := by
  unfold ReadState.ofHunk
  split
  · rename_i nothing
    rw [nothing.1, nothing.2] at awaits
    exact ⟨complete, awaits⟩
  · exact ⟨complete, awaits⟩

theorem sound_readOutside (line : List Char) : (readOutside line).Sound := by
  unfold readOutside
  split <;> trivial

theorem readRange_lt {chars : List Char} {start count : Nat}
    (read : readRange chars = some (start, count)) :
    start < wordBound ∧ count < wordBound := by
  unfold readRange at read
  split at read
  · obtain ⟨first, readFirst, read⟩ := Option.bind_eq_some_iff.1 read
    obtain ⟨second, readSecond, read⟩ := Option.bind_eq_some_iff.1 read
    cases read
    exact ⟨lt_of_readBounded readFirst, lt_of_readBounded readSecond⟩
  · obtain ⟨first, readFirst, read⟩ := Option.bind_eq_some_iff.1 read
    cases read
    exact ⟨lt_of_readBounded readFirst, by decide⟩

/-- A header announces a hunk all of whose lines are still awaited. -/
theorem awaits_readHunkHeader {line : List Char} {hunk : Hunk}
    (read : readHunkHeader line = some hunk) :
    hunk.Awaits hunk.oldCount hunk.newCount := by
  unfold readHunkHeader at read
  obtain ⟨rest, _, read⟩ := Option.bind_eq_some_iff.1 read
  obtain ⟨⟨ranges, _⟩, _, read⟩ := Option.bind_eq_some_iff.1 read
  obtain ⟨⟨old, new⟩, _, read⟩ := Option.bind_eq_some_iff.1 read
  obtain ⟨⟨oldStart, oldCount⟩, readOld, read⟩ := Option.bind_eq_some_iff.1 read
  obtain ⟨⟨newStart, newCount⟩, readNew, read⟩ := Option.bind_eq_some_iff.1 read
  cases read
  obtain ⟨oldStarts, oldCounts⟩ := readRange_lt readOld
  obtain ⟨newStarts, newCounts⟩ := readRange_lt readNew
  exact ⟨Nat.zero_add _, Nat.zero_add _, fun _ member => absurd member
    List.not_mem_nil, ⟨oldStarts, newStarts⟩, oldCounts, newCounts⟩

theorem sound_readSection {spec : Spec} {line : List Char}
    {result : ReadState × List Spec} (complete : spec.Complete)
    (read : readSection spec line = .ok result) : SoundResult result := by
  unfold readSection at read
  split at read
  · split at read
    · rename_i hunk header
      cases read
      exact ⟨sound_ofHunk complete (awaits_readHunkHeader header),
        fun _ member => absurd member List.not_mem_nil⟩
    · cases read
  · cases read
    refine ⟨sound_readOutside line, fun other member => ?_⟩
    rw [List.mem_singleton.1 member]
    exact complete

theorem sound_addHunkLine {spec : Spec} {hunk : Hunk} {oldLeft newLeft : Nat}
    {line : HunkLine} {result : ReadState × List Spec}
    (complete : spec.Complete) (awaits : hunk.Awaits oldLeft newLeft)
    (unbroken : Unbroken line.text.toList)
    (read : addHunkLine spec hunk oldLeft newLeft line = .ok result) :
    SoundResult result := by
  unfold addHunkLine at read
  split at read
  · cases read
  · rename_i allowed
    cases read
    refine ⟨sound_ofHunk complete (awaits.addLine unbroken ?_ ?_),
      fun _ member => absurd member List.not_mem_nil⟩
    · intro side nothing
      simp [side, nothing] at allowed
    · intro side nothing
      simp [side, nothing] at allowed

theorem sound_readHunkLine {spec : Spec} {hunk : Hunk} {oldLeft newLeft : Nat}
    {line : List Char} {result : ReadState × List Spec}
    (complete : spec.Complete) (awaits : hunk.Awaits oldLeft newLeft)
    (unbroken : Unbroken line)
    (read : readHunkLine spec hunk oldLeft newLeft line = .ok result) :
    SoundResult result := by
  have tail : ∀ {marker : Char} {text : List Char},
      Unbroken (marker :: text) → Unbroken (String.ofList text).toList := by
    intro marker text whole
    rw [String.toList_ofList]
    exact ⟨fun inside => whole.1 (List.mem_cons_of_mem _ inside),
      fun inside => whole.2 (List.mem_cons_of_mem _ inside)⟩
  unfold readHunkLine at read
  dsimp only at read
  split at read
  · refine sound_addHunkLine complete awaits ?_ read
    exact unbroken
  · refine sound_addHunkLine complete awaits ?_ read
    exact tail unbroken
  · refine sound_addHunkLine complete awaits ?_ read
    exact tail unbroken
  · refine sound_addHunkLine complete awaits ?_ read
    exact tail unbroken
  · cases read
    exact ⟨⟨complete, awaits.markOpenEnded⟩,
      fun _ member => absurd member List.not_mem_nil⟩
  · cases read

/-- A line leads from a sound state to a sound state. -/
theorem sound_readDiffLine {state : ReadState} {line : List Char}
    {result : ReadState × List Spec} (sound : state.Sound)
    (unbroken : Unbroken line) (read : readDiffLine state line = .ok result) :
    SoundResult result := by
  have nothing : ∀ spec ∈ ([] : List Spec), spec.Complete :=
    fun _ member => absurd member List.not_mem_nil
  cases state with
  | outside =>
      cases read
      exact ⟨sound_readOutside line, nothing⟩
  | afterOldHeader oldPath =>
      simp only [readDiffLine] at read
      split at read
      · cases read
        exact ⟨fun _ member => absurd member List.not_mem_nil, nothing⟩
      · cases read
  | betweenHunks spec => exact sound_readSection sound read
  | inHunk spec hunk oldLeft newLeft =>
      exact sound_readHunkLine sound.1 sound.2 unbroken read
  | afterHunk spec hunk =>
      simp only [readDiffLine] at read
      split at read
      · cases read
        exact ⟨sound.1.addHunk sound.2.markOpenEnded, nothing⟩
      · exact sound_readSection (sound.1.addHunk sound.2) read

/-- A walk from a sound state ends in one, and what it closes is complete. -/
theorem Reads.sound {state last : ReadState} {lines : List (List Char)}
    {closed : List Spec} (walk : Reads state lines closed last)
    (sound : state.Sound) (unbroken : ∀ line ∈ lines, Unbroken line) :
    last.Sound ∧ ∀ spec ∈ closed, spec.Complete := by
  induction walk with
  | nil state => exact ⟨sound, fun _ member => absurd member List.not_mem_nil⟩
  | cons first rest inductionHypothesis =>
      obtain ⟨next, closes⟩ :=
        sound_readDiffLine sound (unbroken _ (by simp)) first
      obtain ⟨ends, later⟩ := inductionHypothesis next
        fun line member => unbroken line (by simp [member])
      refine ⟨ends, fun spec member => ?_⟩
      rcases List.mem_append.1 member with early | late
      · exact closes spec early
      · exact later spec late

theorem complete_of_readEnd {state : ReadState} {specs : List Spec}
    (sound : state.Sound) (ended : readEnd state = .ok specs) :
    ∀ spec ∈ specs, spec.Complete := by
  intro spec member
  cases state with
  | outside =>
      cases ended
      exact absurd member List.not_mem_nil
  | afterOldHeader oldPath => cases ended
  | betweenHunks earlier =>
      cases ended
      rw [List.mem_singleton.1 member]
      exact sound
  | inHunk earlier hunk oldLeft newLeft => cases ended
  | afterHunk earlier hunk =>
      cases ended
      rw [List.mem_singleton.1 member]
      exact sound.1.addHunk sound.2

/-- Every hunk that is read has as many lines on each side as its header says,
and no line break stands in them. -/
theorem complete_of_parse {text name : String} {specs : List Spec}
    (parsed : parse text name = .ok specs) :
    ∀ spec ∈ specs, spec.Complete := by
  obtain ⟨closed, last, final, walk, ended, rfl⟩ := parse_eq_ok.1 parsed
  obtain ⟨sound, closes⟩ := walk.sound trivial
    fun line member => unbroken_of_mem_lineContents member
  intro spec member
  rcases List.mem_append.1 member with early | late
  · exact closes spec early
  · exact complete_of_readEnd sound ended spec late

end Deobfuscate.Patch
