import Deobfuscate.Patch.WorkingSet
import Deobfuscate.Proofs.Patch.Window
import Deobfuscate.Proofs.Text.Lines

/-!
# Exact diffs

A specification is an exact diff of two texts when its hunks, in order and
without overlap, hold at the recorded positions what the two texts hold there,
and the texts agree outside the hunks.

An exact diff applies exactly: every hunk is found where it is recorded, without
fuzz, and the old text becomes the new one.  Exactness is symmetric, so the
reversed specification takes the new text back to the old one.
-/

namespace Deobfuscate.Patch

open Deobfuscate.Text

namespace Hunk

/-- The texts of the lines a hunk expects to find. -/
def oldTexts (hunk : Hunk) : List String :=
  hunk.oldLines.map HunkLine.text

def newTexts (hunk : Hunk) : List String :=
  hunk.newLines.map HunkLine.text

def oldPosition (hunk : Hunk) : Nat :=
  if hunk.oldLines.isEmpty then hunk.oldStart else hunk.oldStart - 1

def newPosition (hunk : Hunk) : Nat :=
  if hunk.newLines.isEmpty then hunk.newStart else hunk.newStart - 1

@[simp]
theorem length_oldTexts (hunk : Hunk) :
    hunk.oldTexts.length = hunk.oldLines.length := by
  simp [oldTexts]

private theorem text_reversed (line : HunkLine) :
    line.reversed.text = line.text := by
  cases line <;> rfl

private theorem isNew_reversed (line : HunkLine) :
    line.reversed.isNew = line.isOld := by
  cases line <;> rfl

theorem oldLines_reversed (hunk : Hunk) :
    hunk.reversed.oldLines = hunk.newLines.map HunkLine.reversed := by
  simp only [oldLines, newLines, reversed, List.filter_map]
  congr 2
  funext line
  exact HunkLine.isOld_reversed line

theorem newLines_reversed (hunk : Hunk) :
    hunk.reversed.newLines = hunk.oldLines.map HunkLine.reversed := by
  simp only [oldLines, newLines, reversed, List.filter_map]
  congr 2
  funext line
  exact isNew_reversed line

@[simp]
theorem oldTexts_reversed (hunk : Hunk) :
    hunk.reversed.oldTexts = hunk.newTexts := by
  simp [oldTexts, newTexts, oldLines_reversed, text_reversed]

@[simp]
theorem newTexts_reversed (hunk : Hunk) :
    hunk.reversed.newTexts = hunk.oldTexts := by
  simp [oldTexts, newTexts, newLines_reversed, text_reversed]

@[simp]
theorem oldPosition_reversed (hunk : Hunk) :
    hunk.reversed.oldPosition = hunk.newPosition := by
  simp only [oldPosition, newPosition, oldLines_reversed, List.isEmpty_map]
  rfl

@[simp]
theorem newPosition_reversed (hunk : Hunk) :
    hunk.reversed.newPosition = hunk.oldPosition := by
  simp only [oldPosition, newPosition, newLines_reversed, List.isEmpty_map]
  rfl

end Hunk

def StandsAt (lines : List String) (position : Nat)
    (texts : List String) : Prop :=
  position + texts.length ≤ lines.length ∧
    (lines.drop position).take texts.length = texts

instance (lines : List String) (position : Nat) (texts : List String) :
    Decidable (StandsAt lines position texts) :=
  inferInstanceAs (Decidable (_ ∧ _))

/-- Hunks are an exact diff of what two lists of lines hold from a position on
each: the next hunk stands on both sides where it is recorded, what comes
before it is the same on both sides, and so on from the end of the hunk. -/
def ExactFrom (old new : List String) : Nat → Nat → List Hunk → Prop
  | oldDone, newDone, [] => old.drop oldDone = new.drop newDone
  | oldDone, newDone, hunk :: hunks =>
      oldDone ≤ hunk.oldPosition ∧ newDone ≤ hunk.newPosition ∧
        (old.take hunk.oldPosition).drop oldDone =
          (new.take hunk.newPosition).drop newDone ∧
        StandsAt old hunk.oldPosition hunk.oldTexts ∧
        StandsAt new hunk.newPosition hunk.newTexts ∧
        ExactFrom old new (hunk.oldPosition + hunk.oldTexts.length)
          (hunk.newPosition + hunk.newTexts.length) hunks

instance ExactFrom.decide (old new : List String) :
    (oldDone newDone : Nat) → (hunks : List Hunk) →
      Decidable (ExactFrom old new oldDone newDone hunks)
  | _, _, [] => inferInstanceAs (Decidable (_ = _))
  | _, _, hunk :: hunks =>
      have := ExactFrom.decide old new
        (hunk.oldPosition + hunk.oldTexts.length)
        (hunk.newPosition + hunk.newTexts.length) hunks
      inferInstanceAs (Decidable (_ ∧ _ ∧ _ ∧ _ ∧ _ ∧ _))

theorem ExactFrom.reversed {old new : List String} {hunks : List Hunk} :
    ∀ {oldDone newDone : Nat},
      ExactFrom old new oldDone newDone hunks →
      ExactFrom new old newDone oldDone (hunks.map Hunk.reversed) := by
  induction hunks with
  | nil =>
      intro oldDone newDone exact
      exact Eq.symm exact
  | cons hunk rest inductionHypothesis =>
      intro oldDone newDone exact
      obtain ⟨oldOrder, newOrder, between, oldSide, newSide, later⟩ := exact
      have laterReversed := inductionHypothesis later
      simp only [List.map_cons, ExactFrom, Hunk.oldPosition_reversed,
        Hunk.newPosition_reversed, Hunk.oldTexts_reversed,
        Hunk.newTexts_reversed]
      exact ⟨newOrder, oldOrder, between.symm, newSide, oldSide,
        laterReversed⟩

/-- A signed machine word holds every number below the limit, of either
sign. -/
theorem wrapWord_eq {value : Int} (above : -(machineLimit : Int) ≤ value)
    (below : value < machineLimit) : wrapWord value = value := by
  simp only [machineLimit] at above below
  exact Int.bmod_eq_of_le (by omega) (by omega)

theorem isWord_iff {value : Int} :
    isWord value = true ↔
      -(machineLimit : Int) ≤ value ∧ value < machineLimit := by
  rw [isWord, Bool.and_eq_true, decide_eq_true_eq, decide_eq_true_eq]

theorem recorded_eq {hunk : Hunk} (small : hunk.oldPosition < machineLimit) :
    hunk.recorded = hunk.oldPosition := by
  have held : wrapWord hunk.oldPosition = hunk.oldPosition :=
    wrapWord_eq (by omega) (by omega)
  exact held

/-- A window that holds the old side of a hunk is replaced by its new side. -/
theorem replacement_self (lines : List HunkLine) :
    replacement lines ((lines.filter HunkLine.isOld).map HunkLine.text) =
      (lines.filter HunkLine.isNew).map HunkLine.text := by
  induction lines with
  | nil =>
      rfl
  | cons line rest inductionHypothesis =>
      cases line with
      | context text => exact congrArg (text :: ·) inductionHypothesis
      | remove text => exact inductionHypothesis
      | add text => exact congrArg (text :: ·) inductionHypothesis

/-- The lines before the next hunk are the same on both sides, so it is as far
from the one position as from the other. -/
theorem gap_eq {old new : List String} {oldDone newDone : Nat} {hunk : Hunk}
    (same : (old.take hunk.oldPosition).drop oldDone =
      (new.take hunk.newPosition).drop newDone)
    (oldSide : StandsAt old hunk.oldPosition hunk.oldTexts)
    (newSide : StandsAt new hunk.newPosition hunk.newTexts) :
    hunk.oldPosition - oldDone = hunk.newPosition - newDone := by
  have lengths := congrArg List.length same
  have oldFits := oldSide.1
  have newFits := newSide.1
  simp only [List.length_drop, List.length_take] at lengths
  omega

def exactReport (index : Nat) (hunk : Hunk) : HunkReport :=
  ⟨index, .success, 0, (0, 0), 0, hunk⟩

/-- What a file under edit looks like between two hunks of an exact diff: the
settled lines are new ones, the pending lines old ones, and the shift is the
difference of the two positions. -/
structure Progress.Between (old new : List String) (oldDone newDone : Nat)
    (progress : Progress) : Prop where
  settled : progress.settled = new.take newDone
  pending : progress.pending = old.drop oldDone
  shift : progress.shift = (newDone : Int) - oldDone
  oldBound : oldDone ≤ old.length
  newBound : newDone ≤ new.length

namespace Progress.Between

variable {old new : List String} {oldDone newDone : Nat}
variable {progress : Progress} {hunk : Hunk}

theorem length_settled
    (between : progress.Between old new oldDone newDone) :
    progress.settled.length = newDone := by
  rw [between.settled, List.length_take]
  exact Nat.min_eq_left between.newBound

theorem length_pending
    (between : progress.Between old new oldDone newDone) :
    progress.pending.length = old.length - oldDone := by
  rw [between.pending, List.length_drop]

/-- A hunk of an exact diff goes where it is recorded. -/
theorem place_eq (between : progress.Between old new oldDone newDone)
    (options : Options) (oldOrder : oldDone ≤ hunk.oldPosition)
    (newOrder : newDone ≤ hunk.newPosition)
    (gap : hunk.oldPosition - oldDone = hunk.newPosition - newDone)
    (oldSide : StandsAt old hunk.oldPosition hunk.oldTexts) :
    progress.place options hunk hunk.newPosition =
      some (hunk.oldPosition - oldDone, 0) := by
  obtain ⟨fits, stands⟩ := oldSide
  rw [Hunk.length_oldTexts] at fits stands
  have pendingLength := between.length_pending
  have here : (hunk.newPosition : Int) - progress.settled.length =
      (hunk.oldPosition - oldDone : Nat) := by
    rw [between.length_settled]
    omega
  simp only [Progress.place, here]
  split
  · congr 2
    omega
  · rename_i filled
    have nonempty : hunk.oldLines ≠ [] := by simpa using filled
    apply findWindow_of_exact options nonempty
    · omega
    · rw [between.pending, List.drop_drop, Nat.add_sub_cancel' oldOrder]
      exact stands

/-- The lines that are settled before the next hunk, with those between, are the
new lines up to that hunk. -/
theorem settled_append (between : progress.Between old new oldDone newDone)
    (newOrder : newDone ≤ hunk.newPosition)
    (same : (old.take hunk.oldPosition).drop oldDone =
      (new.take hunk.newPosition).drop newDone) :
    progress.settled ++
        progress.pending.take (hunk.oldPosition - oldDone) =
      new.take hunk.newPosition := by
  have kept : progress.pending.take (hunk.oldPosition - oldDone) =
      (new.take hunk.newPosition).drop newDone := by
    rw [between.pending, ← same, List.drop_take]
  have start : progress.settled =
      (new.take hunk.newPosition).take newDone := by
    rw [between.settled, List.take_take, Nat.min_eq_left newOrder]
  rw [kept, start, List.take_append_drop]

/-- Where the next hunk is expected is where it is recorded on the new side. -/
theorem expected_eq (between : progress.Between old new oldDone newDone)
    (oldSmall : hunk.oldPosition < machineLimit)
    (oldOrder : oldDone ≤ hunk.oldPosition)
    (newOrder : newDone ≤ hunk.newPosition)
    (gap : hunk.oldPosition - oldDone = hunk.newPosition - newDone) :
    hunk.recorded + progress.shift = hunk.newPosition := by
  rw [recorded_eq oldSmall, between.shift]
  omega

/-- What follows the next hunk is shifted by the difference of its two ends. -/
theorem shift_eq (oldSmall : hunk.oldPosition < machineLimit) :
    (hunk.newPosition : Int) + hunk.newTexts.length -
        hunk.oldLines.length - hunk.recorded =
      ((hunk.newPosition + hunk.newTexts.length : Nat) : Int) -
        (hunk.oldPosition + hunk.oldTexts.length : Nat) := by
  rw [recorded_eq oldSmall, Hunk.length_oldTexts]
  omega

/-- Each hunk of an exact diff is found where it is recorded, and what comes
after it is again the state between two hunks. -/
theorem step (between : progress.Between old new oldDone newDone)
    (options : Options) (index : Nat)
    (oldFits : old.length < machineLimit)
    (oldOrder : oldDone ≤ hunk.oldPosition)
    (newOrder : newDone ≤ hunk.newPosition)
    (same : (old.take hunk.oldPosition).drop oldDone =
      (new.take hunk.newPosition).drop newDone)
    (oldSide : StandsAt old hunk.oldPosition hunk.oldTexts)
    (newSide : StandsAt new hunk.newPosition hunk.newTexts) :
    (progress.step options index hunk).2 = exactReport index hunk ∧
      (progress.step options index hunk).1.Between old new
        (hunk.oldPosition + hunk.oldTexts.length)
        (hunk.newPosition + hunk.newTexts.length) := by
  have gap := gap_eq same oldSide newSide
  have placed := between.place_eq options oldOrder newOrder gap oldSide
  obtain ⟨oldRoom, oldStands⟩ := oldSide
  obtain ⟨newRoom, newStands⟩ := newSide
  have oldSmall : hunk.oldPosition < machineLimit := by omega
  have window : (progress.pending.drop (hunk.oldPosition - oldDone)).take
      hunk.oldLines.length = hunk.oldTexts := by
    rw [between.pending, List.drop_drop, Nat.add_sub_cancel' oldOrder,
      ← Hunk.length_oldTexts]
    exact oldStands
  have replaced : replacement hunk.lines hunk.oldTexts = hunk.newTexts :=
    replacement_self hunk.lines
  have found : ((progress.settled.length +
      (hunk.oldPosition - oldDone) : Nat) : Int) = hunk.newPosition := by
    rw [between.length_settled]
    omega
  have oldEnd : oldDone +
      (hunk.oldPosition - oldDone + hunk.oldLines.length) =
      hunk.oldPosition + hunk.oldLines.length := by
    omega
  have settled := between.settled_append newOrder same
  have shift := shift_eq oldSmall
  have expected := between.expected_eq oldSmall oldOrder newOrder gap
  rw [Progress.step, expected]
  simp only [placed, window, replaced, found, settled, shift]
  refine ⟨?_, ?_, ?_, rfl, oldRoom, newRoom⟩
  · simp [exactReport]
  · rw [List.take_add, newStands]
  · rw [between.pending, List.drop_drop, Hunk.length_oldTexts, oldEnd]

/-- The numbers that a hunk of an exact diff takes are words. -/
theorem fits (between : progress.Between old new oldDone newDone)
    (options : Options) (oldFits : old.length < machineLimit)
    (newFits : new.length < machineLimit)
    (oldOrder : oldDone ≤ hunk.oldPosition)
    (newOrder : newDone ≤ hunk.newPosition)
    (same : (old.take hunk.oldPosition).drop oldDone =
      (new.take hunk.newPosition).drop newDone)
    (oldSide : StandsAt old hunk.oldPosition hunk.oldTexts)
    (newSide : StandsAt new hunk.newPosition hunk.newTexts) :
    progress.fits options hunk = true := by
  have gap := gap_eq same oldSide newSide
  have found : distance ((newDone : Int) + (hunk.oldPosition - oldDone : Nat))
      hunk.newPosition = 0 := by
    unfold distance
    omega
  have placed := between.place_eq options oldOrder newOrder gap oldSide
  obtain ⟨report, next⟩ := between.step options 0 oldFits oldOrder newOrder
    same oldSide newSide
  have oldRoom := oldSide.1
  have newRoom := newSide.1
  have expected := between.expected_eq (by omega) oldOrder newOrder gap
  have shift := next.shift
  rw [Hunk.length_oldTexts] at oldRoom shift
  unfold Progress.fits Progress.searchFits
  simp only [expected, placed, report, shift, exactReport,
    between.length_pending, between.length_settled, found,
    Int.cast_ofNat_Int, Int.add_zero, Int.sub_zero, Bool.and_eq_true,
    Bool.or_eq_true, isWord_iff]
  clear placed report next expected shift
  unfold distance
  refine ⟨⟨⟨by omega, .inr (.inr ⟨⟨?_, by omega⟩, by omega⟩)⟩, by omega⟩,
    by omega⟩
  omega

end Progress.Between

/-- Hunks of an exact diff are all found where they are recorded, the lines become
the new ones, and the run does not stop. -/
theorem Progress.run_of_exactFrom (options : Options) {old new : List String}
    (oldFits : old.length < machineLimit)
    (newFits : new.length < machineLimit) {hunks : List Hunk} :
    ∀ (index : Nat) {oldDone newDone : Nat} {progress : Progress},
      progress.Between old new oldDone newDone →
      ExactFrom old new oldDone newDone hunks →
      (Progress.run options index progress hunks).2 =
          hunks.mapIdx (fun before hunk => exactReport (index + before) hunk) ∧
        (Progress.run options index progress hunks).1.settled ++
            (Progress.run options index progress hunks).1.pending = new ∧
        Progress.runFits options progress hunks = true := by
  induction hunks with
  | nil =>
      intro index oldDone newDone progress between exact
      refine ⟨rfl, ?_, rfl⟩
      have rest : progress.pending = new.drop newDone :=
        between.pending.trans exact
      show progress.settled ++ progress.pending = new
      rw [between.settled, rest, List.take_append_drop]
  | cons hunk hunks inductionHypothesis =>
      intro index oldDone newDone progress between exact
      obtain ⟨oldOrder, newOrder, same, oldSide, newSide, later⟩ := exact
      obtain ⟨report, next⟩ := between.step options index oldFits oldOrder
        newOrder same oldSide newSide
      obtain ⟨_, again⟩ := between.step options 0 oldFits oldOrder newOrder
        same oldSide newSide
      obtain ⟨reports, lines, _⟩ := inductionHypothesis (index + 1) next later
      obtain ⟨_, _, within⟩ := inductionHypothesis 0 again later
      have fits := between.fits options oldFits newFits oldOrder newOrder same
        oldSide newSide
      refine ⟨?_, lines, ?_⟩
      · simp only [Progress.run, report, reports, List.mapIdx_cons]
        refine congrArg (fun number => _ :: hunks.mapIdx number) ?_
        funext before hunk
        exact congrArg (exactReport · hunk) (by omega)
      · rw [Progress.runFits, fits, within, Bool.true_and]

theorem applyHunks_of_exact (options : Options) {old new : List String}
    {hunks : List Hunk} (oldFits : old.length < machineLimit)
    (newFits : new.length < machineLimit)
    (exact : ExactFrom old new 0 0 hunks) :
    applyHunks options old hunks =
        (new, hunks.mapIdx fun before hunk => exactReport (1 + before) hunk) ∧
      applyHunks? options old hunks = some (applyHunks options old hunks) := by
  have start : Progress.Between old new 0 0 ⟨[], old, 0⟩ :=
    ⟨rfl, rfl, rfl, Nat.zero_le _, Nat.zero_le _⟩
  obtain ⟨reports, lines, within⟩ :=
    Progress.run_of_exactFrom options oldFits newFits 1 start exact
  exact ⟨Prod.ext lines reports, if_pos within⟩

/-! ## Applying exact specifications -/

/-- Both texts use one terminator throughout; one that is not a line feed can be
seen in both. -/
def SameTerminator (old new : String) : Prop :=
  ∃ terminator : Terminator, terminator ≠ .endOfText ∧
    Uniform terminator old.toList ∧ Uniform terminator new.toList ∧
    (terminator = .lineFeed ∨
      UsesTerminator terminator old.toList ∧
        UsesTerminator terminator new.toList)

theorem SameTerminator.symm {old new : String}
    (same : SameTerminator old new) : SameTerminator new old := by
  obtain ⟨terminator, proper, oldUniform, newUniform, used⟩ := same
  exact ⟨terminator, proper, newUniform, oldUniform, used.imp_right And.symm⟩

/-- The hunks of a specification tell how two texts end: if any of them marks an
open end, some hunk marks an open end of a side just if that text ends open;
otherwise both texts end alike. -/
def EndsRecorded (old new : String) (hunks : List Hunk) : Prop :=
  if hunks.any Hunk.oldOpenEnded || hunks.any Hunk.newOpenEnded then
    hunks.any Hunk.oldOpenEnded = !endsClosed old.toList ∧
      hunks.any Hunk.newOpenEnded = !endsClosed new.toList
  else endsClosed old.toList = endsClosed new.toList

theorem EndsRecorded.reversed {old new : String} {hunks : List Hunk}
    (recorded : EndsRecorded old new hunks) :
    EndsRecorded new old (hunks.map Hunk.reversed) := by
  have oldSide : (hunks.map Hunk.reversed).any Hunk.oldOpenEnded =
      hunks.any Hunk.newOpenEnded := by
    rw [List.any_map]
    rfl
  have newSide : (hunks.map Hunk.reversed).any Hunk.newOpenEnded =
      hunks.any Hunk.oldOpenEnded := by
    rw [List.any_map]
    rfl
  unfold EndsRecorded at recorded ⊢
  rw [oldSide, newSide, Bool.or_comm]
  split at recorded
  · rename_i marked
    rw [if_pos marked]
    exact recorded.symm
  · rename_i unmarked
    rw [if_neg unmarked]
    exact recorded.symm

theorem closedAfter_eq {old new : String} {spec : Spec}
    (recorded : EndsRecorded old new spec.hunks) :
    closedAfter spec (endsClosed old.toList) = endsClosed new.toList := by
  unfold EndsRecorded at recorded
  unfold closedAfter
  cases oldOpen : spec.hunks.any Hunk.oldOpenEnded <;>
    cases newOpen : spec.hunks.any Hunk.newOpenEnded <;>
    simp_all

/-- A specification is an exact diff of two texts. -/
structure ExactDiff (old new : String) (spec : Spec) : Prop where
  hunks : ExactFrom (TextFile.ofText old).lines (TextFile.ofText new).lines
    0 0 spec.hunks
  ends : EndsRecorded old new spec.hunks

theorem ExactDiff.reversed {old new : String} {spec : Spec}
    (exact : ExactDiff old new spec) : ExactDiff new old spec.reversed :=
  ⟨exact.hunks.reversed, exact.ends.reversed⟩

/-- A text that a signed machine word can count the characters of, as every text
in memory is. -/
def Countable (text : String) : Prop :=
  text.length < machineLimit

theorem Countable.lines {text : String} (countable : Countable text) :
    (TextFile.ofText text).lines.length < machineLimit := by
  have lineCount : (TextFile.ofText text).lines.length ≤ text.length := by
    rw [← String.length_toList]
    simpa [TextFile.ofText, lineContents_eq_map] using
      length_splitLines_le text.toList
  exact Nat.lt_of_le_of_lt lineCount countable

/-- A uniform text is put together again from its lines. -/
theorem render_of_uniform {text : String} {terminator : Terminator}
    (uniform : Uniform terminator text.toList) :
    TextFile.render ⟨(TextFile.ofText text).lines, terminator,
      endsClosed text.toList⟩ = text := by
  have whole := eq_intercalate_of_uniform uniform
  have lines : (TextFile.ofText text).lines.map String.toList =
      lineContents text.toList := by
    simp [TextFile.ofText, Function.comp_def]
  have empty : (TextFile.ofText text).lines.isEmpty =
      (lineContents text.toList).isEmpty := by
    simp [TextFile.ofText]
  apply String.toList_inj.1
  refine Eq.trans ?_ whole.symm
  simp only [TextFile.render, empty]
  split <;> simp [lines]

/-- What is reported of a target whose hunks are all found where they are
recorded. -/
def exactTargetReport (target : String) (spec : Spec) : Report :=
  ⟨target, .success,
    spec.hunks.mapIdx fun before hunk => exactReport (1 + before) hunk, none⟩

theorem ofHunks_exact (target : String) (spec : Spec) :
    Report.ofHunks target
        (spec.hunks.mapIdx fun before hunk => exactReport (1 + before) hunk) =
      exactTargetReport target spec := by
  have succeeded : ∀ report ∈ spec.hunks.mapIdx
      (fun before hunk => exactReport (1 + before) hunk),
      report.status = .success := by
    intro report member
    obtain ⟨before, bound, equal⟩ := List.mem_mapIdx.1 member
    rw [← equal]
    rfl
  have noFailure : (spec.hunks.mapIdx
      (fun before hunk => exactReport (1 + before) hunk)).countP
      (·.status = .failure) = 0 := by
    apply List.countP_eq_zero.2
    intro report member
    simp [succeeded report member]
  have noFuzz : (spec.hunks.mapIdx
      (fun before hunk => exactReport (1 + before) hunk)).any
      (·.status = .fuzzed) = false := by
    apply List.any_eq_false.2
    intro report member
    simp [succeeded report member]
  simp only [Report.ofHunks, noFailure, noFuzz]
  rfl

theorem tryHunks_of_exact (options : Options) (target : String) {spec : Spec}
    {old new : String} (oldCountable : Countable old)
    (newCountable : Countable new) (same : SameTerminator old new)
    (exact : ExactDiff old new spec) (kept : spec.isDeletion = false) :
    tryHunks options target spec old =
      (exactTargetReport target spec, some (.write new)) := by
  obtain ⟨terminator, proper, oldUniform, newUniform, used⟩ := same
  have applied := (applyHunks_of_exact options oldCountable.lines
    newCountable.lines exact.hunks).1
  have ending := closedAfter_eq exact.ends
  have detected : (TextFile.ofText old).terminator = terminator :=
    firstTerminator_of_uniform proper oldUniform (used.imp_right And.left)
  have closed : (TextFile.ofText old).closed = endsClosed old.toList := rfl
  simp only [tryHunks, applied, ofHunks_exact, kept, detected, closed, ending,
    render_of_uniform newUniform]
  rfl

/-- A specification that succeeds on its target is carried out and reported. -/
theorem apply_singleton {set changed : WorkingSet} {options : Options}
    {spec : Spec} {report : Report} {outcome : Option Outcome}
    (tried : tryOn set options (spec.target options.strip) spec =
      (report, outcome))
    (succeeded : report.status = .success)
    (committed : commit set (spec.target options.strip) outcome = changed) :
    apply set [spec] options = (changed, .ok [report]) := by
  have single : targets options [spec] = [spec.target options.strip] := by
    simp [targets, List.eraseDups_cons]
  have chosen : applyTargets options [spec] set
      [spec.target options.strip] = (changed, [report]) := by
    simp [applyTargets, tryAll, tried, committed]
  have noFailure : [report].find? (·.status = .failure) = none := by
    simp [succeeded]
  rw [apply, single, chosen]
  simp only [noFailure]
  cases options.allowFailure <;> rfl

theorem apply_of_exactDiff {set : WorkingSet} {options : Options}
    {spec : Spec} {old new : String}
    (notCreation : spec.isCreation = false)
    (notDeletion : spec.isDeletion = false)
    (oldCountable : Countable old) (newCountable : Countable new)
    (same : SameTerminator old new) (exact : ExactDiff old new spec)
    (held : set.get? (spec.target options.strip) = some old) :
    apply set [spec] options =
      (set.insert (spec.target options.strip) new,
        .ok [exactTargetReport (spec.target options.strip) spec]) := by
  have tried : tryOn set options (spec.target options.strip) spec =
      (exactTargetReport (spec.target options.strip) spec,
        some (.write new)) := by
    simp only [tryOn, held, notCreation]
    exact tryHunks_of_exact options _ oldCountable newCountable same exact
      notDeletion
  exact apply_singleton tried rfl rfl

/-- An exact diff applies without a stop. -/
theorem applySpecs?_of_exactDiff {set : WorkingSet} {options : Options}
    {spec : Spec} {old new : String}
    (notCreation : spec.isCreation = false)
    (oldCountable : Countable old) (newCountable : Countable new)
    (exact : ExactDiff old new spec)
    (held : set.get? (spec.target options.strip) = some old) :
    applySpecs? set [spec] options = some (apply set [spec] options) := by
  have single : targets options [spec] = [spec.target options.strip] := by
    simp [targets, List.eraseDups_cons]
  have within := (applyHunks_of_exact options oldCountable.lines
    newCountable.lines exact.hunks).2
  have fits : tryFits set options (spec.target options.strip) spec = true := by
    simp only [tryFits, held, notCreation, within, Option.isSome_some]
  refine if_pos ?_
  simp [single, targetsFit, tryAllFits, fits]

/-- An exact diff applies exactly, whatever fuzz is allowed and however lines are
compared, and the reversed specification undoes it: every hunk is found where it
is recorded, the old text becomes the new one and becomes the old one again. -/
theorem apply_exactDiff_reversed {set : WorkingSet} {options : Options}
    {spec : Spec} {old new : String}
    (notCreation : spec.isCreation = false)
    (notDeletion : spec.isDeletion = false)
    (sameTarget :
      spec.reversed.target options.strip = spec.target options.strip)
    (oldCountable : Countable old) (newCountable : Countable new)
    (same : SameTerminator old new) (exact : ExactDiff old new spec)
    (held : set.get? (spec.target options.strip) = some old) :
    apply set [spec] options =
        (set.insert (spec.target options.strip) new,
          .ok [exactTargetReport (spec.target options.strip) spec]) ∧
      apply (set.insert (spec.target options.strip) new) [spec.reversed]
          options =
        (set,
          .ok [exactTargetReport (spec.target options.strip)
            spec.reversed]) ∧
      applySpecs? set [spec] options = some (apply set [spec] options) ∧
      applySpecs? (set.insert (spec.target options.strip) new) [spec.reversed]
          options =
        some (apply (set.insert (spec.target options.strip) new)
          [spec.reversed] options) := by
  refine ⟨apply_of_exactDiff notCreation notDeletion oldCountable newCountable
    same exact held, ?_⟩
  have edited : (set.insert (spec.target options.strip) new).get?
      (spec.reversed.target options.strip) = some new := by
    rw [sameTarget, Dict.get?_insert_self]
  have reversedEdits : spec.reversed.isCreation = false := notDeletion
  have reversedKeeps : spec.reversed.isDeletion = false := notCreation
  have undone := apply_of_exactDiff reversedEdits reversedKeeps newCountable
    oldCountable same.symm exact.reversed edited
  refine ⟨?_, applySpecs?_of_exactDiff notCreation oldCountable newCountable exact
    held, applySpecs?_of_exactDiff reversedEdits newCountable oldCountable
      exact.reversed edited⟩
  rw [undone, sameTarget, Dict.insert_insert, Dict.insert_eq_self held]

/-- A line is put in front, one is changed, and the last one is closed. -/
def sampleSpec : Spec :=
  ⟨"a/Foo.java", "b/Foo.java",
    [⟨0, 0, 1, 1, [.add "x"], false, false⟩,
      ⟨2, 2, 3, 2, [.remove "b", .add "B", .context "c"], false, false⟩,
      ⟨4, 1, 5, 1, [.remove "d", .add "d"], true, false⟩]⟩

theorem apply_exactDiff_reversed_sample :
    let old := "a\r\nb\r\nc\r\nd"
    let new := "x\r\na\r\nB\r\nc\r\nd\r\n"
    let options : Options := { maxFuzz := 2, strip := 1 }
    let set : WorkingSet := Dict.empty.insert "Foo.java" old
    ExactDiff old new sampleSpec ∧
      apply set [sampleSpec] options =
        (set.insert "Foo.java" new,
          .ok [exactTargetReport "Foo.java" sampleSpec]) ∧
      apply (set.insert "Foo.java" new) [sampleSpec.reversed] options =
        (set, .ok [exactTargetReport "Foo.java" sampleSpec.reversed]) ∧
      applySpecs? set [sampleSpec] options =
        some (apply set [sampleSpec] options) ∧
      applySpecs? (set.insert "Foo.java" new) [sampleSpec.reversed] options =
        some (apply (set.insert "Foo.java" new) [sampleSpec.reversed]
          options) := by
  intro old new options set
  have exact : ExactDiff old new sampleSpec :=
    ⟨by decide, by unfold EndsRecorded; decide⟩
  have target : sampleSpec.target options.strip = "Foo.java" := by decide
  have same : SameTerminator old new :=
    ⟨.carriageReturnLineFeed, by decide, by decide, by decide,
      Or.inr ⟨by decide, by decide⟩⟩
  have held : set.get? (sampleSpec.target options.strip) = some old := by
    rw [target, Dict.get?_insert_self]
  have applied := apply_exactDiff_reversed rfl rfl (by decide)
    (by unfold Countable; decide) (by unfold Countable; decide) same exact held
  rw [target] at applied
  exact ⟨exact, applied⟩

end Deobfuscate.Patch
