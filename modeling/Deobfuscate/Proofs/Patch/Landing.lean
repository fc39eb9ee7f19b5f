import Deobfuscate.Patch.WorkingSet
import Deobfuscate.Proofs.Patch.OutwardSearch

/-!
# Where hunks land

Hunks that are applied one after the other replace windows of the lines they
are applied to: each that is not reported as failed replaces one window, the
windows come in the order of the hunks and without overlap, and everything
between them stays.

The hunks can also be carried out in place, on one list of lines with a floor
below which nothing may be touched any more.  No line outside the list is asked
for on the way, and the lines and reports are the same.
-/

namespace Deobfuscate.Patch

/-- The lines of a hunk meet a window, so many context lines of which differ, and
leave other lines in its place: context lines keep the text they have in the
window, removed lines go and added lines come. -/
inductive Meets (canonical : Bool) :
    List HunkLine → List String → List String → Nat → Prop
  | done : Meets canonical [] [] [] 0
  | same {text actual : String} {lines : List HunkLine}
      {window new : List String} {count : Nat}
      (equal : sameLine canonical actual text = true)
      (later : Meets canonical lines window new count) :
      Meets canonical (.context text :: lines) (actual :: window)
        (actual :: new) count
  | differing {text actual : String} {lines : List HunkLine}
      {window new : List String} {count : Nat}
      (different : sameLine canonical actual text = false)
      (later : Meets canonical lines window new count) :
      Meets canonical (.context text :: lines) (actual :: window)
        (actual :: new) (count + 1)
  | removed {text actual : String} {lines : List HunkLine}
      {window new : List String} {count : Nat}
      (equal : sameLine canonical actual text = true)
      (later : Meets canonical lines window new count) :
      Meets canonical (.remove text :: lines) (actual :: window) new count
  | added {text : String} {lines : List HunkLine}
      {window new : List String} {count : Nat}
      (later : Meets canonical lines window new count) :
      Meets canonical (.add text :: lines) window (text :: new) count

theorem mismatches_cons_eq_some {canonical : Bool} {actual : String}
    {window : List String} {line : HunkLine} {old : List HunkLine}
    {count : Nat}
    (counted : mismatches canonical (actual :: window) (line :: old) =
      some count) :
    sameLine canonical actual line.text = true ∧
        mismatches canonical window old = some count ∨
      sameLine canonical actual line.text = false ∧ line.isContext = true ∧
        ∃ fewer, mismatches canonical window old = some fewer ∧
          fewer + 1 = count := by
  rw [mismatches_cons, agrees] at counted
  cases equal : sameLine canonical actual line.text with
  | true => exact Or.inl ⟨rfl, by simpa [equal] using counted⟩
  | false =>
      rw [if_neg (by simp [equal])] at counted
      split at counted
      · rename_i context
        exact Or.inr ⟨rfl, context, Option.map_eq_some_iff.1 counted⟩
      · cases counted

/-- A window whose differing context lines are counted meets its hunk. -/
theorem meets_replacement {canonical : Bool} {lines : List HunkLine}
    {window : List String} {count : Nat}
    (full : window.length = (lines.filter HunkLine.isOld).length)
    (counted : mismatches canonical window (lines.filter HunkLine.isOld) =
      some count) :
    Meets canonical lines window (replacement lines window) count := by
  induction lines generalizing window count with
  | nil =>
      obtain rfl := List.eq_nil_of_length_eq_zero full
      cases counted
      exact .done
  | cons line lines inductionHypothesis =>
      cases line with
      | add text => exact .added (inductionHypothesis full counted)
      | context text =>
          cases window with
          | nil => cases full
          | cons actual window =>
              have shorter := Nat.succ.inj full
              rcases mismatches_cons_eq_some counted with
                ⟨equal, rest⟩ | ⟨different, _, fewer, rest, rfl⟩
              · exact .same equal (inductionHypothesis shorter rest)
              · exact .differing different (inductionHypothesis shorter rest)
      | remove text =>
          cases window with
          | nil => cases full
          | cons actual window =>
              have shorter := Nat.succ.inj full
              rcases mismatches_cons_eq_some counted with
                ⟨equal, rest⟩ | ⟨_, context, _⟩
              · exact .removed equal (inductionHypothesis shorter rest)
              · cases context

/-- As many lines come in as the hunk has on its new side. -/
theorem Meets.length_new {canonical : Bool} {lines : List HunkLine}
    {window new : List String} {count : Nat}
    (meets : Meets canonical lines window new count) :
    new.length = (lines.filter HunkLine.isNew).length := by
  induction meets with
  | done => rfl
  | same equal later inductionHypothesis =>
      exact congrArg Nat.succ inductionHypothesis
  | differing different later inductionHypothesis =>
      exact congrArg Nat.succ inductionHypothesis
  | removed equal later inductionHypothesis => exact inductionHypothesis
  | added later inductionHypothesis =>
      exact congrArg Nat.succ inductionHypothesis

/-- Lines are edited as reported: those of each hunk that found a window are
replaced in it, in order, and everything else stays. -/
inductive Edited (options : Options) :
    List HunkReport → List String → List String → Prop
  | rest (lines : List String) : Edited options [] lines lines
  | failed {report : HunkReport} {reports : List HunkReport}
      {lines new : List String} (fails : report.status = .failure)
      (later : Edited options reports lines new) :
      Edited options (report :: reports) lines new
  | landed {report : HunkReport} {reports : List HunkReport}
      {lines new : List String} (kept window replaced : List String)
      (succeeds : report.status =
        if report.fuzz = 0 then .success else .fuzzed)
      (allowed : report.fuzz ≤ options.maxFuzz)
      (size : window.length = report.hunk.oldLines.length)
      (meets : Meets options.canonicalizeAccess report.hunk.lines window
        replaced report.fuzz)
      (later : Edited options reports lines new) :
      Edited options (report :: reports) (kept ++ window ++ lines)
        (kept ++ replaced ++ new)

namespace Progress

variable {progress : Progress} {options : Options} {hunk : Hunk}

/-- Where a hunk is put, its old side is there. -/
theorem place_eq_some {expected : Int} {position fuzz : Nat}
    (placed : progress.place options hunk expected = some (position, fuzz)) :
    position + hunk.oldLines.length ≤ progress.pending.length ∧
      fuzz ≤ options.maxFuzz ∧
      mismatches options.canonicalizeAccess
        ((progress.pending.drop position).take hunk.oldLines.length)
        hunk.oldLines = some fuzz := by
  unfold place at placed
  dsimp only at placed
  split at placed
  · rename_i empty
    have nothing : hunk.oldLines = [] := List.isEmpty_iff.1 empty
    obtain ⟨rfl, rfl⟩ := Prod.mk.inj (Option.some.inj placed)
    rw [nothing]
    refine ⟨?_, Nat.zero_le _, by simp [mismatches]⟩
    rw [List.length_nil]
    omega
  · rename_i filled
    have found : findWindow options (progress.pending.drop 0) hunk.oldLines
        (expected - progress.settled.length - (0 : Nat)) =
          some (position, fuzz) := by
      simpa using placed
    have best := best_of_findWindow found
    rw [Nat.zero_add] at best
    exact ⟨best.admissible.fits, best.allowed, (mismatches_eq_some_iff _).2
      ⟨best.admissible.removed, best.exact⟩⟩

/-- A hunk that finds no window changes nothing. -/
theorem step_of_unplaced (index : Nat)
    (unplaced : progress.place options hunk
      (hunk.recorded + progress.shift) = none) :
    progress.step options index hunk =
      (progress, ⟨index, .failure, options.maxFuzz, (0, options.maxFuzz), 0,
        hunk⟩) := by
  rw [step]
  simp only [unplaced]

/-- A hunk that finds a window replaces it in what is left and settles the lines
up to its end. -/
theorem step_of_placed (index : Nat) {position fuzz : Nat}
    (placed : progress.place options hunk
      (hunk.recorded + progress.shift) = some (position, fuzz)) :
    ∃ kept window later,
      progress.pending = kept ++ window ++ later ∧ kept.length = position ∧
        window.length = hunk.oldLines.length ∧ fuzz ≤ options.maxFuzz ∧
        Meets options.canonicalizeAccess hunk.lines window
          (replacement hunk.lines window) fuzz ∧
        progress.step options index hunk =
          (⟨progress.settled ++ kept ++ replacement hunk.lines window, later,
              (progress.settled.length + position : Nat) +
                (replacement hunk.lines window).length -
                  hunk.oldLines.length - hunk.recorded⟩,
            ⟨index, if fuzz = 0 then .success else .fuzzed, fuzz, (0, fuzz),
              (progress.settled.length + position : Nat) -
                (hunk.recorded + progress.shift), hunk⟩) := by
  obtain ⟨fits, allowed, counted⟩ := place_eq_some placed
  have size : ((progress.pending.drop position).take
      hunk.oldLines.length).length = hunk.oldLines.length := by
    rw [List.length_take, List.length_drop]
    omega
  refine ⟨progress.pending.take position,
    (progress.pending.drop position).take hunk.oldLines.length,
    progress.pending.drop (position + hunk.oldLines.length), ?_,
    by simp; omega, size, allowed, meets_replacement size counted, ?_⟩
  · rw [List.append_assoc, ← List.drop_drop, List.take_append_drop,
      List.take_append_drop]
  · rw [step]
    simp only [placed]

end Progress

/-! ## All hunks -/

/-- The lines that are left are edited as reported, behind those that are
settled. -/
theorem Progress.run_edited (options : Options) (index : Nat)
    (progress : Progress) (hunks : List Hunk) :
    (Progress.run options index progress hunks).2.map HunkReport.hunk = hunks ∧
      (Progress.run options index progress hunks).2.map HunkReport.index =
        List.range' index hunks.length ∧
      ∃ new,
        (Progress.run options index progress hunks).1.settled ++
            (Progress.run options index progress hunks).1.pending =
          progress.settled ++ new ∧
        Edited options (Progress.run options index progress hunks).2
          progress.pending new := by
  induction hunks generalizing index progress with
  | nil => exact ⟨rfl, rfl, progress.pending, rfl, .rest progress.pending⟩
  | cons hunk hunks inductionHypothesis =>
      rw [Progress.run]
      cases placed : progress.place options hunk
          (hunk.recorded + progress.shift) with
      | none =>
          rw [Progress.step_of_unplaced index placed]
          obtain ⟨same, numbered, new, whole, edited⟩ :=
            inductionHypothesis (index + 1) progress
          refine ⟨?_, ?_, new, whole, .failed rfl edited⟩
          · rw [List.map_cons, same]
          · rw [List.map_cons, numbered]
            rfl
      | some window =>
          obtain ⟨position, fuzz⟩ := window
          obtain ⟨kept, window, later, whole, _, size, allowed, meets,
            stepped⟩ := Progress.step_of_placed index placed
          obtain ⟨same, numbered, new, ends, edited⟩ :=
            inductionHypothesis (index + 1) (progress.step options index hunk).1
          rw [stepped] at same numbered ends edited ⊢
          refine ⟨?_, ?_, kept ++ replacement hunk.lines window ++ new, ?_, ?_⟩
          · rw [List.map_cons, same]
          · rw [List.map_cons, numbered]
            rfl
          · simpa using ends
          · rw [whole]
            exact .landed kept window _ rfl allowed size meets edited

/-- A file under edit in one piece: its lines, how many of them no later hunk may
touch, and how far edits have moved the others. -/
structure Buffer where
  lines : List String
  floor : Nat
  shift : Int
  deriving DecidableEq, Repr

/-- The number between two bounds that is nearest to a given one, if the lower
bound is not above the upper one. -/
def clamp? (lower upper value : Int) : Option Int :=
  if lower ≤ upper then some (max lower (min value upper)) else none

def replacement? : List HunkLine → List String → Option (List String)
  | [], _ => some []
  | .context _ :: lines, window => do
      let actual ← window.head?
      return actual :: (← replacement? lines window.tail)
  | .remove _ :: lines, window => replacement? lines window.tail
  | .add text :: lines, window => do
      return text :: (← replacement? lines window)

/-- Where a hunk goes and at which fuzz, if it goes anywhere. -/
def Buffer.place? (buffer : Buffer) (options : Options) (hunk : Hunk)
    (expected : Int) : Option (Option (Nat × Nat)) :=
  if hunk.oldLines.isEmpty then do
    let position ← clamp? buffer.floor buffer.lines.length expected
    return some (position.toNat, 0)
  else
    searchOutward? options buffer.lines hunk.oldLines expected buffer.floor

/-- Apply a hunk in place; `none` if a line outside the buffer is asked for. -/
def Buffer.step? (buffer : Buffer) (options : Options) (index : Nat)
    (hunk : Hunk) : Option (Buffer × HunkReport) := do
  let size := hunk.oldLines.length
  let expected := hunk.recorded + buffer.shift
  match ← buffer.place? options hunk expected with
  | none =>
      return (buffer,
        ⟨index, .failure, options.maxFuzz, (0, options.maxFuzz), 0, hunk⟩)
  | some (position, fuzz) =>
      let window ← slice? buffer.lines position size
      let new ← replacement? hunk.lines window
      return (
        { lines := buffer.lines.take position ++ new ++
            buffer.lines.drop (position + size)
          floor := position + new.length
          shift := position + new.length - size - hunk.recorded },
        { index
          status := if fuzz = 0 then .success else .fuzzed
          fuzz
          attempted := (0, fuzz)
          offset := position - expected
          hunk })

/-- Apply hunks in place, the first of which has a given index. -/
def Buffer.run? (options : Options) :
    Nat → Buffer → List Hunk → Option (Buffer × List HunkReport)
  | _, buffer, [] => some (buffer, [])
  | index, buffer, hunk :: hunks => do
      let (buffer, report) ← buffer.step? options index hunk
      let (buffer, reports) ← Buffer.run? options (index + 1) buffer hunks
      return (buffer, report :: reports)

/-- The settled lines stand before the pending ones, with the floor between
them. -/
def Progress.buffer (progress : Progress) : Buffer :=
  ⟨progress.settled ++ progress.pending, progress.settled.length,
    progress.shift⟩

theorem Meets.replacement?_eq_some {canonical : Bool} {lines : List HunkLine}
    {window new : List String} {count : Nat}
    (meets : Meets canonical lines window new count) :
    replacement? lines window = some new := by
  induction meets with
  | done => rfl
  | same equal later inductionHypothesis =>
      simp [replacement?, inductionHypothesis]
  | differing different later inductionHypothesis =>
      simp [replacement?, inductionHypothesis]
  | removed equal later inductionHypothesis => exact inductionHypothesis
  | added later inductionHypothesis =>
      simp [replacement?, inductionHypothesis]

namespace Progress

variable (progress : Progress) (options : Options)

theorem floor_le_length :
    progress.buffer.floor ≤ progress.buffer.lines.length := by
  simp [buffer]

theorem place?_buffer (hunk : Hunk) (expected : Int) :
    progress.buffer.place? options hunk expected =
      some ((progress.place options hunk expected).map fun found =>
        (progress.settled.length + found.1, found.2)) := by
  have pending : progress.buffer.lines.drop progress.buffer.floor =
      progress.pending := by
    simp [buffer]
  unfold Buffer.place? place
  dsimp only
  split
  · have ordered :
        (progress.buffer.floor : Int) ≤ progress.buffer.lines.length := by
      exact_mod_cast progress.floor_le_length
    rw [clamp?, if_pos ordered]
    have bounded : (max (progress.buffer.floor : Int)
        (min expected progress.buffer.lines.length)).toNat =
          progress.settled.length +
            (max 0 (min (expected - progress.settled.length)
              progress.pending.length)).toNat := by
      simp only [buffer, List.length_append]
      omega
    exact congrArg (fun position => some (some (position, 0))) bounded
  · rw [searchOutward?_eq, pending]
    rfl

theorem slice?_append (before window later : List String) :
    slice? (before ++ window ++ later) before.length window.length =
      some window := by
  simp [slice?]

theorem step?_buffer (index : Nat) (hunk : Hunk) :
    progress.buffer.step? options index hunk =
      some ((progress.step options index hunk).1.buffer,
        (progress.step options index hunk).2) := by
  have sameShift : progress.buffer.shift = progress.shift := rfl
  unfold Buffer.step?
  dsimp only
  rw [place?_buffer, sameShift]
  cases placed : progress.place options hunk
      (hunk.recorded + progress.shift) with
  | none =>
      rw [step_of_unplaced index placed]
      rfl
  | some found =>
      obtain ⟨position, fuzz⟩ := found
      obtain ⟨kept, window, later, whole, place, size, _, meets, stepped⟩ :=
        step_of_placed index placed
      have lines : progress.buffer.lines =
          (progress.settled ++ kept) ++ window ++ later := by
        simp [buffer, whole]
      have start : progress.settled.length + position =
          (progress.settled ++ kept).length := by
        rw [List.length_append, place]
      have sliced : slice? progress.buffer.lines
          (progress.settled.length + position) hunk.oldLines.length =
            some window := by
        rw [lines, start, ← size]
        exact slice?_append _ window later
      have left : progress.buffer.lines.take
          (progress.settled.length + position) = progress.settled ++ kept := by
        rw [lines, start, List.append_assoc, List.take_left]
      have right : progress.buffer.lines.drop
          (progress.settled.length + position + hunk.oldLines.length) =
            later := by
        rw [lines, start, ← size, ← List.length_append, List.drop_left]
      rw [stepped]
      simp only [Option.map_some, Option.bind_eq_bind, Option.bind_some, sliced,
        meets.replacement?_eq_some, left, right]
      simp only [buffer, start, List.length_append]
      rfl

theorem run?_buffer (index : Nat) (hunks : List Hunk) :
    Buffer.run? options index progress.buffer hunks =
      some ((Progress.run options index progress hunks).1.buffer,
        (Progress.run options index progress hunks).2) := by
  induction hunks generalizing index progress with
  | nil => rfl
  | cons hunk hunks inductionHypothesis =>
      rw [Buffer.run?, step?_buffer]
      simp only [Option.bind_eq_bind, Option.bind_some, inductionHypothesis]
      rfl

end Progress

/-- Editing in place evaluates where the sorted search does not. -/
theorem applyHunks_eq_run? (options : Options) (lines : List String)
    (hunks : List Hunk) :
    applyHunks options lines hunks =
      (Buffer.run? options 1 ⟨lines, 0, 0⟩ hunks).elim ([], []) fun edited =>
        (edited.1.lines, edited.2) := by
  have ran := Progress.run?_buffer ⟨[], lines, 0⟩ options 1 hunks
  have start : Progress.buffer ⟨[], lines, 0⟩ = ⟨lines, 0, 0⟩ := rfl
  rw [← start, ran]
  rfl

/-- Hunks land on windows of the lines, in order and without overlap: there is
one report for each hunk, in order, each hunk that is not reported as failed
replaces a window that it meets with the number of differing context lines that
is reported, and everything else stays.  The same comes of editing in place,
which never asks for a line outside the buffer and keeps the floor within it. -/
theorem applyHunks_edited (options : Options) (lines : List String)
    (hunks : List Hunk) :
    (applyHunks options lines hunks).2.map HunkReport.hunk = hunks ∧
      (applyHunks options lines hunks).2.map HunkReport.index =
        List.range' 1 hunks.length ∧
      Edited options (applyHunks options lines hunks).2 lines
        (applyHunks options lines hunks).1 ∧
      ∃ buffer,
        Buffer.run? options 1 ⟨lines, 0, 0⟩ hunks =
            some (buffer, (applyHunks options lines hunks).2) ∧
          buffer.lines = (applyHunks options lines hunks).1 ∧
          buffer.floor ≤ buffer.lines.length := by
  obtain ⟨same, numbered, new, whole, edited⟩ :=
    Progress.run_edited options 1 ⟨[], lines, 0⟩ hunks
  refine ⟨same, numbered, ?_, _,
    Progress.run?_buffer ⟨[], lines, 0⟩ options 1 hunks, rfl,
    Progress.floor_le_length _⟩
  rw [List.nil_append] at whole
  rw [← whole] at edited
  exact edited

end Deobfuscate.Patch
