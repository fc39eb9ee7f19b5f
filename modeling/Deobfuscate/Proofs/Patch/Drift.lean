import Deobfuscate.Patch.Parser
import Deobfuscate.Proofs.Patch.MachineWords

/-!
# Drift

Edits move the lines behind them.  How far the lines that are left have moved, the
drift, is an integer that grows with the positions that headers record, while the
shift that is kept of it is a signed machine word.

A hunk that expects no lines is put where its header says, corrected by the drift,
or at the nearest place that is left for it, as long as a word holds the corrected
position.  A position that is larger comes out negative, and then lines that belong
behind the last one come before the first, or the run stops.
-/

namespace Deobfuscate.Patch

theorem wrapWord_add_wrapWord (left right : Int) :
    wrapWord (left + wrapWord right) = wrapWord (left + right) :=
  Int.add_bmod_bmod

theorem wrapWord_sub_wrapWord (left right : Int) :
    wrapWord (left - wrapWord right) = wrapWord (left - right) :=
  Int.sub_bmod_bmod

theorem isWord_wrapWord (value : Int) : isWord (wrapWord value) = true := by
  have above : -((0x10000000000000000 : Nat) / 2 : Int) ≤ wrapWord value :=
    Int.le_bmod (by decide)
  have below : wrapWord value < ((0x10000000000000000 : Nat) + 1 : Int) / 2 :=
    Int.bmod_lt (by decide)
  rw [isWord_iff, machineLimit]
  omega

theorem wrapWord_eq_self_iff {value : Int} :
    wrapWord value = value ↔ isWord value = true := by
  constructor
  · intro same
    rw [← same]
    exact isWord_wrapWord value
  · intro word
    obtain ⟨above, below⟩ := isWord_iff.1 word
    exact wrapWord_eq above below

/-- A hunk as it is tried: the file before and after it, the drift up to it and
what is reported of it. -/
structure Attempt where
  before : Progress
  drift : Int
  report : HunkReport
  after : Progress

/-- The drift behind a hunk.  A hunk that was applied ends where the lines that
are settled do; its old side ends where its header says. -/
def driftAfter (drift : Int) (report : HunkReport) (after : Progress) : Int :=
  if report.status = .failure then drift
  else after.settled.length -
    (report.hunk.oldPosition + report.hunk.oldLines.length : Nat)

/-- Hunks as they are tried one after the other, the first of which has a given
index and meets a given file and drift. -/
def Progress.attempts (options : Options) :
    Nat → Progress → Int → List Hunk → List Attempt
  | _, _, _, [] => []
  | index, progress, drift, hunk :: hunks =>
      let stepped := progress.step options index hunk
      ⟨progress, drift, stepped.2, stepped.1⟩ ::
        Progress.attempts options (index + 1) stepped.1
          (driftAfter drift stepped.2 stepped.1) hunks

/-- The hunks that are applied to lines, as they are tried. -/
def attempts (options : Options) (lines : List String) (hunks : List Hunk) :
    List Attempt :=
  Progress.attempts options 1 ⟨[], lines, 0⟩ 0 hunks

theorem map_report_attempts (options : Options) (index : Nat)
    (progress : Progress) (drift : Int) (hunks : List Hunk) :
    (Progress.attempts options index progress drift hunks).map Attempt.report =
      (Progress.run options index progress hunks).2 := by
  induction hunks generalizing index progress drift with
  | nil => rfl
  | cons hunk hunks inductionHypothesis =>
      rw [Progress.attempts, Progress.run, List.map_cons, inductionHypothesis]

/-- The file behind the last hunk that is tried is what a run ends with. -/
theorem run_fst_eq (options : Options) (index : Nat) (progress : Progress)
    (drift : Int) (hunks : List Hunk) :
    (Progress.run options index progress hunks).1 =
      ((Progress.attempts options index progress drift hunks).map
        Attempt.after).getLastD progress := by
  induction hunks generalizing index progress drift with
  | nil => rfl
  | cons hunk hunks inductionHypothesis =>
      rw [Progress.run, Progress.attempts, List.map_cons, List.getLastD_cons]
      exact inductionHypothesis ..

theorem mem_of_mem_attempts {options : Options} {index : Nat}
    {progress : Progress} {drift : Int} {hunks : List Hunk} {attempt : Attempt}
    (member : attempt ∈ Progress.attempts options index progress drift hunks) :
    attempt.report.hunk ∈ hunks := by
  have tried := (Progress.run_edited options index progress hunks).1
  rw [← map_report_attempts options index progress drift hunks] at tried
  rw [← tried]
  exact List.mem_map_of_mem (List.mem_map_of_mem member)

/-- A hunk that was applied leaves the drift in the shift, less what the cast takes
from its recorded position. -/
theorem shift_step_cases (progress : Progress) (drift : Int) (options : Options)
    (index : Nat) (hunk : Hunk) :
    (progress.step options index hunk).1.shift = progress.shift ∧
        driftAfter drift (progress.step options index hunk).2
          (progress.step options index hunk).1 = drift ∨
      (progress.step options index hunk).1.shift =
        driftAfter drift (progress.step options index hunk).2
          (progress.step options index hunk).1 +
            hunk.oldPosition - hunk.recorded := by
  cases placed : progress.place options hunk
      (hunk.recorded + progress.shift) with
  | none =>
      rw [Progress.step_of_unplaced index placed]
      exact .inl ⟨rfl, rfl⟩
  | some found =>
      obtain ⟨position, fuzz⟩ := found
      obtain ⟨kept, window, later, _, place, _, _, _, stepped⟩ :=
        Progress.step_of_placed index placed
      have applied : (if fuzz = 0 then Status.success else .fuzzed) ≠
          .failure := by
        split <;> decide
      rw [stepped, driftAfter, if_neg applied]
      simp only [List.length_append]
      generalize hunk.recorded = recorded
      exact .inr (by omega)

/-- The shift of the file under edit comes out as the same word as the drift. -/
theorem shift_step {progress : Progress} {drift : Int}
    (held : wrapWord progress.shift = wrapWord drift) (options : Options)
    (index : Nat) (hunk : Hunk) :
    wrapWord (progress.step options index hunk).1.shift =
      wrapWord (driftAfter drift (progress.step options index hunk).2
        (progress.step options index hunk).1) := by
  rcases shift_step_cases progress drift options index hunk with
    ⟨kept, same⟩ | moved
  · rw [kept, same, held]
  · have recorded : hunk.recorded = wrapWord hunk.oldPosition := rfl
    rw [moved, recorded, wrapWord_sub_wrapWord, Int.add_sub_cancel]

/-- Where a hunk is looked for comes out as the same word as its recorded position
with the drift. -/
theorem wrapWord_expected {progress : Progress} {drift : Int}
    (held : wrapWord progress.shift = wrapWord drift) (hunk : Hunk) :
    wrapWord (hunk.recorded + progress.shift) =
      wrapWord (hunk.oldPosition + drift) := by
  have recorded : hunk.recorded = wrapWord hunk.oldPosition := rfl
  rw [← wrapWord_add_wrapWord, held, wrapWord_add_wrapWord, recorded,
    Int.add_comm, wrapWord_add_wrapWord, Int.add_comm]

namespace Attempt

/-- Where a hunk that expects no lines is expected: after so many lines as its
header says, corrected by the drift. -/
def expected (attempt : Attempt) : Int :=
  attempt.report.hunk.oldStart + attempt.drift

/-- The place nearest to the expected one between the end of the hunk applied
before and the end of the file. -/
def target (attempt : Attempt) : Nat :=
  (max (attempt.before.buffer.floor : Int)
    (min attempt.expected attempt.before.buffer.lines.length)).toNat

/-- The lines of a hunk come in at its target, and its report says how far this
is from where the hunk was expected. -/
structure Exact (attempt : Attempt) : Prop where
  succeeds : attempt.report.status = .success
  lines : attempt.after.buffer.lines =
    attempt.before.buffer.lines.take attempt.target ++
      attempt.report.hunk.newTexts ++
      attempt.before.buffer.lines.drop attempt.target
  floor : attempt.after.buffer.floor =
    attempt.target + attempt.report.hunk.newTexts.length
  offset : attempt.report.offset = attempt.target - attempt.expected

/-- Trying the hunk gets by with words. -/
def Fits (options : Options) (attempt : Attempt) : Prop :=
  attempt.before.fits options attempt.report.hunk = true

end Attempt

/-- A hunk that expects no lines is put at the place nearest to where it is looked
for. -/
theorem step_insertion (progress : Progress) (options : Options) (index : Nat)
    {hunk : Hunk} (nothing : hunk.oldLines = []) :
    ∃ place : Nat,
      (place : Int) = max (progress.buffer.floor : Int)
        (min (hunk.recorded + progress.shift)
          progress.buffer.lines.length) ∧
      (progress.step options index hunk).2 =
        ⟨index, .success, 0, (0, 0), place - (hunk.recorded + progress.shift),
          hunk⟩ ∧
      (progress.step options index hunk).1.buffer.lines =
        progress.buffer.lines.take place ++ hunk.newTexts ++
          progress.buffer.lines.drop place ∧
      (progress.step options index hunk).1.buffer.floor =
        place + hunk.newTexts.length := by
  have placed : progress.place options hunk (hunk.recorded + progress.shift) =
      some ((max 0 (min (hunk.recorded + progress.shift -
        progress.settled.length) progress.pending.length)).toNat, 0) := by
    simp [Progress.place, nothing]
  obtain ⟨kept, window, later, whole, position, size, _, _, stepped⟩ :=
    Progress.step_of_placed index placed
  rw [nothing] at size
  obtain rfl := List.eq_nil_of_length_eq_zero size
  have new : replacement hunk.lines [] = hunk.newTexts := by
    have replaced := replacement_self hunk.lines
    have noOld : hunk.lines.filter HunkLine.isOld = [] := nothing
    rwa [noOld] at replaced
  have lines : progress.buffer.lines = progress.settled ++ kept ++ later := by
    simp [Progress.buffer, whole]
  have total : progress.buffer.lines.length =
      progress.settled.length + progress.pending.length := by
    simp [Progress.buffer]
  have floor : progress.buffer.floor = progress.settled.length := rfl
  refine ⟨(progress.settled ++ kept).length, ?_, ?_, ?_, ?_⟩
  · rw [List.length_append, position, total, floor]
    generalize hunk.recorded + progress.shift = expected
    omega
  · rw [stepped, List.length_append, position, if_pos rfl]
  · rw [stepped, new, lines, List.take_left, List.drop_left]
    rfl
  · rw [stepped, new]
    exact List.length_append

/-! ## Runs -/

theorem hunk_step (progress : Progress) (options : Options) (index : Nat)
    (hunk : Hunk) : (progress.step options index hunk).2.hunk = hunk := by
  rw [Progress.step]
  dsimp only
  split <;> rfl

/-- An attempt that is made of a file whose shift comes out as the same word as the
drift. -/
structure Attempt.Made (options : Options) (attempt : Attempt) : Prop where
  held : wrapWord attempt.before.shift = wrapWord attempt.drift
  made : ∃ index, attempt.before.step options index attempt.report.hunk =
    (attempt.after, attempt.report)

theorem made_of_mem_attempts {options : Options} {index : Nat}
    {progress : Progress} {drift : Int} {hunks : List Hunk} {attempt : Attempt}
    (held : wrapWord progress.shift = wrapWord drift)
    (member : attempt ∈ Progress.attempts options index progress drift hunks) :
    attempt.Made options := by
  induction hunks generalizing index progress drift with
  | nil => cases member
  | cons hunk hunks inductionHypothesis =>
      rw [Progress.attempts] at member
      rcases List.mem_cons.1 member with first | later
      · rw [first]
        exact ⟨held, index, by rw [hunk_step]⟩
      · exact inductionHypothesis (shift_step held options index hunk) later

/-- A run gets by with words just if each of its hunks does. -/
theorem runFits_iff {options : Options} {index : Nat} {progress : Progress}
    {drift : Int} {hunks : List Hunk} :
    Progress.runFits options progress hunks = true ↔
      ∀ attempt ∈ Progress.attempts options index progress drift hunks,
        attempt.Fits options := by
  induction hunks generalizing index progress drift with
  | nil => simp [Progress.runFits, Progress.attempts]
  | cons hunk hunks inductionHypothesis =>
      rw [Progress.runFits, Progress.attempts, Bool.and_eq_true,
        List.forall_mem_cons, ← (step_index progress options index hunk).1,
        inductionHypothesis]
      refine and_congr_left fun _ => ?_
      rw [Attempt.Fits, hunk_step]

theorem oldPosition_of_nothing {hunk : Hunk} (nothing : hunk.oldLines = []) :
    hunk.oldPosition = hunk.oldStart := by
  simp [Hunk.oldPosition, nothing]

theorem isWord_of_fits {progress : Progress} {options : Options} {hunk : Hunk}
    (fits : progress.fits options hunk = true) :
    isWord (hunk.recorded + progress.shift) = true := by
  unfold Progress.fits at fits
  simp only [Bool.and_eq_true] at fits
  exact fits.1.1.1

/-- An insertion that gets by with words goes where it should just if a word holds
its expected position. -/
theorem Attempt.Made.exact_iff {options : Options} {attempt : Attempt}
    (made : attempt.Made options) (fits : attempt.Fits options)
    (nothing : attempt.report.hunk.oldLines = []) :
    attempt.Exact ↔ isWord attempt.expected = true := by
  obtain ⟨held, index, stepped⟩ := made
  obtain ⟨place, nearest, report, lines, floor⟩ :=
    step_insertion attempt.before options index nothing
  rw [stepped] at report lines floor
  have offset := congrArg HunkReport.offset report
  have looked : wrapWord attempt.expected =
      attempt.report.hunk.recorded + attempt.before.shift := by
    rw [← wrapWord_eq_self_iff.2 (isWord_of_fits fits), wrapWord_expected held,
      oldPosition_of_nothing nothing]
    rfl
  rw [← looked] at nearest offset
  have ordered := attempt.before.floor_le_length
  have target : (attempt.target : Int) = max (attempt.before.buffer.floor : Int)
      (min attempt.expected attempt.before.buffer.lines.length) := by
    rw [Attempt.target]
    omega
  rw [← wrapWord_eq_self_iff]
  constructor
  · intro exact
    have same : place = attempt.target :=
      Nat.add_right_cancel (floor.symm.trans exact.floor)
    have distance := offset.symm.trans exact.offset
    rw [same] at distance
    exact (Int.sub_right_inj _).1 distance
  · intro same
    rw [same] at nearest offset
    obtain rfl : place = attempt.target :=
      Int.natCast_inj.1 (nearest.trans target.symm)
    exact ⟨congrArg HunkReport.status report, lines, floor, offset⟩

/-- The lines that a file has under edit, at most: those of the file and those of
all hunks. -/
def room (lines : List String) (hunks : List Hunk) : Nat :=
  lines.length + (hunks.flatMap Hunk.lines).length

theorem length_oldLines_le (hunk : Hunk) :
    hunk.oldLines.length ≤ hunk.lines.length :=
  List.length_filter_le _ _

theorem oldPosition_le (hunk : Hunk) : hunk.oldPosition ≤ hunk.oldStart := by
  rw [Hunk.oldPosition]
  split <;> omega

/-- One hunk adds its lines at most. -/
theorem length_step_le (progress : Progress) (options : Options) (index : Nat)
    (hunk : Hunk) :
    (progress.step options index hunk).1.buffer.lines.length ≤
      progress.buffer.lines.length + hunk.lines.length := by
  cases placed : progress.place options hunk
      (hunk.recorded + progress.shift) with
  | none =>
      rw [Progress.step_of_unplaced index placed]
      exact Nat.le_add_right _ _
  | some found =>
      obtain ⟨position, fuzz⟩ := found
      obtain ⟨kept, window, later, whole, _, _, _, meets, stepped⟩ :=
        Progress.step_of_placed index placed
      have added := meets.length_new
      have bound := List.length_filter_le HunkLine.isNew hunk.lines
      rw [stepped]
      simp only [Progress.buffer, whole, List.length_append]
      omega

def Moderate (limit room : Nat) (drift : Int) : Prop :=
  -(limit + room : Nat) ≤ drift ∧ drift ≤ room

theorem moderate_driftAfter {limit room : Nat} {drift : Int}
    {report : HunkReport} {after : Progress} (moderate : Moderate limit room drift)
    (starts : report.hunk.oldStart ≤ limit)
    (size : report.hunk.lines.length ≤ room)
    (fits : after.buffer.lines.length ≤ room) :
    Moderate limit room (driftAfter drift report after) := by
  rw [driftAfter]
  split
  · exact moderate
  · have position := oldPosition_le report.hunk
    have old := length_oldLines_le report.hunk
    have ends := after.floor_le_length
    simp only [Progress.buffer] at ends fits
    exact ⟨by omega, by omega⟩

/-- A search from an expected position within bounds gets by with words. -/
theorem searchFits_of_bounds {progress : Progress} {options : Options}
    {hunk : Hunk} {expected : Int} {limit bound : Nat}
    (above : -(limit + bound : Nat) ≤ expected)
    (below : expected ≤ (limit + bound : Nat))
    (total : progress.buffer.lines.length ≤ bound)
    (small : 2 * limit + 3 * bound < machineLimit) :
    progress.searchFits options hunk expected = true := by
  rw [Progress.buffer, List.length_append] at total
  have last : ∀ away : Nat, away ≤ limit + 2 * bound →
      isWord (expected + away) = true ∧ isWord (expected - away) = true := by
    intro away near
    rw [isWord_iff, isWord_iff]
    omega
  unfold Progress.searchFits
  dsimp only
  rw [Bool.or_eq_true, Bool.and_eq_true, Bool.and_eq_true, decide_eq_true_eq,
    isWord_iff]
  by_cases short : (progress.settled.length : Int) + progress.pending.length -
      hunk.oldLines.length < progress.settled.length
  · exact .inl short
  · refine .inr (and_assoc.2 ⟨?_, ?_⟩)
    · unfold distance
      omega
    · split
      · rename_i position placed
        have fits := (Progress.place_eq_some placed).1
        refine last _ ?_
        unfold distance
        omega
      · refine last _ ?_
        unfold distance
        omega

/-- A hunk gets by with words if its recorded position and the shifts before and
after it are within bounds. -/
theorem fits_of_moderate {progress : Progress} {options : Options}
    {hunk : Hunk} {limit bound : Nat} (starts : hunk.oldStart ≤ limit)
    (moderate : Moderate limit bound progress.shift)
    (total : progress.buffer.lines.length ≤ bound)
    (next : Moderate limit bound (progress.step options 0 hunk).1.shift)
    (small : 2 * limit + 3 * bound < machineLimit) :
    progress.fits options hunk = true := by
  have position := oldPosition_le hunk
  have recorded : hunk.recorded = hunk.oldPosition := recorded_eq (by omega)
  obtain ⟨shiftAbove, shiftBelow⟩ := moderate
  have above : -(limit + bound : Nat) ≤ hunk.recorded + progress.shift := by
    omega
  have below : hunk.recorded + progress.shift ≤ (limit + bound : Nat) := by
    omega
  have search : progress.searchFits options hunk
      (hunk.recorded + progress.shift) = true :=
    searchFits_of_bounds above below total small
  have offset : isWord (progress.step options 0 hunk).2.offset = true := by
    cases placed : progress.place options hunk
        (hunk.recorded + progress.shift) with
    | none =>
        rw [Progress.step_of_unplaced 0 placed]
        rfl
    | some found =>
        obtain ⟨place, fuzz⟩ := found
        obtain ⟨kept, window, later, whole, there, _, _, _, stepped⟩ :=
          Progress.step_of_placed 0 placed
        rw [Progress.buffer, whole] at total
        simp only [List.length_append] at total
        rw [stepped, isWord_iff]
        dsimp only
        generalize hunk.recorded + progress.shift = expected at above below
        omega
  obtain ⟨nextAbove, nextBelow⟩ := next
  unfold Progress.fits
  dsimp only
  rw [search, offset, Bool.or_true, Bool.and_true, Bool.and_true,
    Bool.and_eq_true, isWord_iff, isWord_iff]
  generalize hunk.recorded + progress.shift = expected at above below
  omega

/-- The shift is the drift as long as recorded positions are below the limit. -/
theorem shift_step_of_small (progress : Progress) (options : Options)
    (index : Nat) {hunk : Hunk} (small : hunk.oldStart < machineLimit) :
    (progress.step options index hunk).1.shift =
      driftAfter progress.shift (progress.step options index hunk).2
        (progress.step options index hunk).1 := by
  rcases shift_step_cases progress progress.shift options index hunk with
    ⟨kept, same⟩ | moved
  · rw [kept, same]
  · rw [moved, recorded_eq (Nat.lt_of_le_of_lt (oldPosition_le hunk) small),
      Int.add_sub_cancel]

theorem fits_of_mem_attempts {options : Options} {index limit bound : Nat}
    {progress : Progress} {hunks : List Hunk} {attempt : Attempt}
    (moderate : Moderate limit bound progress.shift)
    (starts : ∀ hunk ∈ hunks, hunk.oldStart ≤ limit)
    (total : room progress.buffer.lines hunks ≤ bound)
    (small : 2 * limit + 3 * bound < machineLimit)
    (member : attempt ∈
      Progress.attempts options index progress progress.shift hunks) :
    attempt.Fits options ∧ attempt.before.shift = attempt.drift := by
  induction hunks generalizing index progress with
  | nil => cases member
  | cons hunk hunks inductionHypothesis =>
      obtain ⟨first, later⟩ := List.forall_mem_cons.1 starts
      simp only [room, List.flatMap_cons, List.length_append]
        at total inductionHypothesis
      have longer := length_step_le progress options index hunk
      have next : Moderate limit bound
          (progress.step options index hunk).1.shift := by
        rw [shift_step_of_small progress options index (by omega)]
        refine moderate_driftAfter moderate ?_ ?_ ?_
        · rwa [hunk_step]
        · rw [hunk_step]
          omega
        · omega
      rw [Progress.attempts,
        ← shift_step_of_small progress options index (by omega)] at member
      have total : progress.buffer.lines.length ≤ bound := by omega
      rcases List.mem_cons.1 member with here | there
      · rw [here]
        refine ⟨?_, rfl⟩
        rw [Attempt.Fits, hunk_step]
        rw [(step_index progress options index hunk).1] at next
        exact fits_of_moderate first moderate total next small
      · exact inductionHypothesis next later (by omega) there

/-- Hunks are tried until one does not get by with words, and this is where editing
in place stops that checks each result to be a machine word.  If they all do, those
that expect no lines go, and are reported to go, where their headers say, corrected
by the drift, or to the nearest place that is left for them, just if a word holds
the corrected position.  All of this is so if the recorded positions leave room for
the lines below half the limit of a word. -/
theorem insertion_exact_iff (options : Options) (lines : List String)
    (hunks : List Hunk) :
    applyHunks? options lines hunks =
        (Buffer.runWords? options 1 ⟨lines, 0, 0⟩ hunks).map
          (fun edited => (edited.1.lines, edited.2)) ∧
      (applyHunks? options lines hunks = none ↔
        ∃ attempt ∈ attempts options lines hunks, ¬ attempt.Fits options) ∧
      (∀ after reports,
        applyHunks? options lines hunks = some (after, reports) →
          reports = (attempts options lines hunks).map Attempt.report ∧
            after = (((attempts options lines hunks).map
              Attempt.after).getLastD ⟨[], lines, 0⟩).buffer.lines ∧
            ∀ attempt ∈ attempts options lines hunks,
              attempt.report.hunk.oldLines = [] →
                (attempt.Exact ↔ isWord attempt.expected = true)) ∧
      ((∀ hunk ∈ hunks,
          2 * hunk.oldStart + 3 * room lines hunks < machineLimit) →
        (∃ after reports,
          applyHunks? options lines hunks = some (after, reports)) ∧
        ∀ attempt ∈ attempts options lines hunks,
          attempt.report.hunk.oldLines = [] → attempt.Exact) := by
  have fit_iff : Progress.runFits options ⟨[], lines, 0⟩ hunks = true ↔
      ∀ attempt ∈ attempts options lines hunks, attempt.Fits options :=
    runFits_iff
  have made : ∀ attempt ∈ attempts options lines hunks,
      attempt.Made options := fun _ => made_of_mem_attempts rfl
  refine ⟨applyHunks?_eq_runWords? options lines hunks, ?_, ?_, ?_⟩
  · rw [applyHunks?, ite_eq_right_iff, fit_iff]
    simp
  · intro after reports ran
    rw [applyHunks?, Option.ite_none_right_eq_some, fit_iff] at ran
    obtain ⟨fits, ended⟩ := ran
    obtain ⟨rfl, rfl⟩ := Prod.mk.inj (Option.some.inj ended)
    refine ⟨(map_report_attempts options 1 ⟨[], lines, 0⟩ 0 hunks).symm,
      congrArg (Buffer.lines ∘ Progress.buffer)
        (run_fst_eq options 1 ⟨[], lines, 0⟩ 0 hunks), ?_⟩
    intro attempt member nothing
    exact (made attempt member).exact_iff (fits attempt member) nothing
  · intro small
    have bounded : ∀ attempt ∈ attempts options lines hunks,
        attempt.Fits options ∧ attempt.before.shift = attempt.drift := by
      intro attempt member
      have one := small _ (mem_of_mem_attempts member)
      have start : Moderate ((machineLimit - 3 * room lines hunks - 1) / 2)
          (room lines hunks) 0 :=
        ⟨by omega, by omega⟩
      have total : room (Progress.buffer ⟨[], lines, 0⟩).lines hunks ≤
          room lines hunks :=
        Nat.le_refl _
      refine fits_of_mem_attempts start ?_ total (by omega) member
      intro hunk member
      have bound := small hunk member
      omega
    have returns : Progress.runFits options ⟨[], lines, 0⟩ hunks = true :=
      fit_iff.2 fun attempt member => (bounded attempt member).1
    refine ⟨⟨_, _, if_pos returns⟩, fun attempt member nothing => ?_⟩
    obtain ⟨fits, shift⟩ := bounded attempt member
    refine ((made attempt member).exact_iff fits nothing).2 ?_
    have word := isWord_of_fits fits
    have start := oldPosition_of_nothing nothing
    have one := small _ (mem_of_mem_attempts member)
    rwa [recorded_eq (by omega), shift, start] at word

/-- A line is put in front, and another one, which is recorded far behind the last
line, at the end. -/
def outlyingHunks : List Hunk :=
  [⟨0, 0, 1, 1, [.add "x"], false, false⟩,
    ⟨90, 0, 92, 1, [.add "y"], false, false⟩]

theorem insertion_exact_iff_outlying :
    (∀ hunk ∈ outlyingHunks,
        2 * hunk.oldStart + 3 * room ["a"] outlyingHunks < machineLimit) ∧
      ∃ after reports,
        applyHunks? {} ["a"] outlyingHunks = some (after, reports) ∧
        reports = (attempts {} ["a"] outlyingHunks).map Attempt.report ∧
        ∃ attempt ∈ attempts {} ["a"] outlyingHunks,
          attempt.report.hunk.oldLines = [] ∧ attempt.expected = 91 ∧
            attempt.target = 2 ∧ attempt.Exact := by
  have small : ∀ hunk ∈ outlyingHunks,
      2 * hunk.oldStart + 3 * room ["a"] outlyingHunks < machineLimit := by
    decide
  let attempt : Attempt :=
    ⟨⟨["x"], ["a"], 1⟩, 1,
      ⟨2, .success, 0, (0, 0), -89,
        ⟨90, 0, 92, 1, [.add "y"], false, false⟩⟩,
      ⟨["x", "a", "y"], [], -87⟩⟩
  have tried : (attempts {} ["a"] outlyingHunks)[1]? = some attempt := rfl
  have member := List.mem_of_getElem? tried
  obtain ⟨_, _, reported, bounded⟩ :=
    insertion_exact_iff {} ["a"] outlyingHunks
  obtain ⟨⟨after, reports, returned⟩, exact⟩ := bounded small
  exact ⟨small, after, reports, returned, (reported after reports returned).1,
    attempt, member, rfl, rfl, rfl, exact attempt member rfl⟩

/-- A line is recorded farther behind the last one than a signed word can tell. -/
def beyondWord : Hunk :=
  ⟨9223372036854775908, 0, 2, 1, [.add "b"], false, false⟩

def beyondWordDiff : String :=
  "--- Foo.java\n+++ Foo.java\n@@ -9223372036854775908,0 +2 @@\n+b\n"

def beyondWordSpec : Spec :=
  ⟨"Foo.java", "Foo.java", [beyondWord]⟩

/-- A line that is recorded far behind the last one comes before the first, and the
distance that is reported has the wrong sign. -/
theorem insertion_behind_end_comes_first :
    let set : WorkingSet := Dict.empty.insert "Foo.java" "a\n"
    parse beyondWordDiff "p.patch" = .ok [beyondWordSpec] ∧
      (applySpecs? set [beyondWordSpec] {}).map (·.1.get? "Foo.java") =
        some (some "b\na\n") ∧
      applyHunks? {} ["a"] [beyondWord] = some (["b", "a"],
        [⟨1, .success, 0, (0, 0), 9223372036854775708, beyondWord⟩]) ∧
      ∃ attempt, attempts {} ["a"] [beyondWord] = [attempt] ∧
        attempt.target = 1 ∧
        attempt.target - attempt.expected = -9223372036854775907 ∧
        ¬ attempt.Exact := by
  refine ⟨by rfl, by rfl, by decide, _, rfl, by decide, by decide, ?_⟩
  intro exact
  exact absurd exact.offset (by decide)

-- Where no word holds the shift behind the line, the run stops.
example : applyHunks? {} ["a"]
    [{ beyondWord with oldStart := 9223372036854775809 }] = none := by
  decide

end Deobfuscate.Patch
