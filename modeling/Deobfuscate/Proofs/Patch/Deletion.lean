import Deobfuscate.Proofs.Patch.Creation
import Deobfuscate.Proofs.Patch.ExactDiff
import Deobfuscate.Proofs.Patch.HigherFuzz

/-!
# What a deletion discards

A specification that removes a file is carried out as soon as its hunks find
their windows, whatever they leave of the text.  This module says when they
leave nothing, and when the reversed specification puts all lines back.

The hunks leave nothing just if all their lines are removals and these are, one
for one, the lines of the text.  The reversed specification puts together the
lines that the hunks spell out; these are the lines of the text if, besides, no
access modifier was ignored and an empty last line is not said to be open.
-/

namespace Deobfuscate.Patch

open Deobfuscate.Text

/-- The texts of the lines that a specification expects to find. -/
def Spec.oldTexts (spec : Spec) : List String :=
  spec.hunks.flatMap Hunk.oldTexts

/-- A specification only removes lines. -/
def Spec.OnlyRemoves (spec : Spec) : Prop :=
  ∀ hunk ∈ spec.hunks, hunk.newLines = []

instance (spec : Spec) : Decidable spec.OnlyRemoves :=
  inferInstanceAs (Decidable (∀ hunk ∈ spec.hunks, _))

/-- A window that leaves nothing was matched by removals, line for line. -/
theorem Meets.matched {canonical : Bool} {lines : List HunkLine}
    {window new : List String} {count : Nat}
    (meets : Meets canonical lines window new count) (nothing : new = []) :
    List.Forall₂ (fun actual text => sameLine canonical actual text = true)
      window ((lines.filter HunkLine.isOld).map HunkLine.text) := by
  induction meets with
  | done => exact .nil
  | same | differing | added => cases nothing
  | removed equal later inductionHypothesis =>
      exact .cons equal (inductionHypothesis nothing)

namespace Edited

variable {options : Options} {reports : List HunkReport}
variable {lines new : List String}

/-- Hunks take what they expect to find and leave what they leave behind. -/
theorem length_add (edited : Edited options reports lines new)
    (succeed : ∀ report ∈ reports, report.status ≠ .failure) :
    new.length +
        ((reports.map HunkReport.hunk).flatMap Hunk.oldLines).length =
      lines.length +
        ((reports.map HunkReport.hunk).flatMap Hunk.newLines).length := by
  induction edited with
  | rest lines => rfl
  | failed fails later inductionHypothesis =>
      exact absurd fails (succeed _ List.mem_cons_self)
  | landed kept window replaced succeeds allowed size meets later
      inductionHypothesis =>
      have counted := inductionHypothesis fun report member =>
        succeed report (List.mem_cons_of_mem _ member)
      have replacedLength := meets.length_new
      simp only [List.map_cons, List.flatMap_cons, List.length_append,
        size, Hunk.newLines] at counted replacedLength ⊢
      omega

/-- Hunks take no more lines than there are. -/
theorem length_old_le (edited : Edited options reports lines new)
    (succeed : ∀ report ∈ reports, report.status ≠ .failure) :
    ((reports.map HunkReport.hunk).flatMap Hunk.oldLines).length ≤
      lines.length := by
  induction edited with
  | rest lines => exact Nat.zero_le _
  | failed fails later inductionHypothesis =>
      exact absurd fails (succeed _ List.mem_cons_self)
  | landed kept window replaced succeeds allowed size meets later
      inductionHypothesis =>
      have fewer := inductionHypothesis fun report member =>
        succeed report (List.mem_cons_of_mem _ member)
      simp only [List.map_cons, List.flatMap_cons, List.length_append,
        size] at fewer ⊢
      omega

theorem matched (edited : Edited options reports lines new)
    (succeed : ∀ report ∈ reports, report.status ≠ .failure)
    (nothing : new = []) :
    List.Forall₂
      (fun actual text =>
        sameLine options.canonicalizeAccess actual text = true)
      lines ((reports.map HunkReport.hunk).flatMap Hunk.oldTexts) := by
  induction edited with
  | rest lines =>
      subst nothing
      exact .nil
  | failed fails later inductionHypothesis =>
      exact absurd fails (succeed _ List.mem_cons_self)
  | landed kept window replaced succeeds allowed size meets later
      inductionHypothesis =>
      obtain ⟨before, nothingLater⟩ := List.append_eq_nil_iff.1 nothing
      obtain ⟨nothingKept, nothingReplaced⟩ := List.append_eq_nil_iff.1 before
      have laterMatched := inductionHypothesis
        (fun report member => succeed report (List.mem_cons_of_mem _ member))
        nothingLater
      subst nothingKept
      exact List.rel_append (meets.matched nothingReplaced) laterMatched

end Edited

theorem edited_applyHunks (options : Options) (lines : List String)
    (hunks : List Hunk) :
    (applyHunks options lines hunks).2.map HunkReport.hunk = hunks ∧
      Edited options (applyHunks options lines hunks).2 lines
        (applyHunks options lines hunks).1 := by
  obtain ⟨same, _, new, whole, edited⟩ :=
    Progress.run_edited options 1 ⟨[], lines, 0⟩ hunks
  have left : (applyHunks options lines hunks).1 = new := whole
  rw [left]
  exact ⟨same, edited⟩

/-- Hunks that all find a window leave nothing just if all their lines are
removals and these are all the lines there are. -/
theorem applyHunks_eq_nil_iff {options : Options} {lines : List String}
    {spec : Spec}
    (succeed : ∀ report ∈ (applyHunks options lines spec.hunks).2,
      report.status ≠ .failure) :
    (applyHunks options lines spec.hunks).1 = [] ↔
      spec.OnlyRemoves ∧
        List.Forall₂
          (fun actual text =>
            sameLine options.canonicalizeAccess actual text = true)
          lines spec.oldTexts := by
  obtain ⟨same, edited⟩ := edited_applyHunks options lines spec.hunks
  have taken := edited.length_old_le succeed
  have counted := edited.length_add succeed
  rw [same] at taken counted
  have oldLength : spec.oldTexts.length =
      (spec.hunks.flatMap Hunk.oldLines).length := by
    simp [Spec.oldTexts, List.length_flatMap]
  constructor
  · intro nothing
    have matched := edited.matched succeed nothing
    rw [same] at matched
    refine ⟨?_, matched⟩
    have noNew : spec.hunks.flatMap Hunk.newLines = [] := by
      rw [nothing, List.length_nil] at counted
      exact List.eq_nil_of_length_eq_zero (by omega)
    exact List.flatMap_eq_nil_iff.1 noNew
  · rintro ⟨onlyRemoves, matched⟩
    have noNew : spec.hunks.flatMap Hunk.newLines = [] :=
      List.flatMap_eq_nil_iff.2 onlyRemoves
    have allTaken := matched.length_eq
    rw [noNew, List.length_nil] at counted
    exact List.eq_nil_of_length_eq_zero (by omega)

namespace Progress

variable (options : Options)

/-- Where nothing is left, a hunk finds its window just if it expects nothing. -/
theorem place_nothing {progress : Progress} (nothing : progress.pending = [])
    (hunk : Hunk) (expected : Int) :
    progress.place options hunk expected =
      if hunk.oldLines = [] then some (0, 0) else none := by
  unfold place
  dsimp only
  by_cases empty : hunk.oldLines = []
  · have position : (max 0 (min (expected - progress.settled.length)
        (progress.pending.length : Int))).toNat = 0 := by
      rw [nothing, List.length_nil]
      omega
    simp [empty, position]
  · have positive : 0 < hunk.oldLines.length := List.length_pos_iff.2 empty
    simp [empty, nothing, findWindow, positions, positive]

theorem step_nothing {progress : Progress} (nothing : progress.pending = [])
    (index : Nat) (hunk : Hunk) :
    (progress.step options index hunk).1.pending = [] ∧
      ((progress.step options index hunk).2.status ≠ .failure ↔
        hunk.oldLines = []) ∧
      (hunk.oldLines = [] →
        (progress.step options index hunk).1.settled =
          progress.settled ++ hunk.newTexts) := by
  have placed := place_nothing options nothing hunk
    (hunk.recorded + progress.shift)
  by_cases empty : hunk.oldLines = []
  · have added : replacement hunk.lines [] = hunk.newTexts := by
      have self := replacement_self hunk.lines
      rwa [show hunk.lines.filter HunkLine.isOld = [] from empty] at self
    rw [if_pos empty] at placed
    rw [step]
    simp [placed, empty, nothing, added]
  · rw [if_neg empty] at placed
    rw [step_of_unplaced index placed]
    simp [nothing, empty]

/-- Where nothing is left, hunks succeed just if none of them expects anything,
and then they leave their new lines. -/
theorem run_nothing {progress : Progress} (nothing : progress.pending = [])
    (index : Nat) (hunks : List Hunk) :
    (run options index progress hunks).1.pending = [] ∧
      ((∀ report ∈ (run options index progress hunks).2,
          report.status ≠ .failure) ↔
        ∀ hunk ∈ hunks, hunk.oldLines = []) ∧
      ((∀ hunk ∈ hunks, hunk.oldLines = []) →
        (run options index progress hunks).1.settled =
          progress.settled ++ hunks.flatMap Hunk.newTexts) := by
  induction hunks generalizing index progress with
  | nil => simp [run, nothing]
  | cons hunk hunks inductionHypothesis =>
      obtain ⟨stillNothing, succeeds, settles⟩ :=
        step_nothing options nothing index hunk
      obtain ⟨nothingLeft, succeed, settle⟩ :=
        inductionHypothesis stillNothing (index + 1)
      rw [run]
      refine ⟨nothingLeft, ?_, ?_⟩
      · simp only [List.forall_mem_cons, succeeds, succeed]
      · intro expectNothing
        obtain ⟨first, later⟩ := List.forall_mem_cons.1 expectNothing
        simp only [settle later, settles first, List.flatMap_cons,
          List.append_assoc]

end Progress

theorem applyHunks_nothing (options : Options) (hunks : List Hunk) :
    ((∀ report ∈ (applyHunks options [] hunks).2, report.status ≠ .failure) ↔
        ∀ hunk ∈ hunks, hunk.oldLines = []) ∧
      ((∀ hunk ∈ hunks, hunk.oldLines = []) →
        (applyHunks options [] hunks).1 = hunks.flatMap Hunk.newTexts) := by
  have nothing : (⟨[], [], 0⟩ : Progress).pending = [] := rfl
  obtain ⟨nothingLeft, succeed, settle⟩ :=
    Progress.run_nothing options nothing 1 hunks
  refine ⟨succeed, fun expectNothing => ?_⟩
  have settled := settle expectNothing
  simp only [applyHunks, nothingLeft, settled, List.append_nil,
    List.nil_append]

/-- The text that the reverse of a specification makes of its old lines. -/
def Spec.recreated (spec : Spec) : String :=
  TextFile.render
    ⟨spec.oldTexts, .lineFeed, !spec.hunks.any Hunk.oldOpenEnded⟩

theorem closedAfter_reversed (spec : Spec) :
    closedAfter spec.reversed true =
      !spec.hunks.any Hunk.oldOpenEnded := by
  have newSide : spec.reversed.hunks.any Hunk.newOpenEnded =
      spec.hunks.any Hunk.oldOpenEnded := by
    simp only [Spec.reversed, List.any_map]
    rfl
  unfold closedAfter
  rw [newSide]
  cases spec.hunks.any Hunk.oldOpenEnded <;> simp

/-- A reversed specification makes a file out of nothing just if it has only
removals to reverse. -/
theorem tryHunks_reversed (options : Options) (target : String) {spec : Spec}
    (edits : spec.isCreation = false) :
    (tryHunks options target spec.reversed "").2 =
      if spec.OnlyRemoves then some (.write spec.recreated) else none := by
  obtain ⟨succeed, settle⟩ := applyHunks_nothing options spec.reversed.hunks
  have expectNothing : (∀ hunk ∈ spec.reversed.hunks, hunk.oldLines = []) ↔
      spec.OnlyRemoves := by
    simp [Spec.reversed, Spec.OnlyRemoves, Hunk.oldLines_reversed]
  have texts : spec.reversed.hunks.flatMap Hunk.newTexts = spec.oldTexts := by
    simp [Spec.reversed, Spec.oldTexts, List.flatMap_map]
  have noText : TextFile.ofText "" = ⟨[], .lineFeed, true⟩ := by decide
  have keeps : spec.reversed.isDeletion = false := edits
  have success : (Report.ofHunks target
      (applyHunks options [] spec.reversed.hunks).2).status.isSuccess = true ↔
        spec.OnlyRemoves := by
    rw [isSuccess_ofHunks, succeed, expectNothing]
  rw [expectNothing, texts] at settle
  unfold tryHunks
  simp only [noText, keeps, closedAfter_reversed]
  by_cases onlyRemoves : spec.OnlyRemoves
  · simp [success.2 onlyRemoves, settle onlyRemoves, onlyRemoves,
      Spec.recreated]
  · simp [mt success.1 onlyRemoves, onlyRemoves]

/-- The lines of the recreated text are the old lines, but for an empty last one
that is left open. -/
theorem lines_recreated {spec : Spec}
    (unbroken : ∀ text ∈ spec.oldTexts, Unbroken text.toList) :
    (TextFile.ofText spec.recreated).lines =
      if spec.hunks.any Hunk.oldOpenEnded ∧
          spec.oldTexts.getLast? = some "" then spec.oldTexts.dropLast
      else spec.oldTexts := by
  have clear : ∀ chars ∈ spec.oldTexts.map String.toList, Unbroken chars := by
    simpa using unbroken
  have read :=
    lineContents_intercalate (!spec.hunks.any Hunk.oldOpenEnded) clear
  have chars : spec.recreated.toList =
      ['\n'].intercalate (spec.oldTexts.map String.toList) ++
        if (!spec.hunks.any Hunk.oldOpenEnded) &&
            !(spec.oldTexts.map String.toList).isEmpty then ['\n'] else [] := by
    simp only [Spec.recreated, TextFile.render, List.isEmpty_map]
    split <;> simp [Terminator.chars]
  have lastEmpty : (spec.oldTexts.map String.toList).getLast? = some [] ↔
      spec.oldTexts.getLast? = some "" := by
    simp [List.getLast?_map]
  unfold TextFile.ofText
  dsimp only
  rw [chars, read]
  simp only [lastEmpty, Bool.not_eq_eq_eq_not, Bool.not_false]
  split <;> simp [List.map_dropLast, Function.comp_def]

/-! ## Deletions -/

section Application

variable {set : WorkingSet} {options : Options} {specs : List Spec}
variable {spec : Spec} {path base : String}

/-- Reversing a deletion where the file is gone. -/
theorem get?_apply_reversed (absent : set.get? path = none)
    (isTarget : spec.target options.strip = path)
    (deletes : spec.isDeletion = true) (edits : spec.isCreation = false) :
    (apply set [spec.reversed] options).1.get? path =
      if spec.OnlyRemoves then some spec.recreated else none := by
  have creates : spec.reversed.isCreation = true := deletes
  have sameTarget : spec.reversed.target options.strip = path := by
    rw [← isTarget]
    simp only [Spec.target, creates, edits]
    rfl
  have tried : tryOn set options path spec.reversed =
      tryHunks options path spec.reversed "" := by
    unfold tryOn
    rw [absent, creates]
  rw [apply_fst, applyTargets_single, sameTarget, get?_commit_self, tried,
    tryHunks_reversed options path edits, absent]
  split <;> rfl

/-- The reverse of a specification puts all lines of a text back at a path. -/
def Restores (set : WorkingSet) (options : Options) (spec : Spec)
    (path base : String) : Prop :=
  ∃ text, (apply set [spec.reversed] options).1.get? path = some text ∧
    (TextFile.ofText text).lines = (TextFile.ofText base).lines

/-- The specification that is carried out on a text edits it, and all its hunks
find a window. -/
theorem tryOn_of_winner (held : set.get? path = some base)
    (wins : winner set options specs path = some spec) :
    spec ∈ competing options specs path ∧ spec.isCreation = false ∧
      tryOn set options path spec = tryHunks options path spec base ∧
      (tryHunks options path spec base).1.status.isSuccess = true := by
  unfold winner at wins
  have competes := List.mem_of_find?_eq_some wins
  have succeeds := List.find?_some wins
  cases creation : spec.isCreation with
  | true =>
      unfold tryOn at succeeds
      rw [held, creation] at succeeds
      cases succeeds
  | false =>
      have tried : tryOn set options path spec =
          tryHunks options path spec base := by
        unfold tryOn
        rw [held, creation]
      rw [tried] at succeeds
      exact ⟨competes, rfl, tried, succeeds⟩

/-- A text is removed just if the specification that is carried out on it removes
files, whatever its hunks leave. -/
theorem get?_apply_eq_none_of_held (held : set.get? path = some base) :
    (apply set specs options).1.get? path = none ↔
      ∃ spec, winner set options specs path = some spec ∧
        spec.isDeletion = true := by
  rw [get?_apply_eq_winner]
  cases wins : winner set options specs path with
  | none => simp [held]
  | some spec =>
      obtain ⟨_, _, tried, succeeds⟩ := tryOn_of_winner held wins
      dsimp only
      rw [tried, tryHunks_held base succeeds]
      simp

theorem restores_iff (isTarget : spec.target options.strip = path)
    (deletes : spec.isDeletion = true) (edits : spec.isCreation = false)
    (absent : set.get? path = none)
    (fewer : spec.oldTexts.length ≤ (TextFile.ofText base).lines.length)
    (unbroken : ∀ text ∈ spec.oldTexts, Unbroken text.toList) :
    Restores set options spec path base ↔
      spec.OnlyRemoves ∧ spec.oldTexts = (TextFile.ofText base).lines ∧
        ¬ (spec.hunks.any Hunk.oldOpenEnded ∧
          (TextFile.ofText base).lines.getLast? = some "") := by
  have read := lines_recreated unbroken
  unfold Restores
  rw [get?_apply_reversed absent isTarget deletes edits]
  constructor
  · rintro ⟨text, made, same⟩
    by_cases onlyRemoves : spec.OnlyRemoves
    · rw [if_pos onlyRemoves] at made
      obtain rfl := Option.some.inj made
      rw [read] at same
      split at same
      · rename_i emptyLast
        have some : spec.oldTexts ≠ [] := by
          intro nothing
          simp [nothing] at emptyLast
        have positive := List.length_pos_iff.2 some
        have lengths := congrArg List.length same
        rw [List.length_dropLast] at lengths
        omega
      · rename_i shut
        rw [← same]
        exact ⟨onlyRemoves, rfl, shut⟩
    · rw [if_neg onlyRemoves] at made
      cases made
  · rintro ⟨onlyRemoves, same, shut⟩
    refine ⟨spec.recreated, if_pos onlyRemoves, ?_⟩
    rw [read, same, if_neg shut]

end Application

/-- A text is removed just if the specification that is carried out on it removes
files; its hunks have found their windows then, but they may leave lines.  They
leave none just if they only remove, and remove all lines of the text one for
one.  The reversed specification puts all lines back just if, besides, the hunks
spell the lines as they are and do not call an empty last line open. -/
theorem apply_removes {set : WorkingSet} {path base : String}
    (held : set.get? path = some base) (specs : List Spec)
    (options : Options) :
    ((apply set specs options).1.get? path = none ↔
        ∃ spec, winner set options specs path = some spec ∧
          spec.isDeletion = true) ∧
      ∀ spec, winner set options specs path = some spec →
        spec.isDeletion = true →
        (∀ report ∈ (applyHunks options (TextFile.ofText base).lines
            spec.hunks).2, report.status ≠ .failure) ∧
          ((applyHunks options (TextFile.ofText base).lines spec.hunks).1 = [] ↔
            spec.OnlyRemoves ∧
              List.Forall₂
                (fun actual text =>
                  sameLine options.canonicalizeAccess actual text = true)
                (TextFile.ofText base).lines spec.oldTexts) ∧
          ((∀ text ∈ spec.oldTexts, Unbroken text.toList) →
            (Restores (apply set specs options).1 options spec path base ↔
              (applyHunks options (TextFile.ofText base).lines
                  spec.hunks).1 = [] ∧
                spec.oldTexts = (TextFile.ofText base).lines ∧
                ¬ (spec.hunks.any Hunk.oldOpenEnded ∧
                  (TextFile.ofText base).lines.getLast? = some ""))) := by
  have removed : (apply set specs options).1.get? path = none ↔
      ∃ spec, winner set options specs path = some spec ∧
        spec.isDeletion = true :=
    get?_apply_eq_none_of_held held
  refine ⟨removed, ?_⟩
  intro spec wins deletes
  obtain ⟨competes, edits, tried, success⟩ := tryOn_of_winner held wins
  have isTarget : spec.target options.strip = path := by
    simpa [competing] using (List.mem_filter.1 competes).2
  have absent : (apply set specs options).1.get? path = none :=
    removed.2 ⟨spec, wins, deletes⟩
  have succeed : ∀ report ∈ (applyHunks options (TextFile.ofText base).lines
      spec.hunks).2, report.status ≠ .failure := by
    rw [tryHunks_report] at success
    exact isSuccess_ofHunks.1 success
  have nothingLeft := applyHunks_eq_nil_iff succeed
  refine ⟨succeed, nothingLeft, fun unbroken => ?_⟩
  obtain ⟨same, edited⟩ :=
    edited_applyHunks options (TextFile.ofText base).lines spec.hunks
  have fewer : spec.oldTexts.length ≤ (TextFile.ofText base).lines.length := by
    have taken := edited.length_old_le succeed
    rw [same] at taken
    simpa [Spec.oldTexts, List.length_flatMap] using taken
  rw [restores_iff isTarget deletes edits absent fewer unbroken, nothingLeft]
  constructor
  · rintro ⟨onlyRemoves, spelled, shut⟩
    refine ⟨⟨onlyRemoves, ?_⟩, spelled, shut⟩
    rw [spelled]
    exact List.forall₂_same.2 fun line _ => sameLine_self _ line
  · rintro ⟨⟨onlyRemoves, _⟩, spelled, shut⟩
    exact ⟨onlyRemoves, spelled, shut⟩

/-- The first of two competing specifications does not find its line, the second
one removes both lines with a hunk for each. -/
def removingSpecs : List Spec :=
  [⟨"F", missingPath, [⟨1, 1, 0, 0, [.remove "x"], false, false⟩]⟩,
    ⟨"F", missingPath,
      [⟨1, 1, 0, 0, [.remove "a"], false, false⟩,
        ⟨2, 1, 0, 0, [.remove "b"], false, false⟩]⟩]

theorem apply_removes_whole :
    let set : WorkingSet := Dict.empty.insert "F" "a\r\nb"
    set.get? "F" = some "a\r\nb" ∧
      (apply set removingSpecs {}).1.get? "F" = none ∧
      Restores (apply set removingSpecs {}).1 {} removingSpecs[1] "F"
        "a\r\nb" := by
  intro set
  have held : set.get? "F" = some "a\r\nb" := Dict.get?_insert_self _ _ _
  have wins : winner set {} removingSpecs "F" = some removingSpecs[1] := by
    simp only [winner, tryOn, tryHunks, applyHunks_eq_run?]
    decide +kernel
  have nothingLeft : (applyHunks {} (TextFile.ofText "a\r\nb").lines
      removingSpecs[1].hunks).1 = [] := by
    rw [applyHunks_eq_run?]
    decide +kernel
  obtain ⟨removed, decided⟩ := apply_removes held removingSpecs {}
  obtain ⟨_, _, restored⟩ := decided _ wins rfl
  exact ⟨held, removed.2 ⟨_, wins, rfl⟩,
    (restored (by decide)).2 ⟨nothingLeft, by decide, by decide⟩⟩

/-- A deletion that spells out one of two lines discards the other one. -/
theorem deletion_discards_line :
    let set : WorkingSet := Dict.empty.insert "Foo.java" "keep\ngone\n"
    let spec : Spec := ⟨"Foo.java", missingPath,
      [⟨2, 1, 1, 0, [.remove "gone"], false, false⟩]⟩
    spec.isDeletion = true ∧
      (apply set [spec] {}).1.get? "Foo.java" = none ∧
      (applyHunks {} (TextFile.ofText "keep\ngone\n").lines spec.hunks).1 =
        ["keep"] ∧
      ¬ Restores (apply set [spec] {}).1 {} spec "Foo.java"
        "keep\ngone\n" := by
  intro set spec
  have held : set.get? "Foo.java" = some "keep\ngone\n" :=
    Dict.get?_insert_self _ _ _
  have wins : winner set {} [spec] "Foo.java" = some spec := by
    simp only [winner, tryOn, tryHunks, applyHunks_eq_run?]
    decide +kernel
  have gone : (apply set [spec] {}).1.get? "Foo.java" = none :=
    (get?_apply_eq_none_of_held held).2 ⟨spec, wins, rfl⟩
  have kept : (applyHunks {} (TextFile.ofText "keep\ngone\n").lines
      spec.hunks).1 = ["keep"] := by
    rw [applyHunks_eq_run?]
    decide +kernel
  refine ⟨rfl, gone, kept, ?_⟩
  rintro ⟨text, made, same⟩
  have onlyRemoves : spec.OnlyRemoves := by decide
  rw [get?_apply_reversed gone (by decide) rfl rfl, if_pos onlyRemoves]
    at made
  obtain rfl := Option.some.inj made
  exact absurd same (by decide)

end Deobfuscate.Patch
