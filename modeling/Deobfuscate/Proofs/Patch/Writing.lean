import Deobfuscate.Proofs.Patch.Reading
import Mathlib.Data.List.DropRight
import Mathlib.Data.List.TakeWhile

/-!
# Diffs that are written out

A specification is written with its two file headers, and each hunk with its
header, its lines and a notice behind the last line of a side that ends without
a line break.  What is written is read back: the counts of the header tell where
a hunk ends, so no line of a hunk is taken for a header, whatever its text is.
-/

namespace Deobfuscate.Patch

open Deobfuscate.Text

/-- The line behind a line that ends without a line break. -/
def openNotice : String := "\\ No newline at end of file"

def endsOpen (isOpen : Bool) (side : HunkLine → Bool)
    (rest : List HunkLine) : Bool :=
  isOpen && !rest.any side

def isNoticed (oldOpen newOpen : Bool) (line : HunkLine)
    (rest : List HunkLine) : Bool :=
  (line.isOld && endsOpen oldOpen HunkLine.isOld rest) ||
    (line.isNew && endsOpen newOpen HunkLine.isNew rest)

def markedLines (oldOpen newOpen : Bool) : List HunkLine → List String
  | [] => []
  | line :: rest =>
      (line.marker ++ line.text) ::
        ((if isNoticed oldOpen newOpen line rest then [openNotice] else []) ++
          markedLines oldOpen newOpen rest)

def Hunk.written (hunk : Hunk) : List String :=
  hunk.header :: markedLines hunk.oldOpenEnded hunk.newOpenEnded hunk.lines

/-- The lines a specification is written as. -/
def Spec.written (spec : Spec) : List String :=
  ("--- " ++ spec.oldPath) :: ("+++ " ++ spec.newPath) ::
    spec.hunks.flatMap Hunk.written

/-- The open sides of a hunk can be told from notices: one that is open alone
ends in a line of its own, and two end in one line or in a line of their own
each. -/
def Hunk.Expressible (hunk : Hunk) : Prop :=
  match hunk.oldOpenEnded, hunk.newOpenEnded with
  | false, false => True
  | true, false => ∃ text, hunk.oldLines.getLast? = some (.remove text)
  | false, true => ∃ text, hunk.newLines.getLast? = some (.add text)
  | true, true =>
      (∃ text, hunk.lines.getLast? = some (.context text)) ∨
        (∃ text, hunk.oldLines.getLast? = some (.remove text)) ∧
          ∃ text, hunk.newLines.getLast? = some (.add text)

/-- A path that can stand in a file header. -/
structure PlainPath (path : String) : Prop where
  untabbed : '\t' ∉ path.toList
  unbroken : Unbroken path.toList
  trimmed : ∀ last ∈ path.toList.getLast?, isBlank last = false

instance (path : String) : Decidable (PlainPath path) :=
  decidable_of_iff
    ('\t' ∉ path.toList ∧ Unbroken path.toList ∧
      path.toList.getLast?.all (!isBlank ·) = true)
    ⟨fun ⟨untabbed, unbroken, trimmed⟩ =>
        ⟨untabbed, unbroken, by simpa [Option.all_eq_true] using trimmed⟩,
      fun ⟨untabbed, unbroken, trimmed⟩ =>
        ⟨untabbed, unbroken, by simpa [Option.all_eq_true] using trimmed⟩⟩

/-- A specification that is read back once it is written. -/
structure Spec.Writable (spec : Spec) : Prop where
  oldPath : PlainPath spec.oldPath
  newPath : PlainPath spec.newPath
  complete : spec.Complete
  expressible : ∀ hunk ∈ spec.hunks, hunk.Expressible

/-- A side that is open and has a last line of its own kind has lines. -/
theorem any_of_getLast?_filter {side : HunkLine → Bool}
    {lines : List HunkLine} {line : HunkLine}
    (last : (lines.filter side).getLast? = some line) :
    lines.any side = true := by
  have member := List.mem_filter.1 (List.mem_of_getLast? last)
  exact List.any_eq_true.2 ⟨line, member.1, member.2⟩

/-- The last line of a side, if none of the lines behind it is on the side. -/
theorem getLast?_filter_append {side : HunkLine → Bool}
    {done rest : List HunkLine} {line : HunkLine} (here : side line = true)
    (none : rest.any side = false) :
    ((done ++ line :: rest).filter side).getLast? = some line := by
  have empty : rest.filter side = [] := by
    simpa using none
  rw [List.filter_append, List.filter_cons_of_pos here, empty,
    List.getLast?_append]
  rfl

namespace Hunk.Expressible

variable {hunk : Hunk}

/-- Sides that are open have lines. -/
theorem any_of_open (expressible : hunk.Expressible) :
    (hunk.oldOpenEnded = true → hunk.lines.any HunkLine.isOld = true) ∧
      (hunk.newOpenEnded = true → hunk.lines.any HunkLine.isNew = true) := by
  unfold Hunk.Expressible at expressible
  cases oldOpen : hunk.oldOpenEnded with
  | false =>
      cases newOpen : hunk.newOpenEnded with
      | false => exact ⟨nofun, nofun⟩
      | true =>
          rw [oldOpen, newOpen] at expressible
          obtain ⟨text, last⟩ := expressible
          exact ⟨nofun, fun _ => any_of_getLast?_filter last⟩
  | true =>
      cases newOpen : hunk.newOpenEnded with
      | false =>
          rw [oldOpen, newOpen] at expressible
          obtain ⟨text, last⟩ := expressible
          exact ⟨fun _ => any_of_getLast?_filter last, nofun⟩
      | true =>
          rw [oldOpen, newOpen] at expressible
          rcases expressible with
            ⟨text, shared⟩ | ⟨⟨removed, oldLast⟩, added, newLast⟩
          · have member := List.mem_of_getLast? shared
            exact ⟨fun _ => List.any_eq_true.2 ⟨_, member, rfl⟩,
              fun _ => List.any_eq_true.2 ⟨_, member, rfl⟩⟩
          · exact ⟨fun _ => any_of_getLast?_filter oldLast,
              fun _ => any_of_getLast?_filter newLast⟩

/-- At a context line either both sides end open or none does. -/
theorem shared (expressible : hunk.Expressible) {done rest : List HunkLine}
    {text : String} (whole : hunk.lines = done ++ .context text :: rest) :
    endsOpen hunk.oldOpenEnded HunkLine.isOld rest =
      endsOpen hunk.newOpenEnded HunkLine.isNew rest := by
  have notRemove : rest.any HunkLine.isOld = false →
      ¬ ∃ removed, hunk.oldLines.getLast? = some (.remove removed) := by
    rintro none ⟨removed, last⟩
    rw [Hunk.oldLines, whole, getLast?_filter_append rfl none] at last
    cases last
  have notAdd : rest.any HunkLine.isNew = false →
      ¬ ∃ added, hunk.newLines.getLast? = some (.add added) := by
    rintro none ⟨added, last⟩
    rw [Hunk.newLines, whole, getLast?_filter_append rfl none] at last
    cases last
  unfold Hunk.Expressible at expressible
  unfold endsOpen
  cases oldOpen : hunk.oldOpenEnded with
  | false =>
      cases newOpen : hunk.newOpenEnded with
      | false => rfl
      | true =>
          rw [oldOpen, newOpen] at expressible
          cases later : rest.any HunkLine.isNew with
          | false => exact absurd expressible (notAdd later)
          | true => rfl
  | true =>
      cases newOpen : hunk.newOpenEnded with
      | false =>
          rw [oldOpen, newOpen] at expressible
          cases later : rest.any HunkLine.isOld with
          | false => exact absurd expressible (notRemove later)
          | true => rfl
      | true =>
          rw [oldOpen, newOpen] at expressible
          rcases expressible with ⟨shared, last⟩ | ⟨removed, added⟩
          · -- The last line is a context line, so it is on both sides.
            cases rest with
            | nil => rfl
            | cons next others =>
                rw [whole, List.getLast?_append_cons,
                  List.getLast?_cons_cons] at last
                have member := List.mem_of_getLast? last
                have old : (next :: others).any HunkLine.isOld = true :=
                  List.any_eq_true.2 ⟨_, member, rfl⟩
                have new : (next :: others).any HunkLine.isNew = true :=
                  List.any_eq_true.2 ⟨_, member, rfl⟩
                rw [old, new]
          · cases old : rest.any HunkLine.isOld with
            | false => exact absurd removed (notRemove old)
            | true =>
                cases new : rest.any HunkLine.isNew with
                | false => exact absurd added (notAdd new)
                | true => rfl

end Hunk.Expressible

def Hunk.upTo (hunk : Hunk) (done rest : List HunkLine) : Hunk :=
  { hunk with
    lines := done
    oldOpenEnded := endsOpen hunk.oldOpenEnded HunkLine.isOld rest
    newOpenEnded := endsOpen hunk.newOpenEnded HunkLine.isNew rest }

def ReadState.awaiting (spec : Spec) (hunk : Hunk) (rest : List HunkLine) :
    ReadState :=
  .ofHunk spec hunk (rest.countP HunkLine.isOld) (rest.countP HunkLine.isNew)

theorem awaiting_cons (spec : Spec) (hunk : Hunk) (line : HunkLine)
    (rest : List HunkLine) :
    ReadState.awaiting spec hunk (line :: rest) =
      .inHunk spec hunk ((line :: rest).countP HunkLine.isOld)
        ((line :: rest).countP HunkLine.isNew) := by
  unfold ReadState.awaiting ReadState.ofHunk
  cases line <;> simp [HunkLine.isOld, HunkLine.isNew]

/-- A line that is awaited is added to the hunk, whatever its text is. -/
theorem readDiffLine_awaiting (spec : Spec) (hunk : Hunk) (line : HunkLine)
    (rest : List HunkLine) :
    readDiffLine (.awaiting spec hunk (line :: rest))
        (line.marker ++ line.text).toList =
      .ok (.awaiting spec { hunk with lines := hunk.lines ++ [line] } rest,
        []) := by
  rw [awaiting_cons]
  cases line <;>
    simp [readDiffLine, readHunkLine, addHunkLine, ReadState.awaiting,
      HunkLine.marker, HunkLine.text, HunkLine.isOld, HunkLine.isNew,
      List.countP_cons]

/-- A notice marks the line before it, in the middle of a hunk as at its end. -/
theorem readDiffLine_notice (spec : Spec) (hunk : Hunk)
    (rest : List HunkLine) :
    readDiffLine (.awaiting spec hunk rest) openNotice.toList =
      .ok (if rest = [] then .betweenHunks (spec.addHunk hunk.markOpenEnded)
        else .awaiting spec hunk.markOpenEnded rest, []) := by
  cases rest with
  | nil => rfl
  | cons line rest =>
      rw [awaiting_cons, awaiting_cons, if_neg (List.cons_ne_nil _ _)]
      rfl

/-- A side that has a line to come does not end yet. -/
theorem endsOpen_cons (isOpen : Bool) (side : HunkLine → Bool)
    (line : HunkLine) (rest : List HunkLine) :
    endsOpen isOpen side (line :: rest) =
      (!side line && endsOpen isOpen side rest) := by
  cases here : side line <;> simp [endsOpen, here]

/-- A line and its notice decide what is known of both sides. -/
theorem upTo_concat {hunk : Hunk} (expressible : hunk.Expressible)
    {done rest : List HunkLine} {line : HunkLine}
    (whole : hunk.lines = done ++ line :: rest) :
    (if isNoticed hunk.oldOpenEnded hunk.newOpenEnded line rest then
        Hunk.markOpenEnded
          { hunk.upTo done (line :: rest) with lines := done ++ [line] }
      else { hunk.upTo done (line :: rest) with lines := done ++ [line] }) =
      hunk.upTo (done ++ [line]) rest := by
  cases line with
  | context text =>
      have shared := expressible.shared whole
      cases ends : endsOpen hunk.newOpenEnded HunkLine.isNew rest with
      | true =>
          simp [isNoticed, Hunk.upTo, Hunk.markOpenEnded, HunkLine.isOld,
            HunkLine.isNew, endsOpen_cons, shared, ends]
      | false =>
          simp [isNoticed, Hunk.upTo, HunkLine.isOld, HunkLine.isNew,
            endsOpen_cons, shared, ends]
  | remove text =>
      cases ends : endsOpen hunk.oldOpenEnded HunkLine.isOld rest with
      | true =>
          simp [isNoticed, Hunk.upTo, Hunk.markOpenEnded, HunkLine.isOld,
            HunkLine.isNew, endsOpen_cons, ends]
      | false =>
          simp [isNoticed, Hunk.upTo, HunkLine.isOld, HunkLine.isNew,
            endsOpen_cons, ends]
  | add text =>
      cases ends : endsOpen hunk.newOpenEnded HunkLine.isNew rest with
      | true =>
          simp [isNoticed, Hunk.upTo, Hunk.markOpenEnded, HunkLine.isOld,
            HunkLine.isNew, endsOpen_cons, ends]
      | false =>
          simp [isNoticed, Hunk.upTo, HunkLine.isOld, HunkLine.isNew,
            endsOpen_cons, ends]

/-- A line is read together with its notice.  A notice at the end of a hunk
closes it. -/
theorem reads_markedLine (spec : Spec) {hunk : Hunk}
    (expressible : hunk.Expressible) {done rest : List HunkLine}
    {line : HunkLine} (whole : hunk.lines = done ++ line :: rest) :
    ∃ next,
      Reads (.awaiting spec (hunk.upTo done (line :: rest)) (line :: rest))
          (((line.marker ++ line.text) ::
            if isNoticed hunk.oldOpenEnded hunk.newOpenEnded line rest
              then [openNotice] else []).map String.toList) [] next ∧
        (next = .awaiting spec (hunk.upTo (done ++ [line]) rest) rest ∨
          rest = [] ∧ next = .betweenHunks
            (spec.addHunk (hunk.upTo (done ++ [line]) rest))) := by
  have added :=
    readDiffLine_awaiting spec (hunk.upTo done (line :: rest)) line rest
  have settled := upTo_concat expressible whole
  cases noticed : isNoticed hunk.oldOpenEnded hunk.newOpenEnded line rest with
  | false =>
      rw [noticed, if_neg Bool.false_ne_true] at settled
      refine ⟨_, .step added, .inl ?_⟩
      rw [← settled]
      rfl
  | true =>
      rw [noticed, if_pos rfl] at settled
      have notice := readDiffLine_notice spec
        { hunk.upTo done (line :: rest) with lines := done ++ [line] } rest
      rw [settled] at notice
      refine ⟨_, (Reads.step added).append (.step notice), ?_⟩
      by_cases last : rest = []
      · exact .inr ⟨last, if_pos last⟩
      · exact .inl (if_neg last)

/-- The marked lines of a hunk are read as the hunk, from any of them on. -/
theorem reads_markedLines (spec : Spec) {hunk : Hunk}
    (expressible : hunk.Expressible) (done rest : List HunkLine)
    (whole : hunk.lines = done ++ rest) :
    ∃ last,
      Reads (.awaiting spec (hunk.upTo done rest) rest)
          ((markedLines hunk.oldOpenEnded hunk.newOpenEnded rest).map
            String.toList) [] last ∧
        readEnd last = .ok [spec.addHunk (hunk.upTo hunk.lines [])] := by
  induction rest generalizing done with
  | nil =>
      rw [List.append_nil] at whole
      exact ⟨_, .nil _, by rw [whole]; rfl⟩
  | cons line rest inductionHypothesis =>
      obtain ⟨next, first, reached⟩ := reads_markedLine spec expressible whole
      have moved : hunk.lines = done ++ [line] ++ rest := by
        rw [whole, List.append_assoc]
        rfl
      rw [markedLines, ← List.cons_append, List.map_append]
      rcases reached with rfl | ⟨rfl, rfl⟩
      · obtain ⟨last, later, ended⟩ := inductionHypothesis _ moved
        exact ⟨last, first.append later, ended⟩
      · refine ⟨_, first.append (.nil _), ?_⟩
        rw [moved, List.append_nil]
        rfl

/-! ## Headers -/

/-- A numeral has no other characters than digits. -/
theorem not_mem_repr {number : Nat} {char : Char}
    (other : char.isDigit = false) : char ∉ number.repr.toList := by
  intro member
  rw [isDigit_of_mem_repr member] at other
  cases other

def rangeChars (start count : Nat) : List Char :=
  start.repr.toList ++ ',' :: count.repr.toList

theorem not_mem_rangeChars {start count : Nat} {char : Char}
    (notComma : char ≠ ',') (other : char.isDigit = false) :
    char ∉ rangeChars start count := by
  intro member
  rcases List.mem_append.1 member with first | second
  · exact not_mem_repr other first
  · rcases List.mem_cons.1 second with comma | last
    · exact notComma comma
    · exact not_mem_repr other last

theorem readRange_rangeChars {start count : Nat} (starts : start < wordBound)
    (counts : count < wordBound) :
    readRange (rangeChars start count) = some (start, count) := by
  rw [readRange, rangeChars, splitOnce_append _ (not_mem_repr (by decide))]
  dsimp only
  rw [readBounded_repr starts, readBounded_repr counts]
  rfl

theorem toList_header (hunk : Hunk) :
    hunk.header.toList =
      "@@ -".toList ++ (rangeChars hunk.oldStart hunk.oldCount ++
        (' ' :: '+' :: (rangeChars hunk.newStart hunk.newCount ++
          " @@".toList))) := by
  simp only [Hunk.header, rangeChars, String.toList_append, List.append_assoc,
    List.cons_append]
  rfl

/-- The header of a hunk announces it. -/
theorem readHunkHeader_header {hunk : Hunk} (complete : hunk.Complete) :
    readHunkHeader hunk.header.toList =
      some ⟨hunk.oldStart, hunk.oldCount, hunk.newStart, hunk.newCount, [],
        false, false⟩ := by
  obtain ⟨_, _, _, starts, counts⟩ := complete
  have unblanked : ∀ start count : Nat, ' ' ∉ rangeChars start count :=
    fun _ _ => not_mem_rangeChars (by decide) (by decide)
  have behind : findPiece " @@".toList
      ('+' :: (rangeChars hunk.newStart hunk.newCount ++ " @@".toList)) =
      some ('+' :: rangeChars hunk.newStart hunk.newCount, []) := by
    have absent : ' ' ∉ '+' :: rangeChars hunk.newStart hunk.newCount :=
      fun member => (List.mem_cons.1 member).elim (by decide) (unblanked _ _)
    have found := findPiece_append ['@', '@'] " @@".toList absent
    rw [show " @@".toList = ' ' :: ['@', '@'] ++ [] from rfl,
      findPiece_self] at found
    simpa using found
  -- The blank before the new range does not end the ranges.
  have ranges : findPiece " @@".toList
      (rangeChars hunk.oldStart hunk.oldCount ++
        (' ' :: '+' :: (rangeChars hunk.newStart hunk.newCount ++
          " @@".toList))) =
      some (rangeChars hunk.oldStart hunk.oldCount ++
        ' ' :: '+' :: rangeChars hunk.newStart hunk.newCount, []) := by
    have found := findPiece_append ['@', '@']
      (' ' :: '+' :: (rangeChars hunk.newStart hunk.newCount ++
        " @@".toList)) (unblanked hunk.oldStart hunk.oldCount)
    have skipped : findPiece " @@".toList
        (' ' :: '+' :: (rangeChars hunk.newStart hunk.newCount ++
          " @@".toList)) =
        some (' ' :: '+' :: rangeChars hunk.newStart hunk.newCount, []) := by
      rw [findPiece, behind]
      rfl
    rw [show ' ' :: ['@', '@'] = " @@".toList from rfl, skipped] at found
    exact found
  have sides : findPiece " +".toList
      (rangeChars hunk.oldStart hunk.oldCount ++
        ' ' :: '+' :: rangeChars hunk.newStart hunk.newCount) =
      some (rangeChars hunk.oldStart hunk.oldCount,
        rangeChars hunk.newStart hunk.newCount) := by
    have found := findPiece_append ['+']
      (' ' :: ['+'] ++ rangeChars hunk.newStart hunk.newCount)
      (unblanked hunk.oldStart hunk.oldCount)
    rw [findPiece_self] at found
    simpa using found
  simp only [readHunkHeader, toList_header, stripStart_append,
    Option.bind_eq_bind, Option.bind_some, ranges, sides,
    readRange_rangeChars starts.1 counts.1,
    readRange_rangeChars starts.2 counts.2]
  rfl

/-- A plain path is read back. -/
theorem headerPath_toList {path : String} (plain : PlainPath path) :
    headerPath path.toList = path := by
  have whole : path.toList.takeWhile (· != '\t') = path.toList := by
    refine List.takeWhile_eq_self_iff.2 fun char member => ?_
    exact bne_iff_ne.2 fun tab => plain.untabbed (tab ▸ member)
  have trimmed : trimEndChars path.toList = path.toList := by
    refine List.rdropWhile_eq_self_iff.2 fun some blank => ?_
    have last := plain.trimmed _ (List.getLast?_eq_some_getLast some)
    rw [last] at blank
    cases blank
  rw [headerPath, whole, trimmed, String.ofList_toList]

/-- Between sections and between hunks, a line that is neither a notice nor a
header of a hunk closes what is read so far. -/
theorem readDiffLine_of_readEnd {state : ReadState} {pending : List Spec}
    {first : Char} {line : List Char} (ended : readEnd state = .ok pending)
    (notNotice : first ≠ '\\') (notHunk : first ≠ '@') :
    readDiffLine state (first :: line) =
      .ok (readOutside (first :: line), pending) := by
  cases state with
  | outside =>
      cases ended
      rfl
  | afterOldHeader oldPath => cases ended
  | betweenHunks spec =>
      cases ended
      simp [readDiffLine, readSection, startsWith, Ne.symm notHunk]
  | inHunk spec hunk oldLeft newLeft => cases ended
  | afterHunk spec hunk =>
      cases ended
      simp [readDiffLine, readSection, startsWith, Ne.symm notHunk,
        Ne.symm notNotice]

/-- In a section, a header starts a hunk. -/
theorem readDiffLine_header {state : ReadState} {spec : Spec} {hunk : Hunk}
    (ended : readEnd state = .ok [spec]) (complete : hunk.Complete) :
    readDiffLine state hunk.header.toList =
      .ok (.ofHunk spec ⟨hunk.oldStart, hunk.oldCount, hunk.newStart,
        hunk.newCount, [], false, false⟩ hunk.oldCount hunk.newCount, []) := by
  have announces : readSection spec hunk.header.toList =
      .ok (.ofHunk spec ⟨hunk.oldStart, hunk.oldCount, hunk.newStart,
        hunk.newCount, [], false, false⟩ hunk.oldCount hunk.newCount, []) := by
    have marked : startsWith ['@', '@'] hunk.header.toList = true := by
      rw [toList_header]
      rfl
    rw [readSection, if_pos marked, readHunkHeader_header complete]
  have notNotice : startsWith ['\\'] hunk.header.toList = false := by
    rw [toList_header]
    rfl
  cases state with
  | outside => cases ended
  | afterOldHeader oldPath => cases ended
  | betweenHunks before =>
      cases ended
      exact announces
  | inHunk before earlier oldLeft newLeft => cases ended
  | afterHunk before earlier =>
      cases ended
      rw [readDiffLine, if_neg (by rw [notNotice]; exact Bool.false_ne_true)]
      exact announces

/-- Nothing is known of the sides of a hunk before its lines are read. -/
theorem upTo_nil {hunk : Hunk} (expressible : hunk.Expressible) :
    hunk.upTo [] hunk.lines =
      ⟨hunk.oldStart, hunk.oldCount, hunk.newStart, hunk.newCount, [],
        false, false⟩ := by
  obtain ⟨oldAny, newAny⟩ := expressible.any_of_open
  have closed : ∀ {isOpen : Bool} {side : HunkLine → Bool},
      (isOpen = true → hunk.lines.any side = true) →
        endsOpen isOpen side hunk.lines = false := by
    intro isOpen side some
    cases isOpen with
    | false => rfl
    | true => simp [endsOpen, some rfl]
  rw [Hunk.upTo, closed oldAny, closed newAny]

/-- Everything is known of a hunk whose lines are read. -/
theorem upTo_lines (hunk : Hunk) : hunk.upTo hunk.lines [] = hunk := by
  simp [Hunk.upTo, endsOpen]

/-- A hunk that is written is read back. -/
theorem reads_hunk {state : ReadState} {spec : Spec} {hunk : Hunk}
    (ended : readEnd state = .ok [spec]) (complete : hunk.Complete)
    (expressible : hunk.Expressible) :
    ∃ last, Reads state (hunk.written.map String.toList) [] last ∧
      readEnd last = .ok [spec.addHunk hunk] := by
  have announced := readDiffLine_header ended complete
  have oldLines : hunk.lines.countP HunkLine.isOld = hunk.oldCount := by
    rw [List.countP_eq_length_filter]
    exact complete.old
  have newLines : hunk.lines.countP HunkLine.isNew = hunk.newCount := by
    rw [List.countP_eq_length_filter]
    exact complete.new
  rw [← upTo_nil expressible, ← oldLines, ← newLines] at announced
  obtain ⟨last, walk, done⟩ :=
    reads_markedLines spec expressible [] hunk.lines rfl
  rw [upTo_lines] at done
  exact ⟨last, (Reads.step announced).append walk, done⟩

theorem reads_hunks {state : ReadState} {spec : Spec}
    (ended : readEnd state = .ok [spec]) (hunks : List Hunk)
    (writable : ∀ hunk ∈ hunks, hunk.Complete ∧ hunk.Expressible) :
    ∃ last,
      Reads state ((hunks.flatMap Hunk.written).map String.toList) [] last ∧
        readEnd last = .ok [{ spec with hunks := spec.hunks ++ hunks }] := by
  induction hunks generalizing state spec with
  | nil => exact ⟨state, .nil state, by rw [ended, List.append_nil]⟩
  | cons hunk rest inductionHypothesis =>
      obtain ⟨complete, expressible⟩ := writable hunk List.mem_cons_self
      obtain ⟨next, first, added⟩ := reads_hunk ended complete expressible
      obtain ⟨last, later, done⟩ := inductionHypothesis added
        fun other member => writable other (List.mem_cons_of_mem _ member)
      refine ⟨last, ?_, ?_⟩
      · rw [List.flatMap_cons, List.map_append]
        exact first.append later
      · rw [done, Spec.addHunk, List.append_assoc]
        rfl

/-- A specification that is written is read back, after what is pending is
closed. -/
theorem reads_spec {state : ReadState} {pending : List Spec} {spec : Spec}
    (ended : readEnd state = .ok pending) (writable : spec.Writable) :
    ∃ last, Reads state (spec.written.map String.toList) pending last ∧
      readEnd last = .ok [spec] := by
  have outside : readOutside ("--- ".toList ++ spec.oldPath.toList) =
      .afterOldHeader spec.oldPath := by
    rw [readOutside, stripStart_append]
    dsimp only
    rw [headerPath_toList writable.oldPath]
  have old : readDiffLine state ("--- " ++ spec.oldPath).toList =
      .ok (.afterOldHeader spec.oldPath, pending) := by
    rw [String.toList_append, ← outside]
    exact readDiffLine_of_readEnd ended (by decide) (by decide)
  have new : readDiffLine (.afterOldHeader spec.oldPath)
      ("+++ " ++ spec.newPath).toList =
      .ok (.betweenHunks ⟨spec.oldPath, spec.newPath, []⟩, []) := by
    rw [String.toList_append, readDiffLine, stripStart_append]
    dsimp only
    rw [headerPath_toList writable.newPath]
  have started : readEnd (.betweenHunks ⟨spec.oldPath, spec.newPath, []⟩) =
      .ok [⟨spec.oldPath, spec.newPath, []⟩] := rfl
  obtain ⟨last, walk, done⟩ := reads_hunks started spec.hunks
    fun hunk member =>
      ⟨writable.complete hunk member, writable.expressible hunk member⟩
  refine ⟨last, ?_, done⟩
  have whole := Reads.cons old (Reads.cons new walk)
  rwa [List.append_nil, List.append_nil] at whole

/-- Specifications that are written one after another are read back. -/
theorem reads_specs {state : ReadState} {pending : List Spec}
    (ended : readEnd state = .ok pending) (specs : List Spec)
    (writable : ∀ spec ∈ specs, spec.Writable) :
    ∃ closed last final,
      Reads state ((specs.flatMap Spec.written).map String.toList) closed
          last ∧
        readEnd last = .ok final ∧ closed ++ final = pending ++ specs := by
  induction specs generalizing state pending with
  | nil =>
      exact ⟨[], state, pending, .nil state, ended, (List.append_nil _).symm⟩
  | cons spec rest inductionHypothesis =>
      obtain ⟨next, first, done⟩ :=
        reads_spec ended (writable spec List.mem_cons_self)
      obtain ⟨closed, last, final, later, finished, whole⟩ :=
        inductionHypothesis done
          fun other member => writable other (List.mem_cons_of_mem _ member)
      refine ⟨pending ++ closed, last, final, ?_, finished, ?_⟩
      · rw [List.flatMap_cons, List.map_append]
        exact first.append later
      · rw [List.append_assoc, whole]
        rfl

/-! ## Lines of a written diff -/

theorem unbroken_rangeChars (start count : Nat) :
    Unbroken (rangeChars start count) :=
  ⟨not_mem_rangeChars (by decide) (by decide),
    not_mem_rangeChars (by decide) (by decide)⟩

theorem clear_header (hunk : Hunk) :
    hunk.header.toList ≠ [] ∧ Unbroken hunk.header.toList := by
  rw [toList_header]
  refine ⟨List.cons_ne_nil _ _, .append (by decide) (.append
    (unbroken_rangeChars _ _) (.cons (by decide) (by decide)
      (.cons (by decide) (by decide)
        (.append (unbroken_rangeChars _ _) (by decide)))))⟩

theorem clear_marker (line : HunkLine) :
    line.marker.toList ≠ [] ∧ Unbroken line.marker.toList := by
  cases line <;> simp [HunkLine.marker, Unbroken]

theorem clear_markedLines {oldOpen newOpen : Bool} {lines : List HunkLine}
    (unbroken : ∀ line ∈ lines, Unbroken line.text.toList) {written : String}
    (member : written ∈ markedLines oldOpen newOpen lines) :
    written.toList ≠ [] ∧ Unbroken written.toList := by
  induction lines with
  | nil => exact absurd member List.not_mem_nil
  | cons line rest inductionHypothesis =>
      rw [markedLines, List.mem_cons, List.mem_append] at member
      rcases member with rfl | notice | later
      · obtain ⟨some, marker⟩ := clear_marker line
        rw [String.toList_append]
        exact ⟨List.append_ne_nil_of_left_ne_nil some _,
          marker.append (unbroken line List.mem_cons_self)⟩
      · split at notice
        · rw [List.mem_singleton.1 notice]
          decide
        · exact absurd notice List.not_mem_nil
      · exact inductionHypothesis
          (fun other inside => unbroken other (List.mem_cons_of_mem _ inside))
          later

/-- The lines of a specification are neither empty nor broken. -/
theorem Spec.Writable.clear {spec : Spec} (writable : spec.Writable)
    {written : String} (member : written ∈ spec.written) :
    written.toList ≠ [] ∧ Unbroken written.toList := by
  rcases List.mem_cons.1 member with rfl | member
  · rw [String.toList_append]
    exact ⟨List.cons_ne_nil _ _,
      .append (by decide) writable.oldPath.unbroken⟩
  · rcases List.mem_cons.1 member with rfl | member
    · rw [String.toList_append]
      exact ⟨List.cons_ne_nil _ _,
        .append (by decide) writable.newPath.unbroken⟩
    · obtain ⟨hunk, inside, member⟩ := List.mem_flatMap.1 member
      rcases List.mem_cons.1 member with rfl | member
      · exact clear_header hunk
      · exact clear_markedLines (writable.complete hunk inside).unbroken member

/-- A text consists of the lines of written specifications, each closed in one
of the three ways.  Only the last line may be left open. -/
def Writes (lines : List Line) (specs : List Spec) : Prop :=
  Closed lines ∧
    lines.map Line.content = (specs.flatMap Spec.written).map String.toList

/-- A written diff is read back as it was. -/
theorem parse_of_writes {lines : List Line} {specs : List Spec}
    (writable : ∀ spec ∈ specs, spec.Writable) (writes : Writes lines specs)
    (name : String) :
    parse (String.ofList (joinLines lines)) name = .ok specs := by
  obtain ⟨closed, contents⟩ := writes
  have clear : ∀ line ∈ lines, line.content ≠ [] ∧ Unbroken line.content := by
    intro line member
    have inside : line.content ∈ lines.map Line.content :=
      List.mem_map_of_mem member
    rw [contents] at inside
    obtain ⟨written, member, same⟩ := List.mem_map.1 inside
    obtain ⟨spec, given, member⟩ := List.mem_flatMap.1 member
    rw [← same]
    exact (writable spec given).clear member
  have outside : readEnd .outside = .ok [] := rfl
  obtain ⟨early, last, final, walk, ended, whole⟩ :=
    reads_specs outside specs writable
  refine parse_eq_ok.2 ⟨early, last, final, ?_, ended, whole.symm⟩
  rw [String.toList_ofList, lineContents_joinLines closed clear, contents]
  exact walk

/-- Reading a diff gives complete hunks only, and it gives back whatever can be
written. -/
theorem parse_sound_complete :
    (∀ (text name : String) (specs : List Spec),
      parse text name = .ok specs → ∀ spec ∈ specs, spec.Complete) ∧
    ∀ (lines : List Line) (specs : List Spec) (name : String),
      (∀ spec ∈ specs, spec.Writable) → Writes lines specs →
        parse (String.ofList (joinLines lines)) name = .ok specs :=
  ⟨fun _ _ _ parsed => complete_of_parse parsed,
    fun _ _ name writable writes => parse_of_writes writable writes name⟩

/-- Lines that look like headers or notices stay lines of their hunks, and an
empty hunk has none. -/
theorem parse_sound_complete_sample :
    let moved : Spec :=
      { oldPath := "a/F", newPath := "b/F"
        hunks := [
          ⟨1, 2, 1, 2, [.context "@@ -1 +1 @@", .remove "-- a/G",
            .add "++ b/G"], true, true⟩,
          ⟨0, 0, 0, 0, [], false, false⟩] }
    let created : Spec :=
      { oldPath := missingPath, newPath := "b/H"
        hunks := [⟨0, 0, 1, 1, [.add "\\ No newline"], false, true⟩] }
    let lines := ([moved, created].flatMap Spec.written).map fun written =>
      (⟨written.toList, .carriageReturnLineFeed⟩ : Line)
    parse (String.ofList (joinLines lines)) "fix.patch" =
        .ok [moved, created] ∧
      moved.Complete ∧ created.Complete := by
  intro moved created lines
  have movedWritable : moved.Writable := by
    refine ⟨by decide, by decide, by decide,
      fun hunk member => ?_⟩
    rcases List.mem_cons.1 member with rfl | member
    · exact .inr ⟨⟨_, rfl⟩, _, rfl⟩
    · rw [List.mem_singleton.1 member]
      trivial
  have createdWritable : created.Writable := by
    refine ⟨by decide, by decide, by decide,
      fun hunk member => ?_⟩
    rw [List.mem_singleton.1 member]
    exact ⟨_, rfl⟩
  have writable : ∀ spec ∈ [moved, created], spec.Writable := by
    intro spec member
    rcases List.mem_cons.1 member with rfl | member
    · exact movedWritable
    · rw [List.mem_singleton.1 member]
      exact createdWritable
  have writes : Writes lines [moved, created] :=
    ⟨by decide +kernel, List.map_map⟩
  have parsed :=
    parse_sound_complete.2 lines [moved, created] "fix.patch" writable writes
  have complete := parse_sound_complete.1 _ _ _ parsed
  exact ⟨parsed, complete moved (by simp), complete created (by simp)⟩

end Deobfuscate.Patch
