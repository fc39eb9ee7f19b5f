import Deobfuscate.Dict
import Deobfuscate.Patch.Report
import Deobfuscate.Patch.Window
import Deobfuscate.Text.Lines

/-!
# Working sets

A working set holds texts by path.  Applying specifications edits each target
as a whole: of the specifications that name it, the first whose hunks all find
a window is carried out, and a target without such a specification stays as it
is.
-/

namespace Deobfuscate.Patch

open Deobfuscate.Text

/-- A text as its lines, the terminator it uses and whether the last line is
terminated. -/
structure TextFile where
  lines : List String
  terminator : Terminator
  closed : Bool
  deriving DecidableEq, Repr

namespace TextFile

/-- Take a text apart. -/
def ofText (text : String) : TextFile :=
  let chars := text.toList
  { lines := (lineContents chars).map String.ofList
    terminator := firstTerminator chars
    closed := endsClosed chars }

/-- Put a text together. -/
def render (file : TextFile) : String :=
  let terminator := String.ofList file.terminator.chars
  let body := terminator.intercalate file.lines
  if file.closed && !file.lines.isEmpty then body ++ terminator else body

end TextFile

/-- The numbers of a signed machine word lie below this one. -/
def machineLimit : Nat := 0x8000000000000000

/-- Whether a signed machine word holds an integer. -/
def isWord (value : Int) : Bool :=
  -(machineLimit : Int) ≤ value && value < machineLimit

/-- A number of 64 bits, read as a signed machine word. -/
def wrapWord (value : Int) : Int :=
  Int.bmod value 0x10000000000000000

/-- A file under edit: the lines that no later hunk may touch, the lines that
are left, and how far edits have moved what is left. -/
structure Progress where
  settled : List String
  pending : List String
  shift : Int
  deriving DecidableEq, Repr

/-- The position before the first line of the old side, as the header records
it.  Positions that are too large for a signed word come out negative. -/
def Hunk.recorded (hunk : Hunk) : Int :=
  wrapWord
    (if hunk.oldLines.isEmpty then hunk.oldStart else hunk.oldStart - 1 : Nat)

def replacement : List HunkLine → List String → List String
  | [], _ => []
  | .context text :: lines, window =>
      window.headD text :: replacement lines window.tail
  | .remove _ :: lines, window => replacement lines window.tail
  | .add text :: lines, window => text :: replacement lines window

/-- Where a hunk goes among the lines that are left, and at which fuzz. -/
def Progress.place (progress : Progress) (options : Options) (hunk : Hunk)
    (expected : Int) : Option (Nat × Nat) :=
  let old := hunk.oldLines
  let here := expected - progress.settled.length
  if old.isEmpty then
    some ((max 0 (min here progress.pending.length)).toNat, 0)
  else findWindow options progress.pending old here

/-- Apply a hunk, if it finds a window. -/
def Progress.step (progress : Progress) (options : Options) (index : Nat)
    (hunk : Hunk) : Progress × HunkReport :=
  let expected := hunk.recorded + progress.shift
  match progress.place options hunk expected with
  | none =>
      (progress,
        ⟨index, .failure, options.maxFuzz, (0, options.maxFuzz), 0, hunk⟩)
  | some (position, fuzz) =>
      let size := hunk.oldLines.length
      let before := progress.pending.take position
      let window := (progress.pending.drop position).take size
      let new := replacement hunk.lines window
      let settled := progress.settled ++ before ++ new
      let found : Int := (progress.settled.length + position : Nat)
      ({ settled
         pending := progress.pending.drop (position + size)
         shift := found + new.length - size - hunk.recorded },
        { index
          status := if fuzz = 0 then .success else .fuzzed
          fuzz
          attempted := (0, fuzz)
          offset := found - expected
          hunk })

/-- Apply hunks in order, the first of which has a given index. -/
def Progress.run (options : Options) :
    Nat → Progress → List Hunk → Progress × List HunkReport
  | _, progress, [] => (progress, [])
  | index, progress, hunk :: hunks =>
      let (progress, report) := progress.step options index hunk
      let (progress, reports) := Progress.run options (index + 1) progress hunks
      (progress, report :: reports)

def applyHunks (options : Options) (lines : List String)
    (hunks : List Hunk) : List String × List HunkReport :=
  let (progress, reports) := Progress.run options 1 ⟨[], lines, 0⟩ hunks
  (progress.settled ++ progress.pending, reports)

/-! ## Machine words

Positions are computed in signed machine words, and a run stops at a result that
no word holds. -/

/-- Whether the search for the window of a hunk gets by with words.  It takes the
distances to both ends, and at every distance that it goes through the position
after and the one before the expected one. -/
def Progress.searchFits (progress : Progress) (options : Options)
    (hunk : Hunk) (expected : Int) : Bool :=
  let low : Int := progress.settled.length
  let high := low + progress.pending.length - hunk.oldLines.length
  let reach := max (distance expected low) (distance high expected)
  let last :=
    match progress.place options hunk expected with
    | some (position, 0) => distance (low + position) expected
    | _ => reach
  high < low ||
    isWord reach && isWord (expected + last) && isWord (expected - last)

def Progress.fits (progress : Progress) (options : Options)
    (hunk : Hunk) : Bool :=
  let expected := hunk.recorded + progress.shift
  let (next, report) := progress.step options 0 hunk
  isWord expected &&
    (hunk.oldLines.isEmpty || progress.searchFits options hunk expected) &&
    isWord next.shift && isWord report.offset

/-- Whether applying hunks in order gets by with words. -/
def Progress.runFits (options : Options) : Progress → List Hunk → Bool
  | _, [] => true
  | progress, hunk :: hunks =>
      progress.fits options hunk &&
        Progress.runFits options (progress.step options 0 hunk).1 hunks

/-- Apply hunks to lines, unless the run stops. -/
def applyHunks? (options : Options) (lines : List String)
    (hunks : List Hunk) : Option (List String × List HunkReport) :=
  if Progress.runFits options ⟨[], lines, 0⟩ hunks then
    some (applyHunks options lines hunks)
  else none

abbrev WorkingSet := Dict String

/-- What a successful specification does to its target. -/
inductive Outcome
  | write (text : String)
  | delete
  deriving DecidableEq, Repr

/-- Whether the edited file ends with a terminator. -/
def closedAfter (spec : Spec) (closed : Bool) : Bool :=
  if spec.hunks.any Hunk.newOpenEnded then false
  else if spec.hunks.any Hunk.oldOpenEnded then true
  else closed

def tryHunks (options : Options) (target : String) (spec : Spec)
    (base : String) : Report × Option Outcome :=
  let file := TextFile.ofText base
  let (lines, hunks) := applyHunks options file.lines spec.hunks
  let report := Report.ofHunks target hunks
  if !report.status.isSuccess then (report, none)
  else if spec.isDeletion then (report, some .delete)
  else
    let edited :=
      { file with lines := lines, closed := closedAfter spec file.closed }
    (report, some (.write edited.render))

/-- Try a specification on its target without changing anything. -/
def tryOn (set : WorkingSet) (options : Options) (target : String)
    (spec : Spec) : Report × Option Outcome :=
  match set.get? target, spec.isCreation with
  | some _, true => (.refused target .alreadyExists, none)
  | none, false => (.refused target .notFound, none)
  | none, true => tryHunks options target spec ""
  | some base, false => tryHunks options target spec base

/-- Try competing specifications in order: the first that succeeds, or else the
last one. -/
def tryAll (set : WorkingSet) (options : Options) (target : String) :
    List Spec → Option (Report × Option Outcome)
  | [] => none
  | spec :: specs =>
      let attempt := tryOn set options target spec
      if attempt.1.status.isSuccess || specs.isEmpty then some attempt
      else tryAll set options target specs

/-- Carry out what a specification does to its target. -/
def commit (set : WorkingSet) (target : String) :
    Option Outcome → WorkingSet
  | some (.write text) => set.insert target text
  | some .delete => set.erase target
  | none => set

/-- The targets of specifications, each once, in the order of their first
appearance. -/
def targets (options : Options) (specs : List Spec) : List String :=
  (specs.map (·.target options.strip)).eraseDups

def applyTargets (options : Options) (specs : List Spec) :
    WorkingSet → List String → WorkingSet × List Report
  | set, [] => (set, [])
  | set, target :: rest =>
      let competing := specs.filter (·.target options.strip = target)
      match tryAll set options target competing with
      | none => applyTargets options specs set rest
      | some (report, outcome) =>
          let (set, reports) :=
            applyTargets options specs (commit set target outcome) rest
          (set, report :: reports)

/-- The first failed target of a run that may not fail. -/
structure Rejection where
  target : String
  failure : Option Refusal
  reports : List Report
  deriving DecidableEq, Repr

def Rejection.reason (rejection : Rejection) : String :=
  (rejection.failure.map Refusal.message).getD "patch failed"

def Rejection.message (rejection : Rejection) : String :=
  s!"patch for {rejection.target} rejected: {rejection.reason}"

/-- Apply specifications.  Targets that were edited stay edited even if another
one fails. -/
def apply (set : WorkingSet) (specs : List Spec) (options : Options) :
    WorkingSet × Except Rejection (List Report) :=
  let (set, reports) :=
    applyTargets options specs set (targets options specs)
  let failed := reports.find? (·.status = .failure)
  match options.allowFailure, failed with
  | false, some report => (set, .error ⟨report.target, report.failure, reports⟩)
  | _, _ => (set, .ok reports)

def tryFits (set : WorkingSet) (options : Options) (target : String)
    (spec : Spec) : Bool :=
  let fits (base : String) : Bool :=
    (applyHunks? options (TextFile.ofText base).lines spec.hunks).isSome
  match set.get? target, spec.isCreation with
  | some _, true => true
  | none, false => true
  | none, true => fits ""
  | some base, false => fits base

/-- Whether trying competing specifications in order gets by with words. -/
def tryAllFits (set : WorkingSet) (options : Options) (target : String) :
    List Spec → Bool
  | [] => true
  | spec :: specs =>
      tryFits set options target spec &&
        ((tryOn set options target spec).1.status.isSuccess ||
          tryAllFits set options target specs)

/-- Whether applying the specifications of the given targets gets by with
words. -/
def targetsFit (options : Options) (specs : List Spec) :
    WorkingSet → List String → Bool
  | _, [] => true
  | set, target :: rest =>
      let competing := specs.filter (·.target options.strip = target)
      let outcome := (tryAll set options target competing).bind Prod.snd
      tryAllFits set options target competing &&
        targetsFit options specs (commit set target outcome) rest

/-- Apply specifications, unless the run stops. -/
def applySpecs? (set : WorkingSet) (specs : List Spec) (options : Options) :
    Option (WorkingSet × Except Rejection (List Report)) :=
  if targetsFit options specs set (targets options specs) then
    some (apply set specs options)
  else none

theorem applySpecs?_eq_some {set : WorkingSet} {specs : List Spec}
    {options : Options} {result : WorkingSet × Except Rejection (List Report)}
    (ran : applySpecs? set specs options = some result) :
    apply set specs options = result := by
  rw [applySpecs?, Option.ite_none_right_eq_some] at ran
  exact Option.some.inj ran.2

end Deobfuscate.Patch
