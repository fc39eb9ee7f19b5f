import Deobfuscate.Patch.Hunk

/-!
# Reports and the patch log

Applying a specification gives a report with one entry for each hunk.  The
log collects the reports of a run as text and counts the failed targets.
-/

namespace Deobfuscate.Patch

/-- How an edit went. -/
inductive Status
  | success
  | fuzzed
  | failure
  deriving DecidableEq, Repr

/-- Whether an edit was made. -/
def Status.isSuccess : Status → Bool
  | .failure => false
  | _ => true

/-- How one hunk went. -/
structure HunkReport where
  /-- The position of the hunk in its specification, counted from one. -/
  index : Nat
  status : Status
  /-- The context lines that differ, or the limit if no window was found. -/
  fuzz : Nat
  /-- The first and the last fuzz that was tried. -/
  attempted : Nat × Nat
  /-- The distance from the expected position; zero for a failed hunk. -/
  offset : Int
  hunk : Hunk
  deriving DecidableEq, Repr

/-- Why a target failed. -/
inductive Refusal
  | alreadyExists
  | notFound
  | hunksFailed (failed total : Nat)
  deriving DecidableEq, Repr

def Refusal.message : Refusal → String
  | .alreadyExists => "target already exists"
  | .notFound => "target not found"
  | .hunksFailed failed total => s!"{failed} of {total} hunks failed"

/-- How the specification of a target went. -/
structure Report where
  target : String
  status : Status
  hunks : List HunkReport
  failure : Option Refusal
  deriving DecidableEq, Repr

namespace Report

def refused (target : String) (refusal : Refusal) : Report :=
  ⟨target, .failure, [], some refusal⟩

def ofHunks (target : String) (hunks : List HunkReport) : Report :=
  let failed := hunks.countP (·.status = .failure)
  if 0 < failed then
    ⟨target, .failure, hunks, some (.hunksFailed failed hunks.length)⟩
  else if hunks.any (·.status = .fuzzed) then
    ⟨target, .fuzzed, hunks, none⟩
  else ⟨target, .success, hunks, none⟩

def failureMessage (report : Report) : Option String :=
  report.failure.map Refusal.message

end Report

/-- The text of a log and its counts. -/
structure Log where
  text : String := ""
  /-- The number of patch files announced. -/
  applied : Nat := 0
  /-- The number of failed targets. -/
  failed : Nat := 0
  deriving DecidableEq, Repr

def fuzzedLine (report : HunkReport) : String :=
  s!" - Hunk {report.index} fuzzed {report.fuzz}\n"

def failedLines (report : HunkReport) : String :=
  let hunk := report.hunk
  s!" - Hunk {report.index} failed ({hunk.oldStart}+{hunk.oldCount} -> " ++
    s!"{hunk.newStart}+{hunk.newCount}), fuzz " ++
    s!"{report.attempted.1}..={report.attempted.2}:\n" ++
    String.join (hunk.body.map (· ++ "\n"))

def hunkLines (report : HunkReport) : String :=
  match report.status with
  | .success => ""
  | .fuzzed => fuzzedLine report
  | .failure => failedLines report

/-- The log lines of a target; a clean success is not mentioned. -/
def Report.logLines (report : Report) : String :=
  match report.status with
  | .success => ""
  | .fuzzed =>
      s!"Patch fuzzed: {report.target}\n" ++
        String.join (report.hunks.map hunkLines)
  | .failure =>
      let reason := report.failureMessage.getD "unknown error"
      s!"Patch {report.target} failed: {reason}\n" ++
        String.join (report.hunks.map hunkLines)

namespace Log

/-- Announce a patch file. -/
def applying (log : Log) (name bundle : String) : Log :=
  { log with
    text := log.text ++ s!"Applying patch {name} from bundle {bundle}\n"
    applied := log.applied + 1 }

def record (log : Log) (reports : List Report) : Log :=
  { log with
    text := log.text ++ String.join (reports.map Report.logLines)
    failed := log.failed + reports.countP (·.status = .failure) }

end Log

end Deobfuscate.Patch
