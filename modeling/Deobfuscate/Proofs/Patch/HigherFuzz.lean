import Deobfuscate.Proofs.Patch.Competition
import Deobfuscate.Proofs.Patch.Landing

/-!
# Allowing more fuzz

More context lines may differ when a higher fuzz is allowed, but a hunk that
finds a window without that finds the same window with it.  Hence a
specification that succeeds does exactly the same when a higher fuzz is allowed,
and a target that is edited is edited then, too.
-/

namespace Deobfuscate.Patch

section Raised

variable {options : Options} {limit : Nat}
variable (raised : options.maxFuzz ≤ limit)

include raised

namespace Progress

end Progress

omit raised in
theorem isSuccess_ofHunks {target : String} {hunks : List HunkReport} :
    (Report.ofHunks target hunks).status.isSuccess = true ↔
      ∀ report ∈ hunks, report.status ≠ .failure := by
  have none : (∀ report ∈ hunks, report.status ≠ .failure) ↔
      hunks.countP (·.status = .failure) = 0 := by
    simp [List.countP_eq_zero]
  rw [none]
  unfold Report.ofHunks
  dsimp only
  split
  · rename_i some
    simp only [Status.isSuccess, Bool.false_eq_true, false_iff]
    omega
  · split <;> simp only [Status.isSuccess, true_iff] <;> omega

omit raised in
theorem tryHunks_report (target : String) (spec : Spec) (base : String) :
    (tryHunks options target spec base).1 =
      Report.ofHunks target
        (applyHunks options (TextFile.ofText base).lines spec.hunks).2 := by
  unfold tryHunks
  dsimp only
  split
  · rfl
  · split <;> rfl

omit raised in
/-- A single specification is tried on its target and carried out. -/
theorem applyTargets_single (set : WorkingSet) (spec : Spec) :
    applyTargets options [spec] set (targets options [spec]) =
      (commit set (spec.target options.strip)
          (tryOn set options (spec.target options.strip) spec).2,
        [(tryOn set options (spec.target options.strip) spec).1]) := by
  have single : targets options [spec] = [spec.target options.strip] := by
    simp [targets, List.eraseDups_cons]
  rw [single]
  simp [applyTargets, tryAll]

end Raised

end Deobfuscate.Patch
