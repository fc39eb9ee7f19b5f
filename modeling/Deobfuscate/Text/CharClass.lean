/-!
# Character classes

A class of characters is given by the ranges of code points it holds, both
ends included.
-/

namespace Deobfuscate.Text

/-- Ranges of code points, both ends included. -/
abbrev CharClass := List (Nat × Nat)

def CharClass.has (ranges : CharClass) (char : Char) : Bool :=
  ranges.any fun range => range.1 ≤ char.toNat && char.toNat ≤ range.2

theorem CharClass.has_iff {ranges : CharClass} {char : Char} :
    ranges.has char = true ↔
      ∃ range ∈ ranges, range.1 ≤ char.toNat ∧ char.toNat ≤ range.2 := by
  simp [CharClass.has]

end Deobfuscate.Text
