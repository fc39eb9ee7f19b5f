import Deobfuscate.Text.Bytes

/-!
# Numbers as bytes

Numbers are stored with their least significant byte first.  The main
statement says that a number that fits into its width is read back.
-/

namespace Deobfuscate.LittleEndian

/-- The bytes of a number in a given width; what does not fit is dropped. -/
def bytes : Nat → Nat → Bytes
  | 0, _ => []
  | width + 1, value => UInt8.ofNat value :: bytes width (value / 256)

/-- The number that bytes store. -/
def value : Bytes → Nat
  | [] => 0
  | byte :: rest => byte.toNat + 256 * value rest

@[simp]
theorem length_bytes (width value : Nat) :
    (bytes width value).length = width := by
  induction width generalizing value with
  | zero => rfl
  | succ width inductionHypothesis => simp [bytes, inductionHypothesis]

/-- The number of values that a width holds. -/
def capacity : Nat → Nat
  | 0 => 1
  | width + 1 => 256 * capacity width

/-- Reading gives back a number as far as its width holds it. -/
theorem value_bytes (width number : Nat) :
    value (bytes width number) = number % capacity width := by
  induction width generalizing number with
  | zero => simp [bytes, value, capacity, Nat.mod_one]
  | succ width inductionHypothesis =>
      have split : number % capacity (width + 1) =
          number % 256 + 256 * (number / 256 % capacity width) :=
        Nat.mod_mul
      simp only [bytes, value, inductionHypothesis, split]
      rfl

/-- Numbers that fit into their width have different bytes. -/
theorem bytes_injective {width left right : Nat}
    (leftFits : left < capacity width) (rightFits : right < capacity width)
    (same : bytes width left = bytes width right) : left = right := by
  have equal := congrArg value same
  rwa [value_bytes, value_bytes, Nat.mod_eq_of_lt leftFits,
    Nat.mod_eq_of_lt rightFits] at equal

end Deobfuscate.LittleEndian
