import Deobfuscate.Chain

/-!
# Reading a recorded digest

The digest of a chain is recorded as a line of hexadecimal digits.  Reading the
record gives the digest again.
-/

namespace Deobfuscate

namespace Text

theorem decode_encode (text : String) : decode (encode text) = some text := by
  have whole : (⟨(encode text).toArray⟩ : ByteArray) = text.toByteArray := by
    apply ByteArray.ext
    simp [encode]
  unfold decode String.fromUTF8?
  rw [whole, dif_pos text.isValidUTF8]
  rfl

theorem dropWhile_of_unblank {chars : List Char}
    (unblank : ∀ char ∈ chars, isBlank char = false) :
    chars.dropWhile isBlank = chars := by
  cases chars with
  | nil => rfl
  | cons char rest =>
      rw [List.dropWhile_cons_of_neg]
      simp [unblank char (by simp)]

/-- Nothing is trimmed off characters that are not blank. -/
theorem trimChars_of_unblank {chars : List Char}
    (unblank : ∀ char ∈ chars, isBlank char = false) :
    trimChars chars = chars := by
  have backwards : ∀ char ∈ chars.reverse, isBlank char = false := by
    simpa using unblank
  rw [trimChars, trimStartChars, dropWhile_of_unblank unblank, trimEndChars,
    dropWhile_of_unblank backwards, List.reverse_reverse]

/-- A line break at the end is trimmed off. -/
theorem trimChars_line {chars : List Char} (written : chars ≠ [])
    (unblank : ∀ char ∈ chars, isBlank char = false) :
    trimChars (chars ++ ['\n']) = chars := by
  have start : trimStartChars (chars ++ ['\n']) = chars ++ ['\n'] := by
    obtain ⟨char, rest, rfl⟩ := List.exists_cons_of_ne_nil written
    rw [trimStartChars, List.cons_append, List.dropWhile_cons_of_neg]
    simp [unblank char (by simp)]
  have backwards : ∀ char ∈ chars.reverse, isBlank char = false := by
    simpa using unblank
  have broken : isBlank '\n' = true := by decide
  rw [trimChars, start, trimEndChars, List.reverse_append]
  simp only [List.reverse_cons, List.reverse_nil, List.nil_append,
    List.singleton_append, List.dropWhile_cons, broken, if_true]
  rw [dropWhile_of_unblank backwards, List.reverse_reverse]

end Text

namespace Fingerprint

/-- A character that a fingerprint is written with. -/
def Written (char : Char) : Prop :=
  Text.isBlank char = false ∧ (Text.hexDigit? char).isSome = true ∧
    lowerHexDigit char = char

instance (char : Char) : Decidable (Written char) :=
  inferInstanceAs (Decidable (_ ∧ _))

theorem written_digitChar {digit : Nat} (small : digit < 16) :
    Written (Nat.digitChar digit) := by
  have each : ∀ digit : Fin 16, Written (Nat.digitChar digit) := by decide
  exact each ⟨digit, small⟩

theorem written_of_mem_hexOf {bytes : Bytes} {char : Char}
    (member : char ∈ (Text.hexOf bytes).toList) : Written char := by
  rw [Text.hexOf, String.toList_ofList] at member
  obtain ⟨byte, _, inside⟩ := List.mem_flatMap.1 member
  have bound := byte.toNat_lt
  simp only [Text.hexOfByte, List.mem_cons, List.not_mem_nil, or_false] at inside
  rcases inside with rfl | rfl
  · exact written_digitChar (by omega)
  · exact written_digitChar (by omega)

theorem length_hexOf (bytes : Bytes) :
    (Text.hexOf bytes).toList.length = 2 * bytes.length := by
  rw [Text.hexOf, String.toList_ofList]
  induction bytes with
  | nil =>
      rfl
  | cons byte rest inductionHypothesis =>
      rw [List.flatMap_cons, List.length_append, inductionHypothesis]
      simp only [Text.hexOfByte, List.length_cons, List.length_nil]
      omega

/-- A fingerprint is read back from its line. -/
theorem parse_line (bytes : Bytes) :
    parse (Text.trim ((ofBytes bytes).text ++ "\n")) = some (ofBytes bytes) := by
  have size : (Text.hexOf (Sha256.hash bytes)).toList.length = 64 := by
    rw [length_hexOf, Sha256.length_hash]
  have written : ∀ char ∈ (Text.hexOf (Sha256.hash bytes)).toList,
      Written char := fun _ => written_of_mem_hexOf
  have unblank : ∀ char ∈ (Text.hexOf (Sha256.hash bytes)).toList,
      Text.isBlank char = false := fun char member => (written char member).1
  have some : (Text.hexOf (Sha256.hash bytes)).toList ≠ [] := by
    intro empty
    rw [empty] at size
    cases size
  have line : Text.trim ((ofBytes bytes).text ++ "\n") =
      Text.hexOf (Sha256.hash bytes) := by
    rw [ofBytes, Text.trim, String.toList_append]
    have broken : "\n".toList = ['\n'] := by decide
    rw [broken, Text.trimChars_line some unblank, String.ofList_toList]
  have digits : (Text.hexOf (Sha256.hash bytes)).toList.all
      (fun char => (Text.hexDigit? char).isSome) = true := by
    rw [List.all_eq_true]
    exact fun char member => (written char member).2.1
  have lower : (Text.hexOf (Sha256.hash bytes)).toList.map lowerHexDigit =
      (Text.hexOf (Sha256.hash bytes)).toList := by
    rw [List.map_congr_left (fun char member => (written char member).2.2),
      List.map_id']
  rw [line, parse]
  simp only [Text.trimChars_of_unblank unblank, size, digits, lower,
    String.ofList_toList, decide_true, Bool.and_self, if_true]
  rfl

end Fingerprint

/-- A recorded digest is the one that is kept for the output. -/
theorem Chain.storedDigest_recorded {tree : FileTree} {output : Path}
    {bytes : Bytes}
    (recorded : tree.readBytes (digestPathFor output) =
      .ok (Text.encode ((Fingerprint.ofBytes bytes).text ++ "\n"))) :
    storedDigest tree output = some (Fingerprint.ofBytes bytes) := by
  have read : tree.readText (digestPathFor output) =
      .ok ((Fingerprint.ofBytes bytes).text ++ "\n") := by
    unfold FileTree.readText
    rw [recorded]
    simp only [bind, Except.bind, Text.decode_encode]
    rfl
  rw [storedDigest, read]
  exact Fingerprint.parse_line bytes

end Deobfuscate
