/-!
# Searching and cutting texts

Cutting at a character, finding and replacing a piece, and the tests for both
ends of a text.  Everything is stated on lists of characters.
-/

namespace Deobfuscate.Text

/-- The parts before and after the first occurrence of a character. -/
def splitOnce (separator : Char) :
    List Char → Option (List Char × List Char)
  | [] => none
  | char :: rest =>
      if char = separator then some ([], rest)
      else (splitOnce separator rest).map fun parts =>
        (char :: parts.1, parts.2)

/-- The parts before and after the last occurrence of a character. -/
def splitLast (separator : Char) :
    List Char → Option (List Char × List Char)
  | [] => none
  | char :: rest =>
      match splitLast separator rest with
      | some parts => some (char :: parts.1, parts.2)
      | none => if char = separator then some ([], rest) else none

/-- The pieces between the occurrences of a character. -/
def splitOn (separator : Char) : List Char → List (List Char)
  | [] => [[]]
  | char :: rest =>
      if char = separator then [] :: splitOn separator rest
      else
        match splitOn separator rest with
        | [] => [[char]]
        | piece :: pieces => (char :: piece) :: pieces

theorem splitOnce_eq_some {separator : Char}
    {chars before after : List Char}
    (found : splitOnce separator chars = some (before, after)) :
    chars = before ++ separator :: after ∧ separator ∉ before := by
  induction chars generalizing before after with
  | nil =>
      simp [splitOnce] at found
  | cons char rest ih =>
      simp only [splitOnce] at found
      split at found
      · rename_i equal
        simp only [Option.some.injEq, Prod.mk.injEq] at found
        simp [← found.1, ← found.2, equal]
      · rename_i different
        obtain ⟨parts, inner, equal⟩ := Option.map_eq_some_iff.1 found
        obtain ⟨first, second⟩ := parts
        simp only [Prod.mk.injEq] at equal
        obtain ⟨whole, absent⟩ := ih inner
        refine ⟨?_, ?_⟩
        · rw [← equal.1, ← equal.2, whole]
          rfl
        · rw [← equal.1]
          simp only [List.mem_cons, not_or]
          exact ⟨fun same => different same.symm, absent⟩

def stripStart : List Char → List Char → Option (List Char)
  | [], chars => some chars
  | _ :: _, [] => none
  | expected :: more, char :: rest =>
      if expected = char then stripStart more rest else none

def startsWith (piece chars : List Char) : Bool :=
  piece.isPrefixOf chars

def endsWith (piece chars : List Char) : Bool :=
  piece.isSuffixOf chars

/-- The parts before and after the first occurrence of a piece. -/
def findPiece (piece : List Char) :
    List Char → Option (List Char × List Char)
  | [] => if piece.isEmpty then some ([], []) else none
  | char :: rest =>
      match stripStart piece (char :: rest) with
      | some after => some ([], after)
      | none => (findPiece piece rest).map fun parts =>
          (char :: parts.1, parts.2)

def findLastPiece (piece : List Char) :
    List Char → Option (List Char × List Char)
  | [] => if piece.isEmpty then some ([], []) else none
  | char :: rest =>
      match findLastPiece piece rest with
      | some parts => some (char :: parts.1, parts.2)
      | none => (stripStart piece (char :: rest)).map fun after =>
          ([], after)

def hasPiece (piece chars : List Char) : Bool :=
  (findPiece piece chars).isSome

/-- Replace the occurrences of a piece of `skip + 1` characters from left to
right; the first `pending` characters belong to an occurrence already
replaced. -/
def replaceFrom (piece replacement : List Char) :
    Nat → List Char → List Char
  | _, [] => []
  | pending + 1, _ :: rest => replaceFrom piece replacement pending rest
  | 0, char :: rest =>
      if piece.isPrefixOf (char :: rest) then
        replacement ++ replaceFrom piece replacement (piece.length - 1) rest
      else char :: replaceFrom piece replacement 0 rest

/-- Replace every occurrence of a piece, from left to right without overlap.
The empty piece occurs before every character and at the end. -/
def replaceAll (piece replacement chars : List Char) : List Char :=
  if piece.isEmpty then
    replacement ++ chars.flatMap fun char => char :: replacement
  else replaceFrom piece replacement 0 chars

end Deobfuscate.Text
