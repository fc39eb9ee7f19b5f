import Deobfuscate.Text.Blank
import Deobfuscate.Text.Search
import Deobfuscate.Text.Word

/-!
# Lines up to access modifiers

Two lines are the same up to access modifiers when they are equal after every
`public`, `protected` or `private`, with the blanks after it, is dropped.  A
modifier starts a word and is followed by a blank.
-/

namespace Deobfuscate.Patch

open Deobfuscate.Text

def accessModifiers : List (List Char) :=
  ["public".toList, "protected".toList, "private".toList]

/-- The number of characters of a modifier and the blanks after it at the start
of a text; zero if there is none. -/
def modifierLength (chars : List Char) : Nat :=
  match accessModifiers.find? (startsWith · chars) with
  | none => 0
  | some modifier =>
      let blanks :=
        ((chars.drop modifier.length).takeWhile isBlank).length
      if blanks = 0 then 0 else modifier.length + blanks

/-- Drop the modifiers of a text.  `afterWord` tells whether a word character
stands before it, and the first `pending` characters are dropped already. -/
def dropModifiers (afterWord : Bool) : Nat → List Char → List Char
  | _, [] => []
  | pending + 1, char :: rest =>
      dropModifiers (isWordChar char) pending rest
  | 0, char :: rest =>
      let length := if afterWord then 0 else modifierLength (char :: rest)
      if length = 0 then
        char :: dropModifiers (isWordChar char) 0 rest
      else dropModifiers (isWordChar char) (length - 1) rest

/-- Whether two lines match; access modifiers count unless `canonical`. -/
def sameLine (canonical : Bool) (left right : String) : Bool :=
  left == right ||
    (canonical &&
      dropModifiers false 0 left.toList ==
        dropModifiers false 0 right.toList)

end Deobfuscate.Patch
