import Deobfuscate.Text.CharClass

/-!
# Blanks

Blank characters are those with the Unicode property `White_Space`.  Trimming
removes them at the ends of a text, and `words` cuts a text at every run of
them.
-/

namespace Deobfuscate.Text

/-- The code points with the property `White_Space`. -/
def blankRanges : CharClass :=
  [(0x9, 0xd), (0x20, 0x20), (0x85, 0x85), (0xa0, 0xa0), (0x1680, 0x1680),
    (0x2000, 0x200a), (0x2028, 0x2029), (0x202f, 0x202f), (0x205f, 0x205f),
    (0x3000, 0x3000)]

def isBlank (char : Char) : Bool :=
  blankRanges.has char

def trimStartChars (chars : List Char) : List Char :=
  chars.dropWhile isBlank

def trimEndChars (chars : List Char) : List Char :=
  (chars.reverse.dropWhile isBlank).reverse

def trimChars (chars : List Char) : List Char :=
  trimEndChars (trimStartChars chars)

def trim (text : String) : String :=
  String.ofList (trimChars text.toList)

/-- Cut a text into its maximal runs of characters that are not blank. -/
def wordsOf : List Char → List (List Char)
  | [] => []
  | char :: rest =>
      if isBlank char then wordsOf rest
      else
        match rest, wordsOf rest with
        | next :: _, word :: words =>
            if isBlank next then [char] :: word :: words
            else (char :: word) :: words
        | _, words => [char] :: words

def words (text : String) : List String :=
  (wordsOf text.toList).map String.ofList

end Deobfuscate.Text
