import Deobfuscate.Shell.Integer

/-!
# Names in messages

Programs show names in such a way that they could stand in a script: in quotes
if that is needed, and with escapes for what cannot be printed.
-/

namespace Deobfuscate.Shell

def isPrintable (char : Char) : Bool :=
  ' ' ≤ char && char ≤ '~'

/-- The escape of a character that cannot be printed. -/
def escapeOf (char : Char) : String :=
  let octal := String.ofList (Nat.toDigits 8 char.toNat)
  match char with
  | '\x07' => "\\a"
  | '\x08' => "\\b"
  | '\t' => "\\t"
  | '\n' => "\\n"
  | '\x0b' => "\\v"
  | '\x0c' => "\\f"
  | '\x0d' => "\\r"
  | _ => "\\" ++ String.ofList (List.replicate (3 - octal.length) '0') ++ octal

def needsQuotes (name : List Char) (index : Nat) (char : Char) : Bool :=
  " !\"$&'()*:;<=>?[\\^`|".toList.contains char || !isPrintable char ||
    (index == 0 && (char == '#' || char == '~')) ||
    (name.length == 1 && (char == '{' || char == '}'))

/-- Whether a character means the same in single and in double quotes. -/
def isHarmless (char : Char) : Bool :=
  isPrintable char && !"!\"$&()*;<=>?[\\^`|".toList.contains char

/-- What stands between single quotes for some characters.  What cannot be
printed stands in quotes of another kind; `escaping` says whether these are
open. -/
def insideQuotes : Bool → List Char → String
  | _, [] => ""
  | escaping, char :: rest =>
      if isPrintable char then
        (if escaping then "''" else "") ++
          (if char == '\'' then "'\\''" else String.singleton char) ++
            insideQuotes false rest
      else
        (if escaping then "" else "'$'") ++ escapeOf char ++
          insideQuotes true rest

def quotedName (name : String) : String :=
  let chars := name.toList
  if chars.contains '\'' && chars.all isHarmless then "\"" ++ name ++ "\""
  else "'" ++ insideQuotes false chars ++ "'"

def shownName (name : String) : String :=
  let chars := name.toList
  if name == "" || chars.zipIdx.any fun (char, index) =>
      needsQuotes chars index char
  then quotedName name
  else name

def quotedText (text : String) : String :=
  let shown (char : Char) : String :=
    if char == '\'' || char == '\\' then "\\" ++ String.singleton char
    else if isPrintable char then String.singleton char
    else escapeOf char
  "'" ++ String.join (text.toList.map shown) ++ "'"

end Deobfuscate.Shell
