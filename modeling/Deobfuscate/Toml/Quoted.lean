import Deobfuscate.Text.Bytes
import Deobfuscate.Toml.Reader

/-!
# Quoted texts of a document

A text stands between double quotes, with escapes, or between single quotes,
without; three quotes open a text that may go over several lines.
-/

namespace Deobfuscate.Toml

open Reader

/-- Whether a character may stand for itself in a text. -/
def isTextChar (char : Char) : Bool :=
  isCommentChar char

/-- A character given by its number in hexadecimal digits. -/
def readCodePoint (count : Nat) : Reader Char := do
  let cursor ← get
  let digits := cursor.rest.take count
  match digits.mapM Text.hexDigit? with
  | none => fail
  | some values =>
      let code := values.foldl (fun total digit => total * 16 + digit) 0
      if digits.length = count ∧ code.isValidChar then
        set { cursor with rest := cursor.rest.drop count }
        return Char.ofNat code
      else fail

/-- The character that an escape stands for, from behind the backslash on. -/
def readEscape : Reader Char := do
  match ← next with
  | 'b' => return '\x08'
  | 't' => return '\t'
  | 'n' => return '\n'
  | 'f' => return '\x0c'
  | 'r' => return '\r'
  | '"' => return '"'
  | '\\' => return '\\'
  | 'u' => readCodePoint 4
  | 'U' => readCodePoint 8
  | _ => fail

/-- The rest of a text between double quotes. -/
def readBasic : Nat → Reader (List Char)
  | 0 => fail
  | fuel + 1 => do
      if ← accept ['"'] then return []
      else if ← accept ['\\'] then
        let char ← readEscape
        return char :: (← readBasic fuel)
      else
        match ← peek with
        | none => fail
        | some char =>
            if isTextChar char then
              let _ ← next
              return char :: (← readBasic fuel)
            else fail

/-- The rest of a text between single quotes. -/
def readLiteral : Reader (List Char) := do
  let chars ← takeWhile fun char => isTextChar char && char != '\''
  expect ['\'']
  return chars

/-- Take the quotes that come next, at most five: those that belong to the text,
and whether three more close it. -/
def readQuotes (quote : Char) : Reader (List Char × Bool) := do
  let cursor ← get
  let count := min 5 (cursor.rest.takeWhile (· == quote)).length
  set { cursor with rest := cursor.rest.drop count }
  if count < 3 then return (List.replicate count quote, false)
  else return (List.replicate (count - 3) quote, true)

/-- Whether a backslash that was just taken ends its line. -/
def atContinuation : Reader Bool := do
  let rest := (← get).rest.dropWhile isBlank
  return rest.head? == some '\n' || ['\r', '\n'].isPrefixOf rest

def skipBlankLines : Nat → Reader Unit
  | 0 => return ()
  | fuel + 1 => do
      skipBlanks
      if ← acceptNewline then skipBlankLines fuel

/-- The rest of a text over several lines. -/
def readLines (quote : Char) (escapes : Bool) : Nat → Reader (List Char)
  | 0 => fail
  | fuel + 1 => do
      if ← acceptNewline then return '\n' :: (← readLines quote escapes fuel)
      else
        match ← peek with
        | none => fail
        | some char =>
            if char = quote then
              let (quotes, closed) ← readQuotes quote
              if closed then return quotes
              else return quotes ++ (← readLines quote escapes fuel)
            else if escapes && char = '\\' then
              let _ ← next
              if ← atContinuation then
                skipBlankLines ((← get).rest.length + 1)
                readLines quote escapes fuel
              else
                let char ← readEscape
                return char :: (← readLines quote escapes fuel)
            else if isTextChar char then
              let _ ← next
              return char :: (← readLines quote escapes fuel)
            else fail

/-- A text over several lines, from behind its opening quotes on.  A line end
right there does not count. -/
def readMultiline (quote : Char) (escapes : Bool) : Reader String := do
  let _ ← acceptNewline
  return String.ofList
    (← readLines quote escapes ((← get).rest.length + 1))

/-- A text on one line, from its quote on. -/
def readSingle (quote : Char) : Reader String := do
  expect [quote]
  let chars ←
    if quote = '"' then readBasic ((← get).rest.length + 1) else readLiteral
  return String.ofList chars

def readText (quote : Char) : Reader String := do
  if ← accept [quote, quote, quote] then readMultiline quote (quote == '"')
  else readSingle quote

end Deobfuscate.Toml
