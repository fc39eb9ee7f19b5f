import Deobfuscate.Shell.Reader

/-!
# Reading scripts

A script is read one complete line of commands at a time, because a line runs
before the next one is read.  Pipes bind tighter than the connectives, and these
tighter than separators.

Reading goes down at least one level for each character that it takes, so the
fuel is a multiple of what is left to read.
-/

namespace Deobfuscate.Shell

/-- What ends a run of pieces. -/
inductive Closer
  /-- A blank or an operator. -/
  | blank
  | quote
  | brace
  /-- The end of a text in the script. -/
  | document
  /-- Two closing parentheses; some others have to be closed before. -/
  | parentheses (depth : Nat)
  deriving DecidableEq

/-- Where pieces stand. -/
structure Surroundings where
  inQuotes : Bool
  closer : Closer
  deriving DecidableEq

def endsWord (char : Char) : Bool :=
  [' ', '\t', '\n', ';', '&', '|', '(', ')', '<', '>'].contains char

namespace Surroundings

/-- Whether the rules of double quotes hold for backslashes and in what replaces
a parameter.  They hold inside an expression too. -/
def keepsQuotes (surroundings : Surroundings) : Bool :=
  match surroundings.closer with
  | .parentheses _ => true
  | _ => surroundings.inQuotes

/-- Whether a backslash takes away the meaning of a character and goes away
itself. -/
def isEscaped (surroundings : Surroundings) (char : Char) : Bool :=
  !surroundings.keepsQuotes || ['\\', '`', '$'].contains char ||
    (char == '"' && surroundings.closer != .document) ||
    (char == '}' && surroundings.closer == .brace)

def endFault? (surroundings : Surroundings) (inDocument : Bool) :
    Option ScriptFault :=
  match surroundings.closer with
  | .blank | .document => none
  | .quote => some .unterminatedQuote
  | .brace =>
      some (if surroundings.inQuotes && !inDocument then .unterminatedQuote
        else .missingBrace)
  | .parentheses _ => some .missingParentheses

/-- Put a character before a word. -/
def cons (surroundings : Surroundings) (char : Char) (word : Word) : Word :=
  if surroundings.inQuotes then consQuoted char word else consPlain char word

end Surroundings

/-- Stop because a parameter in braces is not complete. -/
def openBrace {α : Type} (inQuotes : Bool) : Reader α := do
  let surroundings : Surroundings := ⟨inQuotes, .brace⟩
  let inDocument := (← get).inDocument
  fault ((surroundings.endFault? inDocument).getD .missingBrace)

def readSingleQuoted : Reader String := do
  let chars ← upcoming
  let inner := chars.takeWhile (· != '\'')
  skip inner.length
  if (← upcoming).isEmpty then fault .unterminatedQuote
  skip 1
  return String.ofList inner

/-- Read the text up to a closing backquote.  A backslash before some characters
goes away. -/
def readBackquoted (inQuotes : Bool) : Nat → Reader (List Char)
  | 0 => fault .openBackquote
  | fuel + 1 => do
      match ← next with
      | none => fault .openBackquote
      | some '`' => return []
      | some '\\' =>
          match ← upcoming with
          | [] => fault .openBackquote
          | char :: _ =>
              skip 1
              let rest ← readBackquoted inQuotes fuel
              if ['\\', '`', '$'].contains char || (inQuotes && char == '"')
              then return char :: rest
              else return '\\' :: char :: rest
      | some char => return char :: (← readBackquoted inQuotes fuel)

/-- The lines of a text in the script up to its delimiter, and how many were
taken.  A line that is joined to the one before it does not end the text. -/
def takeDocument (document : Document) :
    Nat → Bool → List Char → List Char × List Char
  | 0, _, chars => ([], chars)
  | _, _, [] => ([], [])
  | fuel + 1, joined, chars =>
      let trim (line : List Char) :=
        if document.dropsTabs && !joined then line.dropWhile (· == '\t')
        else line
      let line := chars.takeWhile (· != '\n')
      let ending := (chars.drop line.length).take 1
      let rest := chars.drop (line.length + 1)
      let content := trim line
      if !joined && String.ofList content == document.delimiter then ([], rest)
      else
        let slashes := (content.reverse.takeWhile (· == '\\')).length
        let (more, rest) :=
          takeDocument document fuel (!document.isPlain && slashes % 2 == 1)
            rest
        (content ++ ending ++ more, rest)

/-- The operators of redirections, a longer one before its beginnings. -/
def redirectOperators : List String :=
  ["<<-", "<<", "<&", "<>", "<", ">>", ">&", ">|", ">"]

/-- The other operators, a longer one before its beginnings. -/
def operators : List String :=
  ["&&", "&", "||", "|", ";;", ";", "(", ")"]

def takeSymbol? (symbols : List String) : Reader (Option String) := do
  let chars ← upcoming
  match symbols.find? fun symbol => symbol.toList.isPrefixOf chars with
  | some symbol =>
      skip symbol.length
      return some symbol
  | none => return none

def redirectKind (operator : String) (word : Word) : Reader RedirectKind := do
  match operator with
  | "<" => return .input word
  | "<>" => return .update word
  | ">" => return .write word false
  | ">|" => return .write word true
  | ">>" => return .append word
  | "<&" | ">&" => return .copy word
  | _ =>
      let source ← get
      let (delimiter, isPlain) := unquotedText word
      let document : Document :=
        { number := source.nextDocument
          delimiter, isPlain
          dropsTabs := operator == "<<-" }
      set { source with
        waiting := source.waiting ++ [document]
        nextDocument := source.nextDocument + 1 }
      return .document document.number

/-- A simple command while it is read. -/
structure SimpleDraft where
  assignments : List (String × Word) := []
  words : List Word := []
  redirects : List Redirect := []

namespace SimpleDraft

def addWord (draft : SimpleDraft) (word : Word) : SimpleDraft :=
  match draft.words, assignment? word with
  | [], some binding =>
      { draft with assignments := draft.assignments ++ [binding] }
  | _, _ => { draft with words := draft.words ++ [word] }

def onlyWord? (draft : SimpleDraft) : Option Word :=
  match draft.assignments, draft.words, draft.redirects with
  | [], [word], [] => some word
  | _, _, _ => none

end SimpleDraft

/-- The names that no function may have. -/
def specialBuiltins : List String :=
  [".", ":", "break", "continue", "eval", "exec", "exit", "export", "readonly",
    "return", "set", "shift", "times", "trap", "unset"]

/-- Put redirections after a command. -/
def Command.withRedirects (command : Command) (line : Nat)
    (redirects : List Redirect) : Command :=
  match command, redirects with
  | command, [] => command
  | .subshell line body _, redirects => .subshell line body redirects
  | command, redirects => .redirected line command redirects

/-- What is asked of the next token. -/
structure Wanted where
  /-- Whether keywords count. -/
  keywords : Bool := false
  /-- Whether line ends before it are left out. -/
  pastNewlines : Bool := false

/-- One command after another, if there is another. -/
def Command.followedBy : Command → Command → Command
  | left, .nothing => left
  | left, right => .sequence left right

/-- Pieces in quotes.  They make a field even if nothing is in it, unless they
stand for all parameters and nothing else. -/
def markQuoted : Word → Word
  | [.parameter "@" .value true] => [.parameter "@" .value true]
  | pieces => .quoted "" :: pieces

mutual

def readPieces : Nat → Surroundings → Reader Word
  | 0, _ => return []
  | fuel + 1, surroundings => do
      let go := readPieces fuel surroundings
      match ← peek with
      | none =>
          match surroundings.endFault? (← get).inDocument with
          | some problem => fault problem
          | none => return []
      | some char =>
          let literal : Reader Word := do
            skip 1
            return surroundings.cons char (← go)
          match char, surroundings.closer with
          | '"', .quote | '}', .brace =>
              skip 1
              return []
          | '(', .parentheses depth =>
              skip 1
              let rest ← readPieces fuel
                { surroundings with closer := .parentheses (depth + 1) }
              return surroundings.cons char rest
          | ')', .parentheses 0 =>
              skip 1
              if (← peek) == some ')' then
                skip 1
                return []
              else return surroundings.cons char (← go)
          | ')', .parentheses (depth + 1) =>
              skip 1
              let rest ← readPieces fuel
                { surroundings with closer := .parentheses depth }
              return surroundings.cons char rest
          | '"', .document | '"', .parentheses _ => literal
          | '"', _ =>
              skip 1
              let inner ← readPieces fuel ⟨true, .quote⟩
              return markQuoted inner ++ (← go)
          | '\'', closer =>
              if surroundings.inQuotes then literal
              else
                match closer with
                | .parentheses _ | .document => literal
                | _ =>
                    skip 1
                    let inner ← readSingleQuoted
                    return .quoted inner :: (← go)
          | '\\', _ =>
              skip 1
              match ← upcoming with
              | [] => return consQuoted '\\' (← go)
              | escaped :: _ =>
                  skip 1
                  let rest ← go
                  if surroundings.isEscaped escaped then
                    return .quoted (String.singleton escaped) :: rest
                  else return consQuoted '\\' (consQuoted escaped rest)
          | '$', _ =>
              skip 1
              let piece ← readDollar fuel surroundings.keepsQuotes
              return piece :: (← go)
          | '`', _ =>
              skip 1
              let source ← get
              let inner ← readBackquoted surroundings.inQuotes
                (source.rest.length + 1)
              let command ← readInside fuel inner
              return .output command surroundings.inQuotes :: (← go)
          | char, .blank => if endsWord char then return [] else literal
          | _, _ => literal

def readInside : Nat → List Char → Reader Command
  | 0, _ => return .nothing
  | fuel + 1, text => do
      let outer ← get
      set { outer with rest := text, waiting := [] }
      let command ← readList fuel true
      readDocuments fuel
      modify fun inner =>
        { inner with
          rest := outer.rest
          line := outer.line
          waiting := outer.waiting }
      return command

def readDollar : Nat → Bool → Reader Piece
  | 0, _ => return .plain "$"
  | fuel + 1, inQuotes => do
      match ← peek with
      | some '(' =>
          skip 1
          if (← peek) == some '(' then
            skip 1
            let inner ← readPieces fuel ⟨false, .parentheses 0⟩
            return .arithmetic inner inQuotes
          else
            let outer ← get
            set { outer with waiting := [] }
            let command ← readList fuel true
            let token ← readToken fuel { keywords := true }
            if !token.isOperator ")" then
              unexpectedToken token (some (.operator ")"))
            modify fun inner => { inner with waiting := outer.waiting }
            return .output command inQuotes
      | some '{' =>
          skip 1
          readBraced fuel inQuotes
      | some char =>
          let length := (← upcoming).length
          if startsName char then
            let name ← takeWhileNext continuesName length
            return .parameter (String.ofList name) .value inQuotes
          else if isSpecial char then
            skip 1
            return .parameter (String.singleton char) .value inQuotes
          else return if inQuotes then .quoted "$" else .plain "$"
      | none => return if inQuotes then .quoted "$" else .plain "$"

def readBraced : Nat → Bool → Reader Piece
  | 0, _ => fault .missingBrace
  | fuel + 1, inQuotes => do
      let length := (← upcoming).length
      let takeName : Reader String := do
        match ← peek with
        | some char =>
            if startsName char then
              return String.ofList (← takeWhileNext continuesName length)
            else if char.isDigit then
              return String.ofList (← takeWhileNext Char.isDigit length)
            else if isSpecial char then
              skip 1
              return String.singleton char
            else return ""
        | none => openBrace inQuotes
      let meaningless : Reader Piece := do
        if (← peek) != some '}' then skipUncounted
        let word ← readPieces fuel ⟨inQuotes, .brace⟩
        return .parameter "" (.meaningless word) inQuotes
      let before ← get
      let asLength : Reader (Option Piece) := do
        if (← peek) != some '#' then return none
        skip 1
        let name ← takeName
        if name != "" && (← peek) == some '}' then
          skip 1
          return some (.parameter name .length inQuotes)
        if name == "" && (← peek) != some '}' then
          let only ← get
          skip 1
          if (← peek) == some '}' then
            set only
            return some (← meaningless)
        set before
        return none
      match ← asLength with
      | some piece => return piece
      | none =>
          let name ← takeName
          if name == "" then meaningless
          else readUse fuel inQuotes name

def readUse : Nat → Bool → String → Reader Piece
  | 0, _, _ => fault .missingBrace
  | fuel + 1, inQuotes, name => do
      let word : Reader Word := readPieces fuel ⟨inQuotes, .brace⟩
      let made (use : ParameterUse) : Reader Piece :=
        return .parameter name use inQuotes
      let meaningless : Reader Piece := do
        skipUncounted
        made (.meaningless (← word))
      let trim (atEnd : Bool) (sign : Char) : Reader Piece := do
        skip 1
        let longest := (← peek) == some sign
        if longest then skip 1
        made (.trim atEnd longest (← readPieces fuel ⟨false, .brace⟩))
      let orEmpty := (← peek) == some ':'
      if orEmpty then skip 1
      match ← peek with
      | some '}' =>
          skip 1
          made .value
      | some '-' =>
          skip 1
          made (.fallback orEmpty (← word))
      | some '=' =>
          skip 1
          made (.assign orEmpty (← word))
      | some '?' =>
          skip 1
          made (.require orEmpty (← word))
      | some '+' =>
          skip 1
          made (.replace orEmpty (← word))
      | some '#' =>
          if orEmpty then meaningless else trim false '#'
      | some '%' =>
          if orEmpty then meaningless else trim true '%'
      | some _ => meaningless
      | none => openBrace inQuotes

def readDocuments : Nat → Reader Unit
  | 0 => return ()
  | fuel + 1 => do
      let source ← get
      match source.waiting with
      | [] => return ()
      | document :: waiting =>
          let length := source.rest.length
          let (content, rest) :=
            takeDocument document (length + 1) false source.rest
          let line := source.line +
            (source.rest.take (length - rest.length)).count '\n'
          let word ←
            if document.isPlain then
              pure [.quoted (String.ofList content)]
            else do
              set { source with
                rest := content
                waiting := []
                inDocument := true }
              readPieces fuel ⟨true, .document⟩
          modify fun inner =>
            { inner with
              rest, line, waiting
              inDocument := source.inDocument
              documents := (document.number, word) :: inner.documents }
          readDocuments fuel

def readToken : Nat → Wanted → Reader Token
  | 0, _ => return .endOfFile
  | fuel + 1, wanted => do
      match ← peek with
      | none => return .endOfFile
      | some '\n' =>
          skip 1
          readDocuments fuel
          if wanted.pastNewlines then readToken fuel wanted
          else return .newline
      | some '#' =>
          skip ((← upcoming).takeWhile (· != '\n')).length
          readToken fuel wanted
      | some char =>
          if char == ' ' || char == '\t' then
            skip 1
            readToken fuel wanted
          else
            match ← takeSymbol? redirectOperators with
            | some operator =>
                let descriptor := if operator.startsWith "<" then 0 else 1
                return .redirect descriptor operator
            | none =>
                match ← takeSymbol? operators with
                | some symbol => return .operator symbol
                | none => readWordToken fuel wanted

/-- Read a word as a token; one digit before an operator of a redirection
belongs to it. -/
def readWordToken : Nat → Wanted → Reader Token
  | 0, _ => return .endOfFile
  | fuel + 1, wanted => do
      let word ← readPieces fuel ⟨false, .blank⟩
      match bareText? word with
      | none => return .word word
      | some text =>
          let isNumber := text.length == 1 && text.toList.all Char.isDigit
          if isNumber && (← upcoming).head?.any fun char =>
              char == '<' || char == '>' then
            match ← takeSymbol? redirectOperators with
            | some operator =>
                return .redirect (text.toNat?.getD 0) operator
            | none => return .word word
          else if !wanted.keywords then return .word word
          else if keywords.contains text then return .keyword text
          else
            let outer ← get
            match outer.aliases.get? text with
            | none => return .word word
            | some value =>
                set { outer with
                  rest := value.toList ++ outer.rest
                  aliases := outer.aliases.erase text }
                let token ← readToken fuel wanted
                modify fun inner => { inner with aliases := outer.aliases }
                return token

def readRedirect : Nat → Nat → String → Reader Redirect
  | 0, descriptor, _ => return .mk descriptor (.copy [])
  | fuel + 1, descriptor, operator => do
      match ← readToken fuel {} with
      | .word word => return .mk descriptor (← redirectKind operator word)
      | token => unexpectedToken token none

/-- Read redirections after a command. -/
def readRedirects : Nat → Reader (List Redirect)
  | 0 => return []
  | fuel + 1 => do
      let before ← get
      match ← readToken fuel { keywords := true } with
      | .redirect descriptor operator =>
          let redirect ← readRedirect fuel descriptor operator
          return redirect :: (← readRedirects fuel)
      | _ =>
          set before
          return []

def readSimple : Nat → Nat → SimpleDraft → Reader Command
  | 0, line, draft =>
      return .simple line draft.assignments draft.words draft.redirects
  | fuel + 1, line, draft => do
      let before ← get
      let finish : Reader Command := do
        set before
        return .simple line draft.assignments draft.words draft.redirects
      match ← readToken fuel {} with
      | .word word => readSimple fuel line (draft.addWord word)
      | .redirect descriptor operator =>
          let redirect ← readRedirect fuel descriptor operator
          readSimple fuel line
            { draft with redirects := draft.redirects ++ [redirect] }
      | .operator "(" =>
          match draft.onlyWord? with
          | none => finish
          | some word =>
              let token ← readToken fuel {}
              if !token.isOperator ")" then
                unexpectedToken token (some (.operator ")"))
              let name := (bareText? word).getD ""
              if !isName name || specialBuiltins.contains name then
                fault .badFunctionName
              let line := (← get).line
              let token ←
                readToken fuel { keywords := true, pastNewlines := true }
              return .define line name (← readCommandFrom fuel token)
      | _ => finish

def readLoopWords : Nat → Reader (List Word × Token)
  | 0 => return ([], .endOfFile)
  | fuel + 1 => do
      match ← readToken fuel {} with
      | .word word =>
          let (words, token) ← readLoopWords fuel
          return (word :: words, token)
      | token => return ([], token)

def expectKeyword : Nat → String → Reader Unit
  | 0, _ => return ()
  | fuel + 1, text => do
      let token ← readToken fuel { keywords := true, pastNewlines := true }
      if !token.isKeyword text then
        unexpectedToken token (some (.keyword text))

/-- Read what follows the first condition of a choice. -/
def readBranches : Nat → Command → Reader Command
  | 0, test => return .branch test .nothing .nothing
  | fuel + 1, test => do
      expectKeyword fuel "then"
      let yes ← readList fuel false
      match ← readToken fuel { keywords := true, pastNewlines := true } with
      | .keyword "elif" =>
          let test' ← readList fuel false
          return .branch test yes (← readBranches fuel test')
      | .keyword "else" =>
          let no ← readList fuel false
          expectKeyword fuel "fi"
          return .branch test yes no
      | .keyword "fi" => return .branch test yes .nothing
      | token => unexpectedToken token (some (.keyword "fi"))

def readPatterns : Nat → Token → Reader (List Word)
  | 0, _ => return []
  | fuel + 1, token => do
      let word : Word :=
        match token with
        | .word word => word
        | .keyword text => [.plain text]
        | _ => []
      match ← readToken fuel {} with
      | .operator "|" =>
          return word :: (← readPatterns fuel (← readToken fuel {}))
      | .operator ")" => return [word]
      | token => unexpectedToken token (some (.operator ")"))

def readCases : Nat → Reader (List (List Word × Command))
  | 0 => return []
  | fuel + 1 => do
      let token ← readToken fuel { keywords := true, pastNewlines := true }
      if token.isKeyword "esac" then return []
      let token ← if token.isOperator "(" then readToken fuel {} else pure token
      let patterns ← readPatterns fuel token
      let body ← readList fuel true
      match ← readToken fuel { keywords := true, pastNewlines := true } with
      | .keyword "esac" => return [(patterns, body)]
      | .operator ";;" => return (patterns, body) :: (← readCases fuel)
      | token => unexpectedToken token (some (.operator ";;"))

def readCommandFrom : Nat → Token → Reader Command
  | 0, token => unexpectedToken token none
  | fuel + 1, token => do
      let line := (← get).line
      let close (command : Command) : Reader Command :=
        return command.withRedirects line (← readRedirects fuel)
      match token with
      | .keyword "if" =>
          let test ← readList fuel false
          close (← readBranches fuel test)
      | .keyword "while" | .keyword "until" =>
          let test ← readList fuel false
          expectKeyword fuel "do"
          let body ← readList fuel false
          expectKeyword fuel "done"
          close (.loop (token.isKeyword "until") test body)
      | .keyword "for" =>
          match ← readToken fuel {} with
          | .word word =>
              let name := (bareText? word).getD ""
              if !isName name then fault .badLoopVariable
              let before ← get
              let words ←
                match ← readToken fuel
                    { keywords := true, pastNewlines := true } with
                | .keyword "in" => do
                    let (words, token) ← readLoopWords fuel
                    match token with
                    | .newline | .operator ";" => pure words
                    | token => unexpectedToken token none
                | .operator ";" => pure [[.parameter "@" .value true]]
                | _ => do
                    set before
                    pure [[.parameter "@" .value true]]
              expectKeyword fuel "do"
              let body ← readList fuel false
              expectKeyword fuel "done"
              close (.each line name words body)
          | _ => fault .badLoopVariable
      | .keyword "case" =>
          match ← readToken fuel {} with
          | .word subject =>
              expectKeyword fuel "in"
              let cases ← readCases fuel
              close (.choose line subject cases)
          | token => unexpectedToken token (some (.word []))
      | .operator "(" =>
          let body ← readList fuel false
          let token ← readToken fuel { keywords := true, pastNewlines := true }
          if !token.isOperator ")" then
            unexpectedToken token (some (.operator ")"))
          close (.subshell line body [])
      | .keyword "\x7b" =>
          let body ← readList fuel false
          expectKeyword fuel "\x7d"
          close body
      | .word word => readSimple fuel line (({} : SimpleDraft).addWord word)
      | .redirect descriptor operator =>
          let redirect ← readRedirect fuel descriptor operator
          readSimple fuel line { redirects := [redirect] }
      | token => unexpectedToken token none

def readPipes : Nat → Reader (List Command)
  | 0 => return []
  | fuel + 1 => do
      let before ← get
      match ← readToken fuel { keywords := true } with
      | .operator "|" =>
          let token ← readToken fuel { keywords := true, pastNewlines := true }
          let command ← readCommandFrom fuel token
          return command :: (← readPipes fuel)
      | _ =>
          set before
          return []

def readPipeline : Nat → Token → Reader Command
  | 0, token => unexpectedToken token none
  | fuel + 1, token => do
      let negated := token.isKeyword "!"
      let token ←
        if negated then readToken fuel { keywords := true } else pure token
      let first ← readCommandFrom fuel token
      let others ← readPipes fuel
      let whole := if others.isEmpty then first else .pipeline (first :: others)
      return if negated then .negated whole else whole

def readConnectives : Nat → Command → Reader Command
  | 0, left => return left
  | fuel + 1, left => do
      let before ← get
      let right : Reader Command := do
        let token ← readToken fuel { keywords := true, pastNewlines := true }
        readPipeline fuel token
      match ← readToken fuel { keywords := true } with
      | .operator "&&" => readConnectives fuel (.both left (← right))
      | .operator "||" => readConnectives fuel (.either left (← right))
      | _ =>
          set before
          return left

/-- Read commands up to a token that cannot follow them, which is left.  Unless
there may be none, at least one command is read. -/
def readList : Nat → Bool → Reader Command
  | 0, _ => return .nothing
  | fuel + 1, mayBeEmpty => do
      let before ← get
      let token ← readToken fuel { keywords := true, pastNewlines := true }
      match token with
      | .endOfFile => return .nothing
      | token =>
          if mayBeEmpty && token.endsList then
            set before
            return .nothing
          let first ← readPipeline fuel token
          let first ← readConnectives fuel first
          let before ← get
          match ← readToken fuel { keywords := true } with
          | .operator "&" =>
              return (Command.background first).followedBy
                (← readList fuel true)
          | .operator ";" | .newline =>
              return first.followedBy (← readList fuel true)
          | _ =>
              set before
              return first

/-- Read the commands of a line, and whether the script ends with it.  The line
is empty if the commands are nothing. -/
def readLine : Nat → Bool → Command → Reader (Command × Bool)
  | 0, _, done => return (done, true)
  | fuel + 1, started, done => do
      match ← readToken fuel { keywords := true } with
      | .newline => return (done, false)
      | .endOfFile =>
          readDocuments fuel
          return (done, true)
      | token =>
          let first ← readPipeline fuel token
          let first ← readConnectives fuel first
          let add (command : Command) :=
            if started then Command.sequence done command else command
          match ← readToken fuel { keywords := true } with
          | .operator "&" => readLine fuel true (add (.background first))
          | .operator ";" => readLine fuel true (add first)
          | .newline => return (add first, false)
          | .endOfFile =>
              readDocuments fuel
              return (add first, true)
          | token => unexpectedToken token none

end

def readingFuel (source : Source) : Nat :=
  let size := (source.aliases.values.map String.length).foldl Nat.add 1
  12 * size * source.rest.length + 60

def nextLine (source : Source) :
    Except ScriptError ((Command × Bool) × Source) :=
  (readLine (readingFuel source) false .nothing).run source

end Deobfuscate.Shell
