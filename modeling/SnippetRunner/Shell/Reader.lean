import SnippetRunner.Shell.Language
import SnippetRunner.Text.Letter
import SnippetRunner.Text.Lines

/-!
Reading shell scripts. The reader takes one complete command from the head of a script, up to
the end of its line, and gives back the rest, so that a script is read as far as it is run.
-/
namespace SnippetRunner.Shell

inductive Token
  | mark (text : String)
  | word (text : String)
  | lineEnd
  deriving DecidableEq, Repr

inductive OpenMark
  | singleQuote
  | doubleQuote
  | backquote
  | brace
  | bracket
  | doubleBracket
  deriving DecidableEq, Repr

/-- Why a script cannot be read on. A place is told by how many characters are left there. -/
inductive ReadError
  | unexpected (token : Token) (expected : Option String) (left : Nat)
  | endOfInput (expected : Option String)
  | unclosed (mark : OpenMark) (left : Nat)
  | badLoopName (token : Token) (left : Nat)
  | badSubstitution (text : String)
  deriving DecidableEq, Repr

abbrev Read := Except ReadError

def openBrace : Char := '\x7b'

def closeBrace : Char := '\x7d'

def isSpace (c : Char) : Bool :=
  c == ' ' || c == '\t'

def isMeta (c : Char) : Bool :=
  isSpace c || c == '\n' || c == ';' || c == '&' || c == '|' || c == '<' || c == '>' ||
    c == '(' || c == ')'

def isNameStart (c : Char) : Bool :=
  Text.isAsciiLetter c || c == '_'

def isNameChar (c : Char) : Bool :=
  isNameStart c || Text.isAsciiDigit c

def isName (s : String) : Bool :=
  match s.toList with
  | c :: cs => isNameStart c && cs.all isNameChar
  | [] => false

def skipSpace : List Char → List Char
  | '\\' :: '\n' :: rest => skipSpace rest
  | '#' :: rest => rest.dropWhile (· != '\n')
  | c :: rest => if isSpace c then skipSpace rest else c :: rest
  | [] => []

def skipLines : Nat → List Char → List Char
  | 0, cs => cs
  | fuel + 1, cs =>
    match skipSpace cs with
    | '\n' :: rest => skipLines fuel rest
    | rest => rest

/-- The text up to an unquoted closing bracket, and what follows the bracket. -/
def takeBalanced (opening closing : Char) : Nat → List Char → Option (List Char × List Char)
  | _, [] => none
  | depth, '\\' :: c :: rest =>
    (takeBalanced opening closing depth rest).map fun r => ('\\' :: c :: r.1, r.2)
  | depth, '\'' :: rest =>
    match takeQuote rest with
    | some (body, after) =>
      if after.length < rest.length then
        (takeBalanced opening closing depth after).map fun r =>
          ('\'' :: (body ++ '\'' :: r.1), r.2)
      else none
    | none => none
  | depth, c :: rest =>
    if c == closing then
      match depth with
      | 0 => some ([], rest)
      | d + 1 => (takeBalanced opening closing d rest).map fun r => (c :: r.1, r.2)
    else if c == opening then
      (takeBalanced opening closing (depth + 1) rest).map fun r => (c :: r.1, r.2)
    else (takeBalanced opening closing depth rest).map fun r => (c :: r.1, r.2)
  termination_by _ cs => cs.length
where
  takeQuote : List Char → Option (List Char × List Char)
    | [] => none
    | '\'' :: rest => some ([], rest)
    | c :: rest => (takeQuote rest).map fun r => (c :: r.1, r.2)

/-- The text up to a closing backquote, with the escapes inside removed. -/
def takeBackquoted : List Char → Option (List Char × List Char)
  | [] => none
  | '\x60' :: rest => some ([], rest)
  | '\\' :: c :: rest =>
    (takeBackquoted rest).map fun r =>
      (if c == '\x60' || c == '\\' || c == '$' then c :: r.1 else '\\' :: c :: r.1, r.2)
  | c :: rest => (takeBackquoted rest).map fun r => (c :: r.1, r.2)

def specialParameters : List Char := ['@', '*', '#', '?', '$', '!', '-']

def takeParameterName : List Char → List Char × List Char
  | [] => ([], [])
  | c :: rest =>
    if isNameStart c then (c :: rest.takeWhile isNameChar, rest.dropWhile isNameChar)
    else if specialParameters.contains c || Text.isAsciiDigit c then ([c], rest)
    else ([], c :: rest)

def readBraced (inQuotes : Bool) (body : List Char) : Except ReadError WordPart :=
  let use (name : List Char) (u : ParameterUse) : Except ReadError WordPart :=
    .ok (.parameter (String.ofList name) u inQuotes)
  match body with
  | '#' :: c :: rest =>
    let (name, after) := takeParameterName (c :: rest)
    if after.isEmpty && !name.isEmpty then use name .length
    else .error (.badSubstitution (String.ofList body))
  | _ =>
    let name := match body with
      | c :: rest =>
        if Text.isAsciiDigit c then c :: rest.takeWhile Text.isAsciiDigit
        else (takeParameterName body).1
      | [] => []
    if name.isEmpty then .error (.badSubstitution (String.ofList body))
    else
      match body.drop name.length with
      | [] => use name .value
      | ':' :: '-' :: text => use name (.orElse true (String.ofList text))
      | ':' :: '=' :: text => use name (.orElse true (String.ofList text))
      | ':' :: '+' :: text => use name (.andThen true (String.ofList text))
      | '-' :: text => use name (.orElse false (String.ofList text))
      | '+' :: text => use name (.andThen false (String.ofList text))
      | '%' :: '%' :: text => use name (.withoutTail true (String.ofList text))
      | '%' :: text => use name (.withoutTail false (String.ofList text))
      | '#' :: '#' :: text => use name (.withoutHead true (String.ofList text))
      | '#' :: text => use name (.withoutHead false (String.ofList text))
      | _ => .error (.badSubstitution (String.ofList body))

/-- What follows a dollar sign: something to expand, or nothing. -/
def readDollar (inQuotes : Bool) (cs : List Char) : Read (WordPart × List Char) :=
  match cs with
  | '(' :: '(' :: rest =>
    match takeBalanced '(' ')' 0 rest with
    | some (body, ')' :: after) => .ok (.arithmetic (String.ofList body) inQuotes, after)
    | _ => .error (.unclosed .doubleBracket (rest.length + 2))
  | '(' :: rest =>
    match takeBalanced '(' ')' 0 rest with
    | some (body, after) => .ok (.command (String.ofList body) inQuotes, after)
    | none => .error (.unclosed .bracket (rest.length + 1))
  | c :: rest =>
    if c == openBrace then
      match takeBalanced openBrace closeBrace 0 rest with
      | some (body, after) => (readBraced inQuotes body).map fun p => (p, after)
      | none => .error (.unclosed .brace (rest.length + 1))
    else
      let (name, after) := takeParameterName (c :: rest)
      if name.isEmpty then .ok (if inQuotes then .quoted "$" else .plain "$", c :: rest)
      else .ok (.parameter (String.ofList name) .value inQuotes, after)
  | [] => .ok (if inQuotes then .quoted "$" else .plain "$", [])

/-- The pieces of a text in double quotes, up to the closing one, or of a document, which
ends where its text does. `start` is the place of the opening quote. -/
def readQuoted (inDocument : Bool) (start : Nat) : Nat → List Char → Read (Word × List Char)
  | 0, _ => .error (.unclosed .doubleQuote start)
  | _ + 1, [] => if inDocument then .ok ([], []) else .error (.unclosed .doubleQuote start)
  | fuel + 1, c :: rest =>
    if c == '"' && !inDocument then .ok ([], rest)
    else if c == '\\' then
      match rest with
      | d :: after =>
        if d == '\n' then readQuoted inDocument start fuel after
        else do
          let escaped := d == '$' || (d == '"' && !inDocument) || d == '\\' || d == '\x60'
          let text := if escaped then d.toString else String.ofList ['\\', d]
          let (parts, after) ← readQuoted inDocument start fuel after
          return (.quoted text :: parts, after)
      | [] =>
        if inDocument then .ok ([.quoted "\\"], []) else .error (.unclosed .doubleQuote start)
    else if c == '$' then do
      let (part, after) ← readDollar true rest
      let (parts, after) ← readQuoted inDocument start fuel after
      return (part :: parts, after)
    else if c == '\x60' then
      match takeBackquoted rest with
      | some (body, after) => do
        let (parts, after) ← readQuoted inDocument start fuel after
        return (.command (String.ofList body) true :: parts, after)
      | none => .error (.unclosed .backquote (rest.length + 1))
    else do
      let (parts, after) ← readQuoted inDocument start fuel rest
      return (.quoted c.toString :: parts, after)

def readWord : Nat → List Char → Read (Word × List Char)
  | 0, cs => .ok ([], cs)
  | _ + 1, [] => .ok ([], [])
  | fuel + 1, c :: rest =>
    if isMeta c then .ok ([], c :: rest)
    else if c == '\'' then
      match takeBalanced.takeQuote rest with
      | some (body, after) => do
        let (parts, after) ← readWord fuel after
        return (.quoted (String.ofList body) :: parts, after)
      | none => .error (.unclosed .singleQuote (rest.length + 1))
    else if c == '"' then do
      let (inner, after) ← readQuoted false (rest.length + 1) (rest.length + 1) rest
      let (parts, after) ← readWord fuel after
      return (.quoted "" :: inner ++ parts, after)
    else if c == '\\' then
      match rest with
      | d :: after => do
        let (parts, after) ← readWord fuel after
        return (if d == '\n' then parts else .quoted d.toString :: parts, after)
      | [] => .ok ([.quoted "\\"], [])
    else if c == '$' then do
      let (part, after) ← readDollar false rest
      let (parts, after) ← readWord fuel after
      return (part :: parts, after)
    else if c == '\x60' then
      match takeBackquoted rest with
      | some (body, after) => do
        let (parts, after) ← readWord fuel after
        return (.command (String.ofList body) false :: parts, after)
      | none => .error (.unclosed .backquote (rest.length + 1))
    else do
      let (parts, after) ← readWord fuel rest
      return (.plain c.toString :: parts, after)

def wordAt (cs : List Char) : Read (Word × List Char) :=
  readWord (cs.length + 1) cs

def plainText? : Word → Option String
  | [] => some ""
  | .plain text :: rest => (plainText? rest).map fun tail => text ++ tail
  | _ => none

def peekWord? (cs : List Char) : Option (String × List Char) :=
  match wordAt (skipSpace cs) with
  | .ok (w, after) => (plainText? w).map fun text => (text, after)
  | .error _ => none

def closingWords : List String :=
  ["then", "else", "elif", "fi", "do", "done", "esac", closeBrace.toString]

def openingWords : List String :=
  ["if", "while", "until", "for", "case", "!", openBrace.toString]

def doubleMarks : List String := [";;", "&&", "||", "<<", ">>", ">&", "<&", ">|"]

def writtenWord (cs : List Char) : String :=
  match wordAt cs with
  | .ok (_, after) => String.ofList (cs.take (cs.length - after.length))
  | .error _ => String.ofList cs

def tokenAt? (cs : List Char) : Option Token :=
  match cs with
  | [] => none
  | '\n' :: _ => some .lineEnd
  | c :: _ =>
    if isMeta c then
      some (.mark ((doubleMarks.find? fun m => m.toList.isPrefixOf cs).getD c.toString))
    else
      let text := writtenWord cs
      let isReserved := closingWords.contains text || openingWords.contains text
      some (if isReserved then .mark text else .word text)

def refuse {α : Type} (expected : Option String) (cs : List Char) : Read α :=
  let cs := skipSpace cs
  match tokenAt? cs with
  | some token => .error (.unexpected token expected cs.length)
  | none => .error (.endOfInput expected)

def assignment? (w : Word) : Option (String × Word) :=
  let rec split (name : List Char) : Word → Option (String × Word)
    | .plain text :: rest =>
      if text == "=" then
        match name.reverse with
        | c :: cs =>
          if isNameStart c && cs.all isNameChar then some (String.ofList (c :: cs), rest)
          else none
        | [] => none
      else split (text.toList.reverse ++ name) rest
    | _ => none
  split [] w

/-- Splits the text of a document off the lines below the current one. The document ends at
a line that equals its delimiter; leading tabs do not count if they are to be stripped. -/
def takeDocument (stripped : Bool) (delimiter cs : List Char) : List Char × List Char :=
  let trim (line : List Char) : List Char :=
    if stripped then line.dropWhile (· == '\t') else line
  match Text.splitChars '\n' cs with
  | [] => ([], [])
  | line :: below =>
    let isText (l : List Char) : Bool := trim l != delimiter
    let text := (below.takeWhile isText).flatMap fun l => trim l ++ ['\n']
    (text, ['\n'].intercalate (line :: (below.dropWhile isText).drop 1))

/-- The delimiter that a word stands for, and whether it was quoted. -/
def delimiterOf (w : Word) : String × Bool :=
  (String.join (w.map fun p => match p with
    | .plain text => text
    | .quoted text => text
    | _ => ""),
   w.any fun p => match p with
    | .quoted _ => true
    | _ => false)

def readDocument (number : Option Nat) (stripped : Bool) (cs : List Char) :
    Read (Redirect × List Char) := do
  let (delimiter, after) ← wordAt (skipSpace cs)
  if delimiter.isEmpty then refuse none after
  else
    let (name, isQuoted) := delimiterOf delimiter
    let (text, rest) := takeDocument stripped name.toList after
    let (body, _) ←
      if isQuoted then pure ([.quoted (String.ofList text)], [])
      else readQuoted true 0 (text.length + 1) text
    return (⟨number.getD 0, .document, body⟩, rest)

/-- A redirection at the head of a text, the number before it already read. -/
def readRedirect (number : Option Nat) (cs : List Char) : Read (Redirect × List Char) := do
  let into (default_ : Nat) (kind : RedirectKind) (rest : List Char) :
      Read (Redirect × List Char) := do
    let (target, after) ← wordAt (skipSpace rest)
    if target.isEmpty then refuse none after
    else return (⟨number.getD default_, kind, target⟩, after)
  match cs with
  | '>' :: '>' :: rest => into 1 .append rest
  | '>' :: '&' :: rest => into 1 .duplicate rest
  | '>' :: '|' :: rest => into 1 .output rest
  | '>' :: rest => into 1 .output rest
  | '<' :: '<' :: '-' :: rest => readDocument number true rest
  | '<' :: '<' :: rest => readDocument number false rest
  | '<' :: '&' :: rest => into 0 .duplicate rest
  | '<' :: rest => into 0 .input rest
  | _ => refuse none cs

def redirectNumber? (cs : List Char) : Option (Nat × List Char) :=
  match cs.takeWhile Text.isAsciiDigit, cs.dropWhile Text.isAsciiDigit with
  | [d], c :: rest =>
    if c == '<' || c == '>' then some (d.toNat - 48, c :: rest) else none
  | _, _ => none

/-- Assignments, words and redirections of a simple command, in order. -/
def readSimple : Nat → List (String × Word) → List Word → List Redirect → List Char →
    Read (Command × List Char)
  | 0, as, ws, rs, cs => .ok (.simple as ws rs, cs)
  | fuel + 1, as, ws, rs, cs =>
    let cs := skipSpace cs
    match cs with
    | [] => .ok (.simple as ws rs, [])
    | c :: _ =>
      match redirectNumber? cs with
      | some (n, rest) => do
        let (r, after) ← readRedirect (some n) rest
        readSimple fuel as ws (rs ++ [r]) after
      | none =>
        if c == '<' || c == '>' then do
          let (r, after) ← readRedirect none cs
          readSimple fuel as ws (rs ++ [r]) after
        else if isMeta c then .ok (.simple as ws rs, cs)
        else do
          let (w, after) ← wordAt cs
          match if ws.isEmpty then assignment? w else none with
          | some a => readSimple fuel (as ++ [a]) ws rs after
          | none => readSimple fuel as (ws ++ [w]) rs after

def readRedirects : Nat → List Char → Read ((List Redirect) × List Char)
  | 0, cs => .ok ([], cs)
  | fuel + 1, cs =>
    let cs := skipSpace cs
    match redirectNumber? cs, cs with
    | some (n, rest), _ => do
      let (r, after) ← readRedirect (some n) rest
      let (rs, after) ← readRedirects fuel after
      return (r :: rs, after)
    | none, c :: _ =>
      if c == '<' || c == '>' then do
        let (r, after) ← readRedirect none cs
        let (rs, after) ← readRedirects fuel after
        return (r :: rs, after)
      else return ([], cs)
    | none, [] => return ([], [])

def expectWord (word : String) (cs : List Char) : Read (Unit × List Char) :=
  match peekWord? cs with
  | some (w, after) => if w == word then .ok ((), after) else refuse (some word) cs
  | none => refuse (some word) cs

def atListEnd (cs : List Char) : Bool :=
  match cs with
  | [] => true
  | '\n' :: _ => true
  | ')' :: _ => true
  | ';' :: ';' :: _ => true
  | _ =>
    match peekWord? cs with
    | some (w, _) => closingWords.contains w
    | none => false

def allParameters : Word := [.parameter "@" .value true]

def readWords : Nat → List Char → Read ((List Word) × List Char)
  | 0, cs => .ok ([], cs)
  | fuel + 1, cs =>
    let cs := skipSpace cs
    match cs with
    | [] => .ok ([], [])
    | c :: _ =>
      if isMeta c then .ok ([], cs)
      else do
        let (w, after) ← wordAt cs
        let (ws, after) ← readWords fuel after
        return (w :: ws, after)

/-- The patterns of a branch, up to the bracket that closes them. -/
def readPatterns : Nat → List Char → Read ((List Word) × List Char)
  | 0, cs => refuse none cs
  | fuel + 1, cs => do
    let (w, after) ← wordAt (skipSpace cs)
    match skipSpace after with
    | '|' :: rest => do
      let (ws, after) ← readPatterns fuel rest
      return (w :: ws, after)
    | ')' :: rest => return ([w], rest)
    | after => refuse (some ")") after

mutual

/-- A list of commands; lines are separators when `acrossLines` is set. -/
def readList : Nat → Bool → List Char → Read (Command × List Char)
  | 0, _, cs => refuse none cs
  | fuel + 1, acrossLines, cs => do
    let cs := if acrossLines then skipLines cs.length cs else skipSpace cs
    if atListEnd cs then return (.nothing, cs)
    else
      let (first, after) ← readAndOr fuel cs
      match skipSpace after with
      | '&' :: rest => do
        let (more, after) ← readList fuel acrossLines rest
        return (.sequence (.background first) more, after)
      | ';' :: ';' :: rest => return (first, ';' :: ';' :: rest)
      | ';' :: rest => do
        let (more, after) ← readList fuel acrossLines rest
        return (.sequence first more, after)
      | '\n' :: rest =>
        if acrossLines then do
          let (more, after) ← readList fuel acrossLines rest
          return (.sequence first more, after)
        else return (first, '\n' :: rest)
      | rest => return (first, rest)

def readBody : Nat → List Char → Read (Command × List Char)
  | 0, cs => refuse none cs
  | fuel + 1, cs => do
    let (body, after) ← readList fuel true cs
    match body, after with
    | .nothing, _ :: _ => refuse none after
    | body, after => return (body, after)

def readAndOr : Nat → List Char → Read (Command × List Char)
  | 0, cs => refuse none cs
  | fuel + 1, cs => do
    let (first, after) ← readPipeline fuel cs
    readAndOrTail fuel first after

/-- The conditional continuations of a command, which bind to the left. -/
def readAndOrTail : Nat → Command → List Char → Read (Command × List Char)
  | 0, _, cs => refuse none cs
  | fuel + 1, first, cs =>
    match skipSpace cs with
    | '&' :: '&' :: rest => do
      let (second, after) ← readPipeline fuel (skipLines rest.length rest)
      readAndOrTail fuel (.ifOk first second) after
    | '|' :: '|' :: rest => do
      let (second, after) ← readPipeline fuel (skipLines rest.length rest)
      readAndOrTail fuel (.ifFailed first second) after
    | rest => .ok (first, rest)

def readPipeline : Nat → List Char → Read (Command × List Char)
  | 0, cs => refuse none cs
  | fuel + 1, cs =>
    match peekWord? cs with
    | some ("!", after) => do
      let (body, after) ← readPipeline fuel after
      return (.negated body, after)
    | _ => do
      let (stages, after) ← readStages fuel cs
      match stages with
      | [only] => return (only, after)
      | stages => return (.pipeline stages, after)

def readStages : Nat → List Char → Read ((List Command) × List Char)
  | 0, cs => refuse none cs
  | fuel + 1, cs => do
    let (first, after) ← readCommand fuel cs
    match skipSpace after with
    | '|' :: '|' :: rest => return ([first], '|' :: '|' :: rest)
    | '|' :: rest => do
      let (more, after) ← readStages fuel (skipLines rest.length rest)
      return (first :: more, after)
    | rest => return ([first], rest)

def readCommand : Nat → List Char → Read (Command × List Char)
  | 0, cs => refuse none cs
  | fuel + 1, cs => do
    let cs := skipSpace cs
    match cs with
    | [] => refuse none cs
    | '(' :: rest => do
      let (body, after) ← readBody fuel rest
      match skipLines after.length after with
      | ')' :: after => do
        let (rs, after) ← readRedirects after.length after
        return (.subshell body rs, after)
      | after => refuse (some ")") after
    | c :: _ =>
      if isMeta c && c != '<' && c != '>' then refuse none cs
      else
        match peekWord? cs with
        | some (word, after) =>
          if word == openBrace.toString then do
            let (body, after) ← readBody fuel after
            let ((), after) ← expectWord closeBrace.toString after
            let (rs, after) ← readRedirects after.length after
            return (.grouped body rs, after)
          else if word == "if" then do
            let (body, after) ← readIf fuel after
            let (rs, after) ← readRedirects after.length after
            return (if rs.isEmpty then body else .grouped body rs, after)
          else if word == "while" || word == "until" then do
            let (condition, after) ← readBody fuel after
            let ((), after) ← expectWord "do" after
            let (body, after) ← readBody fuel after
            let ((), after) ← expectWord "done" after
            let (rs, after) ← readRedirects after.length after
            let loop := Command.loop (word == "while") condition body
            return (if rs.isEmpty then loop else .grouped loop rs, after)
          else if word == "for" then do
            let (loop, after) ← readFor fuel after
            let (rs, after) ← readRedirects after.length after
            return (if rs.isEmpty then loop else .grouped loop rs, after)
          else if word == "case" then do
            let (subject, after) ← wordAt (skipSpace after)
            let ((), after) ← expectWord "in" (skipLines after.length after)
            let (branches, after) ← readBranches fuel after
            return (.select subject branches, after)
          else if closingWords.contains word then refuse none cs
          else
            match skipSpace after with
            | '(' :: ')' :: rest => do
              let (body, after) ← readCommand fuel (skipLines rest.length rest)
              return (.function word body, after)
            | '(' :: rest => refuse (some ")") rest
            | _ => readSimple (cs.length + 1) [] [] [] cs
        | none => readSimple (cs.length + 1) [] [] [] cs

def readIf : Nat → List Char → Read (Command × List Char)
  | 0, cs => refuse none cs
  | fuel + 1, cs => do
    let (condition, after) ← readBody fuel cs
    let ((), after) ← expectWord "then" after
    let (yes, after) ← readBody fuel after
    match peekWord? after with
    | some ("elif", after) => do
      let (no, after) ← readIf fuel after
      return (.choice condition yes no, after)
    | some ("else", after) => do
      let (no, after) ← readBody fuel after
      let ((), after) ← expectWord "fi" after
      return (.choice condition yes no, after)
    | _ => do
      let ((), after) ← expectWord "fi" after
      return (.choice condition yes .nothing, after)

def readFor : Nat → List Char → Read (Command × List Char)
  | 0, cs => refuse none cs
  | fuel + 1, cs => do
    let cs := skipSpace cs
    let (name, after) := (peekWord? cs).getD ("", cs)
    if !isName name then throw (.badLoopName ((tokenAt? cs).getD .lineEnd) cs.length)
    else
      let after := skipLines after.length after
      let (words, after) ← match peekWord? after with
        | some ("in", after) => readWords (after.length + 1) after
        | _ => pure ([allParameters], after)
      let after := match skipSpace after with
        | ';' :: rest => rest
        | rest => rest
      let ((), after) ← expectWord "do" (skipLines after.length after)
      let (body, after) ← readBody fuel after
      let ((), after) ← expectWord "done" after
      return (.forEach name words body, after)

def readBranches : Nat → List Char → Read ((List (List Word × Command)) × List Char)
  | 0, cs => refuse none cs
  | fuel + 1, cs => do
    let cs := skipLines cs.length cs
    match peekWord? cs with
    | some ("esac", after) => return ([], after)
    | _ =>
      let cs := match cs with
        | '(' :: rest => rest
        | cs => cs
      let (patterns, after) ← readPatterns (cs.length + 1) cs
      let (body, after) ← readList fuel true after
      let after := match skipLines after.length after with
        | ';' :: ';' :: rest => rest
        | rest => rest
      let (more, after) ← readBranches fuel after
      return ((patterns, body) :: more, after)

end

/-- The next complete command of a script and what follows its line. -/
def readNext (script : List Char) : Read (Command × List Char) := do
  let (c, after) ← readList (10 * script.length + 20) false script
  match skipSpace after with
  | [] => return (c, [])
  | '\n' :: rest => return (c, rest)
  | after => refuse none after

end SnippetRunner.Shell
