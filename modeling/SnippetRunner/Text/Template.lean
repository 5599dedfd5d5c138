import SnippetRunner.Text.Numeral
import SnippetRunner.Text.Ascii

/-!
Templates with named slots. A slot is a name between braces and a doubled brace stands for
itself; a slot may pick a character of its value, ask for the quoted form, and give a width.
A template is read into pieces once, and filling puts values between them, so that what a
value contains is never read as a template.
-/
namespace SnippetRunner.Text

inductive TemplateError
  | malformed (reason : String)
  | unknownSlot (name : String)
  | unnumbered (index : Nat)
  | noSuchCharacter
  | badIndex
  | noSuchField (name : String)
  /-- The text would not fit into any memory. -/
  | tooWide
  deriving DecidableEq, Repr

structure Slot where
  name : List Char
  conversion : Option Char
  spec : List Char
  deriving DecidableEq, Repr

/-- `broken` ends a template that cannot be read further. -/
inductive Piece
  | literal (c : Char)
  | slot (s : Slot)
  | broken (reason : String)
  deriving DecidableEq, Repr

def openBrace : Char := '\x7b'

def closeBrace : Char := '\x7d'

/-- Where in a template the reader stands; texts are held latest character first. -/
inductive TemplateMode
  | outside
  | closing
  | name (read : List Char)
  | bracket (read : List Char)
  | conversion (name : List Char)
  | converted (name : List Char) (conversion : Char)
  | spec (name : List Char) (conversion : Option Char) (read : List Char) (depth : Nat)
  deriving DecidableEq, Repr

def singleOpenBrace : String := "Single '\x7b' encountered in format string"

def singleCloseBrace : String := "Single '\x7d' encountered in format string"

def missingCloseBrace : String := "expected '\x7d' before end of string"

def strayOpenBrace : String := "unexpected '\x7b' in field name"

def unmatchedOpenBrace : String := "unmatched '\x7b' in format spec"

def readPieces : TemplateMode → List Char → List Piece
  | .outside, [] => []
  | .closing, [] => [.broken singleCloseBrace]
  | .name [], [] => [.broken singleOpenBrace]
  | .name _, [] => [.broken missingCloseBrace]
  | .bracket _, [] => [.broken missingCloseBrace]
  | .conversion _, [] => [.broken "end of string while looking for conversion specifier"]
  | .converted _ _, [] => [.broken unmatchedOpenBrace]
  | .spec _ _ _ _, [] => [.broken unmatchedOpenBrace]
  | .outside, c :: rest =>
    if c == openBrace then readPieces (.name []) rest
    else if c == closeBrace then readPieces .closing rest
    else .literal c :: readPieces .outside rest
  | .closing, c :: rest =>
    if c == closeBrace then .literal closeBrace :: readPieces .outside rest
    else [.broken singleCloseBrace]
  | .name read, c :: rest =>
    if c == openBrace then
      if read.isEmpty then .literal openBrace :: readPieces .outside rest
      else [.broken strayOpenBrace]
    else if c == closeBrace then .slot ⟨read.reverse, none, []⟩ :: readPieces .outside rest
    else if c == '!' then readPieces (.conversion read.reverse) rest
    else if c == ':' then readPieces (.spec read.reverse none [] 1) rest
    else if c == '[' then readPieces (.bracket (c :: read)) rest
    else readPieces (.name (c :: read)) rest
  | .bracket read, c :: rest =>
    if c == ']' then readPieces (.name (c :: read)) rest
    else readPieces (.bracket (c :: read)) rest
  | .conversion name, c :: rest => readPieces (.converted name c) rest
  | .converted name conversion, c :: rest =>
    if c == closeBrace then .slot ⟨name, some conversion, []⟩ :: readPieces .outside rest
    else if c == ':' then readPieces (.spec name (some conversion) [] 1) rest
    else [.broken "expected ':' after conversion specifier"]
  | .spec name conversion read depth, c :: rest =>
    if c == openBrace then readPieces (.spec name conversion (c :: read) (depth + 1)) rest
    else if c == closeBrace then
      if depth ≤ 1 then .slot ⟨name, conversion, read.reverse⟩ :: readPieces .outside rest
      else readPieces (.spec name conversion (c :: read) (depth - 1)) rest
    else readPieces (.spec name conversion (c :: read) depth) rest

def indexNumeral? (cs : List Char) : Option Nat :=
  if cs.isEmpty then none else (cs.mapM decimalDigit?).map digitsValue

def maxIndex : Nat := 9223372036854775807

/-- Follows the `.field` and `[index]` steps after a slot's first name. -/
def followSteps (value : List Char) : Nat → List Char → Except TemplateError (List Char)
  | 0, _ => .ok value
  | _ + 1, [] => .ok value
  | fuel + 1, c :: rest =>
    if c == '.' then
      let field := rest.takeWhile fun c => c != '.' && c != '['
      if field.isEmpty then .error (.malformed "Empty attribute in format string")
      else .error (.noSuchField (String.ofList field))
    else if c == '[' then
      let index := rest.takeWhile (· != ']')
      match rest.dropWhile (· != ']') with
      | [] => .error (.malformed "Missing ']' in format string")
      | _ :: after =>
        if index.isEmpty then .error (.malformed "Empty attribute in format string")
        else
          match indexNumeral? index with
          | none => .error .badIndex
          | some i =>
            if i > maxIndex then
              .error (.malformed "Too many decimal digits in format string")
            else
              match value[i]? with
              | none => .error .noSuchCharacter
              | some x => followSteps [x] fuel after
    else
      .error (.malformed "Only '.' or '[' may follow ']' in format field specifier")

def slotValue (values : List (String × String)) (name : List Char) :
    Except TemplateError (List Char) :=
  let first := name.takeWhile fun c => c != '.' && c != '['
  let steps := name.dropWhile fun c => c != '.' && c != '['
  if first.isEmpty then .error (.unnumbered 0)
  else
    match indexNumeral? first with
    | some i =>
      if i > maxIndex then .error (.malformed "Too many decimal digits in format string")
      else .error (.unnumbered i)
    | none =>
      match values.lookup (String.ofList first) with
      | none => .error (.unknownSlot (String.ofList first))
      | some value => followSteps value.toList (steps.length + 1) steps

/-- The quoted form with every character beyond ASCII escaped as well. -/
def quoteAscii (s : String) : List Char :=
  (quote s).toList.flatMap fun c =>
    if isAscii c then [c] else escaped c

def convert (conversion : Option Char) (value : List Char) : Except TemplateError (List Char) :=
  match conversion with
  | none => .ok value
  | some c =>
    if c == 's' then .ok value
    else if c == 'r' then .ok (quote (String.ofList value)).toList
    else if c == 'a' then .ok (quoteAscii (String.ofList value))
    else .error (.malformed s!"Unknown conversion specifier {c}")

def isAlignMark (c : Char) : Bool :=
  c == '<' || c == '>' || c == '^' || c == '='

/-- A layout: fill character, side, least width and greatest length. -/
structure Layout where
  fill : Char := ' '
  align : Char := '<'
  width : Nat := 0
  limit : Option Nat := none
  deriving DecidableEq, Repr

def takeNumeral (cs : List Char) : Option Nat × List Char :=
  match (cs.takeWhile fun c => (decimalDigit? c).isSome).filterMap decimalDigit? with
  | [] => (none, cs)
  | ds => (some (digitsValue ds), cs.dropWhile fun c => (decimalDigit? c).isSome)

def takeMark (p : Char → Bool) : List Char → Option Char × List Char
  | c :: rest => if p c then (some c, rest) else (none, c :: rest)
  | [] => (none, [])

/-- The kinds of value for which thousands may be set apart; by an underscore also those that
are written in other bases than ten. -/
def groupedKinds (underscore : Bool) : List Char :=
  (if underscore then "defgEG%FboxX" else "defgEG%F").toList

def kindText (kind : Char) : String :=
  if 32 < kind.toNat && kind.toNat < 128 then kind.toString
  else "\\x" ++ String.ofList (Nat.toDigits 16 kind.toNat)

def checkMarks (sign zero alternate separator align : Option Char) (kind : Char) :
    Except TemplateError Unit := do
  match separator with
  | some c =>
    if !(groupedKinds (c == '_')).contains kind then
      throw (.malformed s!"Cannot specify '{c}' with '{kindText kind}'.")
  | none => pure ()
  if kind != 's' then
    throw (.malformed s!"Unknown format code '{kindText kind}' for object of type 'str'")
  match sign with
  | some ' ' => throw (.malformed "Space not allowed in string format specifier")
  | some _ => throw (.malformed "Sign not allowed in string format specifier")
  | none => pure ()
  if zero.isSome then
    throw (.malformed "Negative zero coercion (z) not allowed in string format specifier")
  if alternate.isSome then
    throw (.malformed "Alternate form (#) not allowed in string format specifier")
  if align == some '=' then
    throw (.malformed "'=' alignment not allowed in string format specifier")

/-- A width above this one is too wide for any memory. -/
def maxWidth : Nat := 10000000000

def readLayout (spec : List Char) : Except TemplateError Layout := do
  let (fill, align, afterAlign) :=
    match spec with
    | f :: a :: rest =>
      if isAlignMark a then (some f, some a, rest)
      else if isAlignMark f then (none, some f, a :: rest)
      else (none, none, spec)
    | [a] => if isAlignMark a then (none, some a, []) else (none, none, spec)
    | [] => (none, none, [])
  let (sign, rest) := takeMark (fun c => c == ' ' || c == '+' || c == '-') afterAlign
  let (zero, rest) := takeMark (· == 'z') rest
  let (alternate, rest) := takeMark (· == '#') rest
  let (pad, rest) := if fill.isNone then takeMark (· == '0') rest else (none, rest)
  let (width, rest) := takeNumeral rest
  if width.getD 0 > maxIndex then
    throw (.malformed "Too many decimal digits in format string")
  let (comma, rest) := takeMark (· == ',') rest
  let (underscore, rest) := takeMark (· == '_') rest
  if underscore.isSome && (comma.isSome || rest.head? == some ',') then
    throw (.malformed "Cannot specify both ',' and '_'.")
  let (point, rest) := takeMark (· == '.') rest
  let (limit, rest) := if point.isSome then takeNumeral rest else (none, rest)
  if limit.getD 0 > maxIndex then
    throw (.malformed "Too many decimal digits in format string")
  if point.isSome && limit.isNone then
    throw (.malformed "Format specifier missing precision")
  if rest.length > 1 then
    throw (.malformed s!"Invalid format specifier '{String.ofList spec}' for object of type 'str'")
  checkMarks sign zero alternate (comma <|> underscore) align (rest.headD 's')
  if width.getD 0 > maxWidth then throw .tooWide
  return ⟨fill.getD (pad.getD ' '), align.getD '<', width.getD 0, limit⟩

def layOut (layout : Layout) (value : List Char) : List Char :=
  let shown :=
    match layout.limit with
    | some n => value.take n
    | none => value
  let room := layout.width - shown.length
  let left :=
    if layout.align == '>' then room else if layout.align == '^' then room / 2 else 0
  List.replicate left layout.fill ++ shown ++ List.replicate (room - left) layout.fill

/-- The text of pieces with every slot filled; slots inside a layout nest `depth` deep. -/
def fillPieces (values : List (String × String)) :
    Nat → List Piece → Except TemplateError (List Char)
  | _, [] => .ok []
  | depth, .literal c :: rest => do
    return c :: (← fillPieces values depth rest)
  | _, .broken reason :: _ => .error (.malformed reason)
  | depth, .slot s :: rest => do
    let value ← convert s.conversion (← slotValue values s.name)
    let spec ←
      if s.spec.contains openBrace then
        match depth with
        | 0 => .error (.malformed "Max string recursion exceeded")
        | d + 1 => fillPieces values d (readPieces .outside s.spec)
      else pure s.spec
    let shown ← if spec.isEmpty then pure value else (readLayout spec).map (layOut · value)
    return shown ++ (← fillPieces values depth rest)
  termination_by depth pieces => (depth, pieces.length)

def fillTemplate (template : String) (values : List (String × String)) :
    Except TemplateError String :=
  (fillPieces values 1 (readPieces .outside template.toList)).map String.ofList

end SnippetRunner.Text
