import SnippetRunner.Json.Value
import SnippetRunner.Text.Template

/-!
Reading JSON. Beyond the standard the words for the undefined and the infinite numbers are
read, and the last of several members with one key wins. A text that is not JSON is refused
with the reason and the place, counted in characters from the start.
-/
namespace SnippetRunner.Json

open Text (openBrace closeBrace hexDigit?)

structure ReadError where
  reason : String
  position : Nat
  deriving DecidableEq, Repr

/-- Why a text gives no value: it is not JSON, it has a numeral that is too long, or its
values are too deep inside each other. -/
inductive ReadFailure
  | syntaxAt (e : ReadError)
  | numeral (digits : Nat)
  | tooDeep (inList : Bool)
  deriving DecidableEq, Repr

structure Cursor where
  rest : List Char
  at_ : Nat

def isJsonBlank (c : Char) : Bool :=
  c == ' ' || c == '\t' || c == '\n' || c == '\r'

def skipBlanks : List Char → Nat → Cursor
  | [], n => ⟨[], n⟩
  | c :: rest, n => if isJsonBlank c then skipBlanks rest (n + 1) else ⟨c :: rest, n⟩

def fail {α : Type} (reason : String) (position : Nat) : Except ReadFailure α :=
  .error (.syntaxAt ⟨reason, position⟩)

def hex4? : List Char → Option Nat
  | a :: b :: c :: d :: _ :: _ => do
    return (← hexDigit? a) * 4096 + (← hexDigit? b) * 256 + (← hexDigit? c) * 16 + (← hexDigit? d)
  | _ => none

def simpleEscape? (c : Char) : Option Char :=
  if c == '"' || c == '\\' || c == '/' then some c
  else if c == 'b' then some '\x08'
  else if c == 'f' then some '\x0c'
  else if c == 'n' then some '\n'
  else if c == 'r' then some '\r'
  else if c == 't' then some '\t'
  else none

/-- The rest of a string after its opening quote, whose place is `start`. -/
def readString (start : Nat) : Nat → List Char → Nat → List Char →
    Except ReadFailure (String × Cursor)
  | 0, _, _, _ => fail "Unterminated string starting at" start
  | _ + 1, [], _, _ => fail "Unterminated string starting at" start
  | fuel + 1, c :: rest, n, acc =>
    if c == '"' then .ok (String.ofList acc.reverse, ⟨rest, n + 1⟩)
    else if c == '\\' then
      match rest with
      | [] => fail "Unterminated string starting at" start
      | e :: after =>
        if e == 'u' then
          match hex4? after with
          | none => fail "Invalid \\uXXXX escape" (n + 1)
          | some high =>
            let tail := after.drop 4
            let low? : Option Nat :=
              if 0xD800 ≤ high && high ≤ 0xDBFF then
                match tail with
                | '\\' :: 'u' :: more =>
                  match hex4? more with
                  | some low => if 0xDC00 ≤ low && low ≤ 0xDFFF then some low else none
                  | none => none
                | _ => none
              else none
            match low? with
            | some low =>
              let c := Char.ofNat (0x10000 + (high - 0xD800) * 0x400 + (low - 0xDC00))
              readString start fuel (tail.drop 6) (n + 12) (c :: acc)
            | none =>
              let c := if 0xD800 ≤ high && high ≤ 0xDFFF then '\uFFFD' else Char.ofNat high
              readString start fuel tail (n + 6) (c :: acc)
        else
          match simpleEscape? e with
          | some x => readString start fuel after (n + 2) (x :: acc)
          | none => fail "Invalid \\escape" n
    else if c.toNat < 32 then fail "Invalid control character at" n
    else readString start fuel rest (n + 1) (c :: acc)

def takeDigits (cs : List Char) : List Nat × List Char :=
  ((cs.takeWhile Char.isDigit).map fun c => c.toNat - 48, cs.dropWhile Char.isDigit)

/-- The fraction after a whole part, when a point is followed by a digit. -/
def takeFraction : List Char → Option (List Nat) × List Char
  | '.' :: rest =>
    match takeDigits rest with
    | ([], _) => (none, '.' :: rest)
    | (ds, after) => (some ds, after)
  | cs => (none, cs)

def takeExponent : List Char → Option Int × List Char
  | c :: rest =>
    if c == 'e' || c == 'E' then
      let (negative, digits) :=
        match rest with
        | '-' :: more => (true, more)
        | '+' :: more => (false, more)
        | more => (false, more)
      match takeDigits digits with
      | ([], _) => (none, c :: rest)
      | (ds, after) =>
        let n : Int := Text.digitsValue ds
        (some (if negative then -n else n), after)
    else (none, c :: rest)
  | [] => (none, [])

def readNumber (cs : List Char) (n : Nat) : Except ReadFailure (Json × Cursor) :=
  let (negative, body) :=
    match cs with
    | '-' :: rest => (true, rest)
    | _ => (false, cs)
  let (digits, afterWhole) :=
    match body with
    | '0' :: rest => ([0], rest)
    | _ => takeDigits body
  if digits.isEmpty then fail "Expecting value" n
  else
    let (fraction, afterFraction) := takeFraction afterWhole
    let (exponent, after) := takeExponent afterFraction
    let cursor : Cursor := ⟨after, n + (cs.length - after.length)⟩
    match fraction, exponent with
    | none, none =>
      if digits.length > Text.maxNumeralDigits then .error (.numeral digits.length)
      else
        let v : Int := Text.digitsValue digits
        .ok (.int (if negative then -v else v), cursor)
    | _, _ =>
      let frac := fraction.getD []
      let power := exponent.getD 0 - (frac.length : Int)
      .ok (.float (.ofDecimal negative (Text.digitsValue (digits ++ frac)) power), cursor)

def constants : List (List Char × Json) :=
  [("null".toList, .null), ("true".toList, .bool true), ("false".toList, .bool false),
   ("NaN".toList, .float .notANumber), ("Infinity".toList, .float (.infinite false)),
   ("-Infinity".toList, .float (.infinite true))]

def readConstant? (cs : List Char) : Option (Nat × Json) :=
  constants.findSome? fun k =>
    if k.1.isPrefixOf cs then some (k.1.length, k.2) else none

mutual

def readValue : Nat → Nat → List Char → Nat → Except ReadFailure (Json × Cursor)
  | 0, _, _, n => fail "Expecting value" n
  | _ + 1, _, [], n => fail "Expecting value" n
  | fuel + 1, depth, c :: rest, n =>
    if c == '"' then do
      let (s, cursor) ← readString n (rest.length + 1) rest (n + 1) []
      return (.str s, cursor)
    else if depth == 0 && (c == '[' || c == openBrace) then .error (.tooDeep (c == '['))
    else if c == '[' then
      let cursor := skipBlanks rest (n + 1)
      match cursor.rest with
      | ']' :: after => .ok (.arr [], ⟨after, cursor.at_ + 1⟩)
      | _ => do
        let (items, cursor) ← readItems fuel (depth - 1) cursor.rest cursor.at_
        return (.arr items, cursor)
    else if c == openBrace then
      let cursor := skipBlanks rest (n + 1)
      match cursor.rest with
      | [] => fail "Expecting property name enclosed in double quotes" cursor.at_
      | d :: after =>
        if d == closeBrace then .ok (.obj [], ⟨after, cursor.at_ + 1⟩)
        else do
          let (members, cursor) ← readMembers fuel (depth - 1) (d :: after) cursor.at_ []
          return (.obj members, cursor)
    else
      match readConstant? (c :: rest) with
      | some (size, v) => .ok (v, ⟨(c :: rest).drop size, n + size⟩)
      | none => readNumber (c :: rest) n

def readItems : Nat → Nat → List Char → Nat → Except ReadFailure (List Json × Cursor)
  | 0, _, _, n => fail "Expecting value" n
  | fuel + 1, depth, cs, n => do
    let (v, cursor) ← readValue fuel depth cs n
    let cursor := skipBlanks cursor.rest cursor.at_
    match cursor.rest with
    | ']' :: after => return ([v], ⟨after, cursor.at_ + 1⟩)
    | ',' :: after =>
      let next := skipBlanks after (cursor.at_ + 1)
      let (items, cursor) ← readItems fuel depth next.rest next.at_
      return (v :: items, cursor)
    | _ => fail "Expecting ',' delimiter" cursor.at_

def readMembers : Nat → Nat → List Char → Nat → List (String × Json) →
    Except ReadFailure (List (String × Json) × Cursor)
  | 0, _, _, n, _ => fail "Expecting value" n
  | _ + 1, _, [], n, _ => fail "Expecting property name enclosed in double quotes" n
  | fuel + 1, depth, c :: rest, n, members => do
    if c != '"' then fail "Expecting property name enclosed in double quotes" n
    else
      let (key, cursor) ← readString n (rest.length + 1) rest (n + 1) []
      let cursor := skipBlanks cursor.rest cursor.at_
      match cursor.rest with
      | ':' :: after =>
        let start := skipBlanks after (cursor.at_ + 1)
        let (v, cursor) ← readValue fuel depth start.rest start.at_
        let members := setMember members key v
        let cursor := skipBlanks cursor.rest cursor.at_
        match cursor.rest with
        | ',' :: after =>
          let next := skipBlanks after (cursor.at_ + 1)
          readMembers fuel depth next.rest next.at_ members
        | d :: after =>
          if d == closeBrace then return (members, ⟨after, cursor.at_ + 1⟩)
          else fail "Expecting ',' delimiter" cursor.at_
        | [] => fail "Expecting ',' delimiter" cursor.at_
      | _ => fail "Expecting ':' delimiter" cursor.at_

end

/-- The value of a whole text in which a mark of the encoding is a character like any other.
Values may be so and so deep inside each other. -/
def readUnmarked (depth : Nat) (s : String) : Except ReadFailure Json := do
  let cs := s.toList
  let start := skipBlanks cs 0
  let (v, cursor) ← readValue (2 * cs.length + 2) depth start.rest start.at_
  let cursor := skipBlanks cursor.rest cursor.at_
  if cursor.rest.isEmpty then return v else fail "Extra data" cursor.at_

/-- The value of a whole text, which must not begin with a mark of the encoding. -/
def read (depth : Nat) (s : String) : Except ReadFailure Json :=
  match s.toList with
  | '\uFEFF' :: _ => fail "Unexpected UTF-8 BOM (decode using utf-8-sig)" 0
  | _ => readUnmarked depth s

def ReadError.message (text : String) (e : ReadError) : String :=
  let before := text.toList.take e.position
  let line := before.count '\n' + 1
  let column := (before.reverse.takeWhile (· != '\n')).length + 1
  s!"{e.reason}: line {line} column {column} (char {e.position})"

def ReadFailure.message (text : String) : ReadFailure → String
  | .syntaxAt e => e.message text
  | .numeral digits => Text.tooLongMessage digits
  | .tooDeep inList =>
    let kind := if inList then "array" else "object"
    s!"maximum recursion depth exceeded while decoding a JSON {kind} from a unicode string"

end SnippetRunner.Json
