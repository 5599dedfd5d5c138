import SnippetRunner.Shell.Reader
import SnippetRunner.Text.Numeral

/-!
Arithmetic of the shell: whole numbers, names standing for the numbers they hold, the usual
operators with their usual strength, and comparisons that give one or zero.
-/
namespace SnippetRunner.Shell

inductive ArithmeticError
  | malformed
  | divisionByZero
  deriving DecidableEq, Repr

abbrev Calculated := Except ArithmeticError (Int × List Char)

/-- A numeral at the head of a text: hexadecimal after `0x`, octal after another zero. -/
def takeNumeral (cs : List Char) : Int × List Char :=
  let value (base : Nat) (digit? : Char → Option Nat) (cs : List Char) : Int × List Char :=
    let digits := cs.takeWhile fun c => (digit? c).isSome
    ((((digits.filterMap digit?).foldl (fun n d => n * base + d) 0 : Nat) : Int),
      cs.drop digits.length)
  match cs with
  | '0' :: 'x' :: rest => value 16 Text.hexDigit? rest
  | '0' :: rest => value 8 (fun c => (Text.asciiDigit? c).filter (· < 8)) rest
  | cs => value 10 Text.asciiDigit? cs

def dropSpaces (cs : List Char) : List Char :=
  cs.dropWhile fun c => c == ' ' || c == '\t' || c == '\n'

/-- Operators by strength, weakest first; longer marks before their beginnings. -/
def operatorLevels : List (List String) :=
  [["||"], ["&&"], ["|"], ["^"], ["&"], ["==", "!="], ["<=", ">=", "<", ">"], ["<<", ">>"],
   ["+", "-"], ["*", "/", "%"]]

def truth (b : Bool) : Int := if b then 1 else 0

def bitwise (f : Nat → Nat → Nat) (a b : Int) : Int :=
  (f a.toNat b.toNat : Nat)

def applyOperator (mark : String) (a b : Int) : Except ArithmeticError Int :=
  match mark with
  | "||" => .ok (truth (a != 0 || b != 0))
  | "&&" => .ok (truth (a != 0 && b != 0))
  | "|" => .ok (bitwise (· ||| ·) a b)
  | "^" => .ok (bitwise (· ^^^ ·) a b)
  | "&" => .ok (bitwise (· &&& ·) a b)
  | "==" => .ok (truth (a == b))
  | "!=" => .ok (truth (a != b))
  | "<=" => .ok (truth (a ≤ b))
  | ">=" => .ok (truth (b ≤ a))
  | "<" => .ok (truth (a < b))
  | ">" => .ok (truth (b < a))
  | "<<" => .ok (a * (Nat.pow 2 b.toNat : Nat))
  | ">>" => .ok (a / (Nat.pow 2 b.toNat : Nat))
  | "+" => .ok (a + b)
  | "-" => .ok (a - b)
  | "*" => .ok (a * b)
  | "/" => if b == 0 then .error .divisionByZero else .ok (a.tdiv b)
  | "%" => if b == 0 then .error .divisionByZero else .ok (a.tmod b)
  | _ => .error .malformed

def takeOperator (marks : List String) (cs : List Char) : Option (String × List Char) :=
  marks.findSome? fun m =>
    if m.toList.isPrefixOf cs then
      let rest := cs.drop m.length
      -- a single mark is not the beginning of its double
      match rest with
      | c :: _ =>
        if m.length == 1 && (m == "|" || m == "&" || m == "<" || m == ">") && m.toList == [c] then
          none
        else some (m, rest)
      | [] => some (m, rest)
    else none

mutual

def calculateLevel (value : String → Int) : Nat → List (List String) → List Char → Calculated
  | 0, _, _ => .error .malformed
  | fuel + 1, [], cs => calculateUnary value fuel cs
  | fuel + 1, marks :: tighter, cs => do
    let (a, rest) ← calculateLevel value fuel tighter cs
    calculateTail value fuel marks tighter a rest

def calculateTail (value : String → Int) : Nat → List String → List (List String) → Int →
    List Char → Calculated
  | 0, _, _, _, _ => .error .malformed
  | fuel + 1, marks, tighter, a, cs =>
    match takeOperator marks (dropSpaces cs) with
    | none => .ok (a, dropSpaces cs)
    | some (mark, rest) => do
      let (b, rest) ← calculateLevel value fuel tighter rest
      calculateTail value fuel marks tighter (← applyOperator mark a b) rest

def calculateUnary (value : String → Int) : Nat → List Char → Calculated
  | 0, _ => .error .malformed
  | fuel + 1, cs =>
    match dropSpaces cs with
    | '-' :: rest => do
      let (a, rest) ← calculateUnary value fuel rest
      return (-a, rest)
    | '+' :: rest => calculateUnary value fuel rest
    | '!' :: rest => do
      let (a, rest) ← calculateUnary value fuel rest
      return (truth (a == 0), rest)
    | '(' :: rest => do
      let (a, rest) ← calculateLevel value fuel operatorLevels rest
      match dropSpaces rest with
      | ')' :: after => return (a, after)
      | _ => throw .malformed
    | c :: rest =>
      if Text.isAsciiDigit c then
        .ok (takeNumeral (c :: rest))
      else if isNameStart c then
        .ok (value (String.ofList (c :: rest.takeWhile isNameChar)), rest.dropWhile isNameChar)
      else .error .malformed
    | [] => .error .malformed

end

/-- The value of an expression; an empty one is zero. -/
def calculate (value : String → Int) (expression : String) : Except ArithmeticError Int := do
  let cs := dropSpaces expression.toList
  if cs.isEmpty then return 0
  else
    let (a, rest) ← calculateLevel value (20 * cs.length + 40) operatorLevels cs
    if (dropSpaces rest).isEmpty then return a else throw .malformed

end SnippetRunner.Shell
