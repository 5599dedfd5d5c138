import SnippetRunner.Text.Blank

/-!
Whole numbers written in decimal. A numeral may be padded with blanks, carry a sign, and
group its digits with single underscores between them. In a text with any character beyond
ASCII the digits and blanks of every script count. Numerals of more than 4300 digits are
refused by their length.
-/
namespace SnippetRunner.Text

inductive NumeralError
  | malformed
  | tooLong (digits : Nat)
  deriving DecidableEq, Repr

/-- The zero of each block of ten decimal digits. -/
def digitZeros : List Nat :=
  [48, 1632, 1776, 1984, 2406, 2534, 2662, 2790, 2918, 3046, 3174, 3302, 3430, 3558, 3664, 3792,
   3872, 4160, 4240, 6112, 6160, 6470, 6608, 6784, 6800, 6992, 7088, 7232, 7248, 42528, 43216,
   43264, 43472, 43504, 43600, 44016, 65296, 66720, 68912, 69734, 69872, 69942, 70096, 70384,
   70736, 70864, 71248, 71360, 71472, 71904, 72016, 72784, 73040, 73120, 92768, 92864, 93008,
   120782, 120792, 120802, 120812, 120822, 123200, 123632, 125264, 130032]

def decimalDigit? (c : Char) : Option Nat :=
  digitZeros.findSome? fun z =>
    if z ≤ c.toNat && c.toNat < z + 10 then some (c.toNat - z) else none

def asciiDigit? (c : Char) : Option Nat :=
  if '0' ≤ c && c ≤ '9' then some (c.toNat - 48) else none

def hexDigit? (c : Char) : Option Nat :=
  if 'a' ≤ c && c ≤ 'f' then some (c.toNat - 87)
  else if 'A' ≤ c && c ≤ 'F' then some (c.toNat - 55)
  else asciiDigit? c

/-- A character of a numeral brought to ASCII; one that has no place in it becomes `?`. -/
def plainNumeralChar (c : Char) : Char :=
  if c.toNat < 127 then c
  else if isBlank c then ' '
  else
    match decimalDigit? c with
    | some d => Char.ofNat (48 + d)
    | none => '?'

def plainNumeral (cs : List Char) : List Char :=
  if cs.all fun c => c.toNat < 128 then cs else cs.map plainNumeralChar

/-- The digits of a numeral; an underscore must stand between two of them. -/
def groupedDigits (afterDigit : Bool) : List Char → Option (List Nat)
  | [] => if afterDigit then some [] else none
  | c :: rest =>
    if c == '_' then
      if afterDigit then groupedDigits false rest else none
    else
      match asciiDigit? c with
      | some d => (groupedDigits true rest).map (d :: ·)
      | none => none

def digitsValue (digits : List Nat) : Nat :=
  digits.foldl (fun n d => n * 10 + d) 0

def maxNumeralDigits : Nat := 4300

def parseDigits (cs : List Char) : Except NumeralError Nat :=
  match groupedDigits false cs with
  | none => .error .malformed
  | some digits =>
    if digits.length > maxNumeralDigits then .error (.tooLong digits.length)
    else .ok (digitsValue digits)

def parseInteger (s : String) : Except NumeralError Int :=
  match trim isAsciiPadding (plainNumeral s.toList) with
  | '-' :: rest => (parseDigits rest).map fun n => -(n : Int)
  | '+' :: rest => (parseDigits rest).map Int.ofNat
  | rest => (parseDigits rest).map Int.ofNat

def tooLongMessage (digits : Nat) : String :=
  s!"Exceeds the limit ({maxNumeralDigits} digits) for integer string conversion: "
    ++ s!"value has {digits} digits; use sys.set_int_max_str_digits() to increase the limit"

end SnippetRunner.Text
