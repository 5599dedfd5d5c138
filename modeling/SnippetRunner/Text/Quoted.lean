import SnippetRunner.Text.Printable

/-!
Quoted texts for messages. A text stands between single quotes, or between double quotes
when it holds a single quote and no double one. The backslash, the quote in use and every
unprintable character are escaped, the latter by two, four or eight hexadecimal digits.
-/
namespace SnippetRunner.Text

def hexDigit (n : Nat) : Char :=
  if n < 10 then Char.ofNat (48 + n) else Char.ofNat (87 + n)

def hexDigits : Nat → Nat → List Char
  | 0, _ => []
  | width + 1, n => hexDigits width (n / 16) ++ [hexDigit (n % 16)]

/-- A character by its number, in two, four or eight hexadecimal digits. -/
def escaped (c : Char) : List Char :=
  if c.toNat < 0x100 then '\\' :: 'x' :: hexDigits 2 c.toNat
  else if c.toNat < 0x10000 then '\\' :: 'u' :: hexDigits 4 c.toNat
  else '\\' :: 'U' :: hexDigits 8 c.toNat

def quoteMark (s : String) : Char :=
  if s.toList.contains '\'' && !s.toList.contains '"' then '"' else '\''

def quoteChar (mark c : Char) : List Char :=
  if c == mark || c == '\\' then ['\\', c]
  else if c == '\n' then ['\\', 'n']
  else if c == '\r' then ['\\', 'r']
  else if c == '\t' then ['\\', 't']
  else if isPrintable c then [c]
  else escaped c

def quote (s : String) : String :=
  let mark := quoteMark s
  String.ofList (mark :: (s.toList.flatMap (quoteChar mark) ++ [mark]))

end SnippetRunner.Text
