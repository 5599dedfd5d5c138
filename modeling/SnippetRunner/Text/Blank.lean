/-!
Blank characters and trimming. The blank characters are those of Unicode's bidirectional
and separator classes: the ASCII controls from tab to carriage return and from the file
separator on, the space, and the wider spaces of other blocks.
-/
namespace SnippetRunner.Text

def isBlank (c : Char) : Bool :=
  let n := c.toNat
  (9 ≤ n && n ≤ 13) || (28 ≤ n && n ≤ 32) || n == 0x85 || n == 0xA0 || n == 0x1680 ||
  (0x2000 ≤ n && n ≤ 0x200A) || n == 0x2028 || n == 0x2029 || n == 0x202F || n == 0x205F ||
  n == 0x3000

/-- A blank character that is not one of the four separators of ASCII. -/
def isWhiteSpace (c : Char) : Bool :=
  isBlank c && !(28 ≤ c.toNat && c.toNat ≤ 31)

def isAsciiPadding (c : Char) : Bool :=
  let n := c.toNat
  (9 ≤ n && n ≤ 13) || n == 32

def trimLeft (p : Char → Bool) (cs : List Char) : List Char :=
  cs.dropWhile p

def trimRight (p : Char → Bool) (cs : List Char) : List Char :=
  (cs.reverse.dropWhile p).reverse

def trim (p : Char → Bool) (cs : List Char) : List Char :=
  trimRight p (trimLeft p cs)

def strip (s : String) : String :=
  String.ofList (trim isBlank s.toList)

def stripLeft (s : String) : String :=
  String.ofList (trimLeft isBlank s.toList)

def stripSlashes (s : String) : String :=
  String.ofList (trimRight (· == '/') s.toList)

end SnippetRunner.Text
