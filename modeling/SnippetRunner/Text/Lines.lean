import SnippetRunner.Text.Blank

/-!
Lines of a text. A line ends at any of the line separators of Unicode, the pair of
carriage return and line feed counting once, and a text that ends with a separator has no
empty line after it. Reading a file first turns carriage returns into line feeds.
Dedenting removes the longest margin of spaces and tabs shared by the lines that hold more.
-/
namespace SnippetRunner.Text

def isLineBreak (c : Char) : Bool :=
  let n := c.toNat
  (10 ≤ n && n ≤ 13) || (28 ≤ n && n ≤ 30) || n == 0x85 || n == 0x2028 || n == 0x2029

def charLines : List Char → List (List Char)
  | [] => []
  | '\r' :: '\n' :: rest => [] :: charLines rest
  | c :: rest =>
    if isLineBreak c then [] :: charLines rest
    else
      match charLines rest with
      | [] => [[c]]
      | line :: lines => (c :: line) :: lines

def splitLines (s : String) : List String :=
  (charLines s.toList).map String.ofList

def joinLines (lines : List String) : String :=
  String.intercalate "\n" lines

/-- Line ends as a reader of text files sees them: always a single line feed. -/
def normalizeChars : List Char → List Char
  | [] => []
  | '\r' :: '\n' :: rest => '\n' :: normalizeChars rest
  | '\r' :: rest => '\n' :: normalizeChars rest
  | c :: rest => c :: normalizeChars rest

def normalizeNewlines (s : String) : String :=
  String.ofList (normalizeChars s.toList)

/-- The pieces between the occurrences of a character; one more than there are of them. -/
def splitChars (sep : Char) : List Char → List (List Char)
  | [] => [[]]
  | c :: rest =>
    match splitChars sep rest with
    | [] => [[]]
    | piece :: pieces =>
      if c == sep then [] :: piece :: pieces else (c :: piece) :: pieces

def splitAt (sep : Char) (s : String) : List String :=
  (splitChars sep s.toList).map String.ofList

/-- A bound of a slice as a count from the start; a negative one counts from the end. -/
def sliceBound (size : Nat) (bound : Int) : Nat :=
  if bound < 0 then ((size : Int) + bound).toNat else min bound.toNat size

def slice {α : Type} (items : List α) (start stop : Int) : List α :=
  (items.take (sliceBound items.length stop)).drop (sliceBound items.length start)

def isMarginChar (c : Char) : Bool :=
  c == ' ' || c == '\t'

def isMarginOnly (line : List Char) : Bool :=
  line.all isMarginChar

def commonPrefix : List Char → List Char → List Char
  | a :: as, b :: bs => if a == b then a :: commonPrefix as bs else []
  | _, _ => []

/-- The longest margin shared by the lines that hold more than a margin. -/
def sharedMargin (lines : List (List Char)) : List Char :=
  match (lines.filter fun l => !isMarginOnly l).map (·.takeWhile isMarginChar) with
  | [] => []
  | first :: others => others.foldl commonPrefix first

def dedentLine (margin : Nat) (line : List Char) : List Char :=
  if isMarginOnly line then [] else line.drop margin

def dedentChars (lines : List (List Char)) : List (List Char) :=
  lines.map (dedentLine (sharedMargin lines).length)

def dedentLines (lines : List String) : List String :=
  (dedentChars (lines.map String.toList)).map String.ofList

end SnippetRunner.Text
