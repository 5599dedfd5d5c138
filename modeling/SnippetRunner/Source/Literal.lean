import SnippetRunner.Language.Descriptor
import SnippetRunner.Path

/-!
The plain part of a line of code. String literals are emptied first, then everything from a
comment mark on is dropped; names and bracket depth are read off what is left. A quote that
is not closed on its line opens nothing.
-/
namespace SnippetRunner.Source

/-- What follows a literal, given the text after its opening quote. A backslash takes the
next character with it. -/
def afterLiteral? (quote : Char) : List Char → Option (List Char)
  | [] => none
  | '\\' :: [] => none
  | '\\' :: c :: rest => if c == '\n' then none else afterLiteral? quote rest
  | c :: rest => if c == quote then some rest else afterLiteral? quote rest

theorem afterLiteral?_length {quote : Char} {cs rest : List Char}
    (h : afterLiteral? quote cs = some rest) : rest.length < cs.length := by
  fun_induction afterLiteral? quote cs <;> grind

def isQuote (c : Char) : Bool :=
  c == '"' || c == '\''

def emptyLiterals : List Char → List Char
  | [] => []
  | c :: rest =>
    if isQuote c then
      match _h : afterLiteral? c rest with
      | some after => '"' :: '"' :: emptyLiterals after
      | none => c :: emptyLiterals rest
    else c :: emptyLiterals rest
  termination_by cs => cs.length
  decreasing_by
    · have := afterLiteral?_length _h
      simp only [List.length_cons]
      omega
    · simp
    · simp

def beforeMark (mark : List Char) : List Char → List Char
  | [] => []
  | c :: rest => if mark.isPrefixOf (c :: rest) then [] else c :: beforeMark mark rest

def plainChars (style : BlockStyle) (line : List Char) : List Char :=
  beforeMark style.commentMark.toList (emptyLiterals line)

/-- A line without the contents of its literals and without its comment. -/
def plainPart (style : BlockStyle) (line : String) : String :=
  String.ofList (plainChars style line.toList)

def isNameStart (c : Char) : Bool :=
  Text.isAsciiLetter c || c == '_' || c == '$'

def isNameChar (c : Char) : Bool :=
  Text.isWordChar c || c == '$'

/-- The names in a text; `read` holds the name being read, latest character first. -/
def namesFrom (read : List Char) : List Char → List (List Char)
  | [] => if read.isEmpty then [] else [read.reverse]
  | c :: rest =>
    if read.isEmpty then namesFrom (if isNameStart c then [c] else []) rest
    else if isNameChar c then namesFrom (c :: read) rest
    else read.reverse :: namesFrom [] rest

def lineNames (style : BlockStyle) (line : List Char) : List String :=
  (namesFrom [] (plainChars style line)).map String.ofList

def identifiers (style : BlockStyle) (text : String) : List String :=
  (Text.charLines text.toList).flatMap (lineNames style)

def opensBracket (c : Char) : Bool :=
  c == '(' || c == '[' || c == Char.ofNat 0x7b

def closesBracket (c : Char) : Bool :=
  c == ')' || c == ']' || c == Char.ofNat 0x7d

def depthChange (line : List Char) : Int :=
  (line.countP opensBracket : Int) - (line.countP closesBracket : Int)

def plainDepth (style : BlockStyle) (line : String) : Int :=
  depthChange (plainChars style line.toList)

def sortNames (names : List String) : List String :=
  names.eraseDups.mergeSort Path.textLe

end SnippetRunner.Source
