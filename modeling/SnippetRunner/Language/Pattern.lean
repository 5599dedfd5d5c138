import SnippetRunner.Text.Blank
import SnippetRunner.Text.Letter

/-!
Patterns for the head of a line. A pattern describes a way of reading characters from the
start of a line, and may give a part of what it reads a name. Repetition prefers more and
choice prefers the first option; the ways of reading are listed in order of preference and
the first of them counts.
-/
namespace SnippetRunner

inductive SetItem
  | single (c : Char)
  | range (low high : Char)
  | word
  | blank
  deriving DecidableEq, Repr

structure CharSet where
  negated : Bool
  items : List SetItem
  deriving DecidableEq, Repr

inductive Pattern
  | start
  | boundary
  | text (word : String)
  | one (set : CharSet)
  | many (set : CharSet) (atLeastOne : Bool)
  | seq (first second : Pattern)
  | alt (first second : Pattern)
  | optional (body : Pattern)
  | repeated (body : Pattern)
  | name (body : Pattern)
  | notNext (body : Pattern)
  deriving DecidableEq, Repr

def SetItem.holds (c : Char) : SetItem → Bool
  | .single x => c == x
  | .range low high => low ≤ c && c ≤ high
  | .word => Text.isWordChar c
  | .blank => Text.isBlank c

def CharSet.holds (k : CharSet) (c : Char) : Bool :=
  k.items.any (·.holds c) != k.negated

/-- A place in a line: the character before it, what follows, and the named part. -/
structure Reading where
  prev : Option Char
  rest : List Char
  named : Option (List Char)
  deriving DecidableEq, Repr

namespace Reading

def atStart (line : List Char) : Reading := ⟨none, line, none⟩

def atBoundary (r : Reading) : Bool :=
  let before := match r.prev with
    | some c => Text.isWordChar c
    | none => false
  let after := match r.rest with
    | c :: _ => Text.isWordChar c
    | [] => false
  before != after

def spans (k : CharSet) (named : Option (List Char)) :
    Option Char → List Char → List Reading
  | prev, [] => [⟨prev, [], named⟩]
  | prev, c :: rest =>
    ⟨prev, c :: rest, named⟩ :: (if k.holds c then spans k named (some c) rest else [])

def skipWord : List Char → Reading → Option Reading
  | [], r => some r
  | w :: ws, r =>
    match r.rest with
    | c :: rest => if c == w then skipWord ws ⟨some c, rest, r.named⟩ else none
    | [] => none

end Reading

namespace Pattern

/-- The ways of reading from a place, most preferred first. -/
def readings : Pattern → Reading → List Reading
  | .start, r => if r.prev.isNone then [r] else []
  | .boundary, r => if r.atBoundary then [r] else []
  | .text word, r => (Reading.skipWord word.toList r).toList
  | .one k, r =>
    match r.rest with
    | c :: rest => if k.holds c then [⟨some c, rest, r.named⟩] else []
    | [] => []
  | .many k atLeastOne, r =>
    let spans := Reading.spans k r.named r.prev r.rest
    (if atLeastOne then spans.drop 1 else spans).reverse
  | .seq p q, r => (p.readings r).flatMap q.readings
  | .alt p q, r => p.readings r ++ q.readings r
  | .optional p, r => p.readings r ++ [r]
  | .repeated p, r => iterate (p.readings ·) r.rest.length r
  | .name p, r =>
    (p.readings r).map fun r' =>
      ⟨r'.prev, r'.rest, some (r.rest.take (r.rest.length - r'.rest.length))⟩
  | .notNext p, r => if (p.readings r).isEmpty then [r] else []
where
  /-- Repetition while each round reads something. -/
  iterate (body : Reading → List Reading) : Nat → Reading → List Reading
    | 0, r => [r]
    | fuel + 1, r =>
      ((body r).filter fun r' => r'.rest.length < r.rest.length).flatMap (iterate body fuel) ++ [r]

def read? (p : Pattern) (line : String) : Option Reading :=
  (p.readings (.atStart line.toList)).head?

def matches_ (p : Pattern) (line : String) : Bool :=
  (p.read? line).isSome

def name? (p : Pattern) (line : String) : Option String := do
  let r ← p.read? line
  return String.ofList (← r.named)

def specialChars : List Char :=
  ['.', '^', '$', '*', '+', '?', '\x7b', '\x7d', '[', ']', '\\', '|', '(', ')']

def escapeChar (c : Char) : List Char :=
  if specialChars.contains c then ['\\', c] else [c]

def itemText : SetItem → String
  | .single c => c.toString
  | .range low high => s!"{low}-{high}"
  | .word => "\\w"
  | .blank => "\\s"

def setText (k : CharSet) : String :=
  match k.negated, k.items with
  | false, [.word] => "\\w"
  | false, [.blank] => "\\s"
  | negated, items =>
    "[" ++ (if negated then "^" else "") ++ String.join (items.map itemText) ++ "]"

/-- A single character or a set needs no brackets before a repetition mark. -/
def isUnit : Pattern → Bool
  | .text word => word.length == 1
  | .one _ => true
  | .alt _ _ => true
  | _ => false

/-- A pattern in the usual notation for regular expressions. Choices within a choice share
one pair of brackets. -/
def notated (inChoice : Bool) : Pattern → String
  | .start => "^"
  | .boundary => "\\b"
  | .text word => String.ofList (word.toList.flatMap escapeChar)
  | .one k => setText k
  | .many k atLeastOne => setText k ++ (if atLeastOne then "+" else "*")
  | .seq p q => notated false p ++ notated false q
  | .alt p q =>
    let choices := notated true p ++ "|" ++ notated true q
    if inChoice then choices else "(?:" ++ choices ++ ")"
  | .optional p =>
    (if isUnit p then notated false p else "(?:" ++ notated false p ++ ")") ++ "?"
  | .repeated p =>
    (if isUnit p then notated false p else "(?:" ++ notated false p ++ ")") ++ "*"
  | .name p => "(?P<name>" ++ notated false p ++ ")"
  | .notNext p => "(?!" ++ notated false p ++ ")"

def source (p : Pattern) : String :=
  notated false p

def words (first : String) (others : List String) : Pattern :=
  match others with
  | [] => .text first
  | second :: rest => .alt (.text first) (words second rest)

def sequence : List Pattern → Pattern
  | [] => .text ""
  | [p] => p
  | p :: q :: rest => .seq p (sequence (q :: rest))

def blanks : Pattern := .many ⟨false, [.blank]⟩ false

def someBlanks : Pattern := .many ⟨false, [.blank]⟩ true

end Pattern

end SnippetRunner
