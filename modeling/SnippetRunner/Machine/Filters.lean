import SnippetRunner.Machine.BasicPattern
import SnippetRunner.Machine.Child

/-!
Programs that turn a whole input into an output: counting, editing, sorting and searching by
lines.
-/
namespace SnippetRunner.Machine

open Text (decodeUtf8 encodeUtf8)

def inputLines (octets : List UInt8) : List String :=
  let pieces := Text.splitAt '\n' (decodeUtf8 octets)
  match pieces.reverse with
  | "" :: rest => rest.reverse
  | _ => pieces

def withEnds (lines : List String) : String :=
  String.join (lines.map (· ++ "\n"))

def isWordOctet (b : UInt8) : Bool :=
  !(b == 32 || (9 ≤ b && b ≤ 13))

def countWords (inWord : Bool) : List UInt8 → Nat
  | [] => 0
  | b :: rest =>
    if isWordOctet b then (if inWord then 0 else 1) + countWords true rest
    else countWords false rest

def padLeft (width : Nat) (s : String) : String :=
  String.ofList (List.replicate (width - s.length) ' ') ++ s

def countsOf (lines words octets : Bool) (input : List UInt8) : List Nat :=
  (if lines then [input.count 10] else []) ++
  (if words then [countWords false input] else []) ++
  (if octets then [input.length] else [])

def countLine (lines words octets : Bool) (input : List UInt8) : String :=
  match countsOf lines words octets input with
  | [only] => toString only
  | counts => String.intercalate " " (counts.map fun n => padLeft 7 (toString n))

/-- An editing command: lines that it concerns, and what is done with them. -/
inductive Edit
  | substitute (pattern replacement : String) (everywhere printed : Bool)
  | delete
  | print
  | quit
  deriving Repr

inductive Address
  | every
  | line (n : Nat)
  | last
  | lines (first : Nat) (last : Option Nat)
  | matching (pattern : String)
  deriving Repr

/-- The text up to a delimiter, which a backslash makes ordinary. -/
def takeDelimited (delimiter : Char) : List Char → Option (List Char × List Char)
  | [] => none
  | '\\' :: c :: rest =>
    (takeDelimited delimiter rest).map fun r =>
      (if c == delimiter then c :: r.1 else '\\' :: c :: r.1, r.2)
  | c :: rest =>
    if c == delimiter then some ([], rest)
    else (takeDelimited delimiter rest).map fun r => (c :: r.1, r.2)

def takeNumber (cs : List Char) : Option Nat × List Char :=
  match cs.takeWhile Text.isAsciiDigit with
  | [] => (none, cs)
  | ds => (some (Text.digitsValue (ds.filterMap Text.asciiDigit?)), cs.dropWhile Text.isAsciiDigit)

def readAddress (cs : List Char) : Address × List Char :=
  match cs with
  | '$' :: rest => (.last, rest)
  | '/' :: rest =>
    match takeDelimited '/' rest with
    | some (p, after) => (.matching (String.ofList p), after)
    | none => (.every, cs)
  | _ =>
    match takeNumber cs with
    | (some a, ',' :: '$' :: rest) => (.lines a none, rest)
    | (some a, ',' :: rest) =>
      match takeNumber rest with
      | (some b, after) => (.lines a (some b), after)
      | (none, _) => (.line a, ',' :: rest)
    | (some a, rest) => (.line a, rest)
    | (none, rest) => (.every, rest)

def readEdit (cs : List Char) : Option ((Address × Edit) × List Char) :=
  let (address, rest) := readAddress cs
  match rest with
  | 's' :: delimiter :: more => do
    let (pattern, more) ← takeDelimited delimiter more
    let (replacement, more) ← takeDelimited delimiter more
    let flags := more.takeWhile fun c => c == 'g' || c == 'p'
    return ((address, .substitute (String.ofList pattern) (String.ofList replacement)
      (flags.contains 'g') (flags.contains 'p')), more.drop flags.length)
  | 'd' :: more => some ((address, .delete), more)
  | 'p' :: more => some ((address, .print), more)
  | 'q' :: more => some ((address, .quit), more)
  | _ => none

def readEdits : Nat → List Char → Option (List (Address × Edit))
  | 0, _ => none
  | fuel + 1, cs =>
    match cs.dropWhile fun c => c == ' ' || c == ';' || c == '\n' with
    | [] => some []
    | rest =>
      match readEdit rest with
      | some (e, after) => (readEdits fuel after).map (e :: ·)
      | none => none

def concerns (a : Address) (number total : Nat) (line : List Char) : Bool :=
  match a with
  | .every => true
  | .line n => n == number
  | .last => number == total
  | .lines first last => first ≤ number && (last.map fun l => decide (number ≤ l)).getD true
  | .matching p => (findMatch (patternItems p) true line).isSome

/-- The lines written for one line, whether it is still printed, and whether to stop. -/
def editLine (number total : Nat) :
    List (Address × Edit) → List Char → List (List Char) × Option (List Char) × Bool
  | [], line => ([], some line, false)
  | (a, e) :: rest, line =>
    if concerns a number total line then
      match e with
      | .delete => ([], none, false)
      | .quit => ([], some line, true)
      | .print =>
        let (out, kept, stop) := editLine number total rest line
        (line :: out, kept, stop)
      | .substitute p r everywhere printed =>
        match replaceMatches (patternItems p) r.toList everywhere (line.length + 2) true line with
        | none => editLine number total rest line
        | some line =>
          let (out, kept, stop) := editLine number total rest line
          (if printed then line :: out else out, kept, stop)
    else editLine number total rest line

def editLines (edits : List (Address × Edit)) (quiet : Bool) (total : Nat) :
    Nat → List String → List String
  | _, [] => []
  | number, line :: rest =>
    let (out, kept, stop) := editLine number total edits line.toList
    let here := out ++ (if quiet then [] else kept.toList)
    here.map String.ofList ++ (if stop then [] else editLines edits quiet total (number + 1) rest)

def dropRepeats : Option String → List String → List String
  | _, [] => []
  | before, line :: rest =>
    if before == some line then dropRepeats before rest else line :: dropRepeats (some line) rest

def numberAt (line : String) : Int :=
  let cs := line.toList.dropWhile (· == ' ')
  let (negative, digits) := match cs with
    | '-' :: rest => (true, rest)
    | _ => (false, cs)
  let n : Int := ((takeNumber digits).1.getD 0 : Nat)
  if negative then -n else n

def sortLines (reverse unique numeric : Bool) (lines : List String) : List String :=
  let le (a b : String) : Bool :=
    if numeric && numberAt a != numberAt b then numberAt a ≤ numberAt b else Path.textLe a b
  let sorted := lines.mergeSort (if reverse then fun a b => le b a else le)
  if unique then dropRepeats none sorted else sorted

def keepLast {α : Type} (n : Nat) (items : List α) : List α :=
  items.drop (items.length - n)

def applyFilter (f : Filter) (input : List UInt8) : List UInt8 × Nat :=
  let text (lines : List String) : List UInt8 := encodeUtf8 (withEnds lines)
  match f with
  | .count lines words octets => (encodeUtf8 (countLine lines words octets input ++ "\n"), 0)
  | .edit script quiet =>
    match readEdits (script.length + 1) script.toList with
    | none => ([], 1)
    | some edits =>
      let lines := inputLines input
      let edited := text (editLines edits quiet lines.length 1 lines)
      (if input.getLast? == some 10 then edited else edited.dropLast, 0)
  | .sort reverse unique numeric => (text (sortLines reverse unique numeric (inputLines input)), 0)
  | .unique => (text (dropRepeats none (inputLines input)), 0)
  | .lastLines n =>
    let lines := inputLines input
    let kept := keepLast n lines
    let out := text kept
    (if input.getLast? == some 10 || kept.isEmpty then out else out.dropLast, 0)
  | .lastOctets n => (keepLast n input, 0)
  | .reverseLines => (text (inputLines input).reverse, 0)
  | .search pattern inverted counted =>
    let items := patternItems pattern
    let found := (inputLines input).filter fun l =>
      (findMatch items true l.toList).isSome != inverted
    (if counted then encodeUtf8 (toString found.length ++ "\n") else text found,
      if found.isEmpty then 1 else 0)
  | .script => ([], 0)

end SnippetRunner.Machine
