import SnippetRunner.Message.Fault
import SnippetRunner.Text.Numeral

/-!
Reading the fields of a message. Texts must be texts. Whole numbers may also be given as
truth values, as numbers without a fraction, or as numerals, which may have zeros after a
point and single underscores between digits.
-/
namespace SnippetRunner.Message

abbrev Reading (α : Type) := Json → Except FaultKind α

abbrev Members := List (String × Json)

def readText : Reading String
  | .str s => .ok s
  | _ => .error .text

def orNull {α : Type} (read : Reading α) : Reading (Option α)
  | .null => .ok none
  | v => (read v).map some

/-- A numeral without the zeros after its point; none when something else is there. -/
def dropZeroFraction (cs : List Char) : Option (List Char) :=
  match cs.dropWhile (· != '.') with
  | [] => some cs
  | _ :: zeros =>
    if zeros.isEmpty || zeros.any (· != '0') then none else some (cs.takeWhile (· != '.'))

def wholeOfText (s : String) : Except FaultKind Int :=
  let trimmed := Text.trim Text.isWhiteSpace s.toList
  let (negative, body) := match trimmed with
    | '-' :: rest => (true, rest)
    | '+' :: rest => (false, rest)
    | rest => (false, rest)
  if s.length > Text.maxNumeralDigits then .error .wholeSize
  else
    match (dropZeroFraction body).bind (Text.groupedDigits false) with
    | none => .error .wholeText
    | some digits =>
      let n : Int := Text.digitsValue digits
      .ok (if negative then -n else n)

/-- Numbers with a fraction part of zero are taken up to the size of a machine word. -/
def wholeOfFloat (x : Binary64) : Except FaultKind Int :=
  match x with
  | .finite .. =>
    match x.whole? with
    | none => .error .wholeFraction
    | some n => if n.natAbs < Nat.pow 2 63 then .ok n else .error .wholeSize
  | _ => .error .finite

def readWhole : Reading Int
  | .int n => .ok n
  | .bool b => .ok (if b then 1 else 0)
  | .float x => wholeOfFloat x
  | .str s => wholeOfText s
  | _ => .error .whole

def readAtLeast (bound : Int) : Reading Int := fun v => do
  let n ← readWhole v
  if n < bound then throw (.atLeast bound) else return n

def yesWords : List String := ["1", "on", "t", "true", "y", "yes"]

def noWords : List String := ["0", "off", "f", "false", "n", "no"]

def truthOfWhole (n : Int) : Except FaultKind Bool :=
  if n == 0 then .ok false else if n == 1 then .ok true else .error .truthText

def readTruth : Reading Bool
  | .bool b => .ok b
  | .int n => truthOfWhole n
  | .float x =>
    match x.whole? with
    | some n => truthOfWhole n
    | none => .error .truthText
  | .str s =>
    let word := String.ofList (s.toList.map Char.toLower)
    if yesWords.contains word then .ok true
    else if noWords.contains word then .ok false
    else .error .truthText
  | _ => .error .truth

abbrev Checked (α : Type) := Except (List Fault) α

def at_ {α : Type} (name : String) (r : Except FaultKind α) : Checked α :=
  r.mapError fun kind => [⟨[.name name], kind⟩]

def required {α : Type} (ms : Members) (name : String) (read : Reading α) : Checked α :=
  match ms.lookup name with
  | none => at_ name (.error .missing)
  | some v => at_ name (read v)

def defaulted {α : Type} (ms : Members) (name : String) (default_ : α) (read : Reading α) :
    Checked α :=
  match ms.lookup name with
  | none => .ok default_
  | some v => at_ name (read v)

def faultsOf {α : Type} : Checked α → List Fault
  | .ok _ => []
  | .error faults => faults

end SnippetRunner.Message
