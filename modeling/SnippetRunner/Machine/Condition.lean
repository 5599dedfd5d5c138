import SnippetRunner.Machine.Child

/-!
Conditions of the shell: questions about texts, numbers and files, with negation and the two
connectives.
-/
namespace SnippetRunner.Machine

def textNumber? (s : String) : Option Int :=
  match Text.parseInteger s with
  | .ok n => some n
  | .error _ => none

def fileTest (s : Site) (mark arg : String) : Option Bool :=
  let p := Path.ofString arg
  let entry : Option Entry := match s.tree.stat s.cwd p with
    | .ok (_, entry) => some entry
    | .error _ => none
  let there := entry.isSome && arg != ""
  match mark with
  | "-e" => some there
  | "-r" => some there
  | "-w" => some there
  | "-f" => some (there && match entry with
      | some (.file _ _) => true
      | _ => false)
  | "-d" => some (there && entry == some .directory)
  | "-x" => some (there && match entry with
      | some (.file _ executable) => executable
      | some .directory => true
      | _ => false)
  | "-s" => some (there && match entry with
      | some (.file octets _) => !octets.isEmpty
      | some .directory => true
      | _ => false)
  | "-L" => some (match s.tree.walk s.cwd false p with
      | .ok (.existing _ (.link _)) => true
      | _ => false)
  | "-h" => some (match s.tree.walk s.cwd false p with
      | .ok (.existing _ (.link _)) => true
      | _ => false)
  | "-n" => some (arg != "")
  | "-z" => some (arg == "")
  | "-t" => some false
  | _ => none

def compareTexts (mark a b : String) : Option Bool :=
  let numbers (f : Int → Int → Bool) : Option Bool := do
    return f (← textNumber? a) (← textNumber? b)
  match mark with
  | "=" => some (a == b)
  | "==" => some (a == b)
  | "!=" => some (a != b)
  | "<" => some (!Path.textLe b a)
  | ">" => some (!Path.textLe a b)
  | "-eq" => numbers (· == ·)
  | "-ne" => numbers (· != ·)
  | "-lt" => numbers fun a b => decide (a < b)
  | "-le" => numbers fun a b => decide (a ≤ b)
  | "-gt" => numbers fun a b => decide (b < a)
  | "-ge" => numbers fun a b => decide (b ≤ a)
  | _ => none

/-- Whether a condition without connectives holds; `none` when it is malformed. -/
def simpleCondition (s : Site) : List String → Option Bool
  | [] => some false
  | [a] => some (a != "")
  | ["!", a] => some (a == "")
  | [mark, a] => fileTest s mark a
  | ["!", mark, a] => (fileTest s mark a).map not
  | [a, mark, b] => compareTexts mark a b
  | ["!", a, mark, b] => (compareTexts mark a b).map not
  | _ => none

def splitAtWord (word : String) (args : List String) : Option (List String × List String) :=
  if args.contains word && args.length > 3 then
    some (args.takeWhile (· != word), (args.dropWhile (· != word)).drop 1)
  else none

def condition (s : Site) : Nat → List String → Option Bool
  | 0, _ => none
  | fuel + 1, args =>
    match splitAtWord "-o" args with
    | some (a, b) => do
      let x ← condition s fuel a
      let y ← condition s fuel b
      return x || y
    | none =>
      match splitAtWord "-a" args with
      | some (a, b) => do
        let x ← condition s fuel a
        let y ← condition s fuel b
        return x && y
      | none => simpleCondition s args

end SnippetRunner.Machine
