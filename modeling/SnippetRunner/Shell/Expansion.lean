import SnippetRunner.Project.Glob
import SnippetRunner.Shell.Arithmetic

/-!
Expanding words. The pieces of a word become characters that remember whether they were
quoted, with marks where one field ends and the next begins; unquoted wildcards are then
replaced by the names they match. The output of commands inside a word is given beforehand,
in the order of their occurrence.
-/
namespace SnippetRunner.Shell

structure Scope where
  vars : List (String × String)
  /-- The name of the script and its parameters. -/
  parameters : List String
  status : Nat
  shell : Nat
  background : Option Nat
  site : Site

inductive ExpansionError
  | arithmetic (e : ArithmeticError) (expression : String)
  | word (e : ReadError)
  deriving DecidableEq, Repr

/-- A character of a field, a mark that a field is there, or the end of a field. -/
inductive Atom
  | char (c : Char) (quoted : Bool)
  | present
  | split
  deriving DecidableEq, Repr

namespace Scope

def parameter? (s : Scope) (name : String) : Option String :=
  match name with
  | "?" => some (toString s.status)
  | "$" => some (toString s.shell)
  | "#" => some (toString (s.parameters.length - 1))
  | "!" => s.background.map toString
  | "-" => some ""
  | "*" => some (String.intercalate " " (s.parameters.drop 1))
  | "@" => some (String.intercalate " " (s.parameters.drop 1))
  | _ =>
    match name.toList with
    | c :: _ =>
      if Text.isAsciiDigit c then
        s.parameters[Text.digitsValue (name.toList.filterMap Text.asciiDigit?)]?
      else s.vars.lookup name
    | [] => none

def number (s : Scope) (name : String) : Int :=
  match Text.parseInteger ((s.parameter? name).getD "0") with
  | .ok n => n
  | .error _ => 0

end Scope

def quotedAtoms (text : String) : List Atom :=
  .present :: text.toList.map fun c => .char c true

/-- Unquoted results are split at blanks. -/
def unquotedAtoms (text : String) : List Atom :=
  text.toList.map fun c =>
    if c == ' ' || c == '\t' || c == '\n' then .split else .char c false

def resultAtoms (inQuotes : Bool) (text : String) : List Atom :=
  if inQuotes then quotedAtoms text else unquotedAtoms text

/-- The output of a command without the ends of lines at its end. -/
def stripNewlines (text : String) : String :=
  String.ofList (Text.trimRight (· == '\n') text.toList)

def commandsOf (w : Word) : List String :=
  w.filterMap fun p => match p with
    | .command script _ => some script
    | _ => none

/-- Replaces parameters in a text that stands for an expression, and drops its quotes. -/
def expandText (s : Scope) (text : String) : Except ExpansionError String :=
  match readQuoted true 0 (text.length + 1) text.toList with
  | .error e => .error (.word e)
  | .ok (parts, _) =>
    .ok (String.join (parts.map fun p => match p with
      | .plain t => t
      | .quoted t => if t == "\"" then "" else t
      | .parameter name _ _ => (s.parameter? name).getD ""
      | .command _ _ => ""
      | .arithmetic _ _ => ""))

def trimTail (longest : Bool) (pattern text : String) : String :=
  let cs := text.toList
  let cuts := (List.range (cs.length + 1)).filter fun n =>
    Text.matchesWildcard pattern (String.ofList (cs.drop n))
  match if longest then cuts.head? else cuts.getLast? with
  | some n => String.ofList (cs.take n)
  | none => text

def trimHead (longest : Bool) (pattern text : String) : String :=
  let cs := text.toList
  let cuts := (List.range (cs.length + 1)).filter fun n =>
    Text.matchesWildcard pattern (String.ofList (cs.take n))
  match if longest then cuts.getLast? else cuts.head? with
  | some n => String.ofList (cs.drop n)
  | none => text

def parameterFields (s : Scope) : List Atom :=
  match s.parameters.drop 1 with
  | [] => []
  | first :: rest => quotedAtoms first ++ rest.flatMap fun p => .split :: quotedAtoms p

def expandParameter (s : Scope) (name : String) (use : ParameterUse) (inQuotes : Bool) :
    Except ExpansionError (List Atom) :=
  let value := s.parameter? name
  let isSet (ifEmpty : Bool) : Bool :=
    match value with
    | some v => !(ifEmpty && v == "")
    | none => false
  match use with
  | .value =>
    if name == "@" && inQuotes then .ok (parameterFields s)
    else .ok (resultAtoms inQuotes (value.getD ""))
  | .length => .ok (resultAtoms inQuotes (toString (value.getD "").length))
  | .orElse ifEmpty text =>
    if isSet ifEmpty then .ok (resultAtoms inQuotes (value.getD ""))
    else (expandText s text).map (resultAtoms inQuotes)
  | .andThen ifEmpty text =>
    if isSet ifEmpty then (expandText s text).map (resultAtoms inQuotes)
    else .ok (resultAtoms inQuotes "")
  | .withoutTail longest pattern => do
    return resultAtoms inQuotes (trimTail longest (← expandText s pattern) (value.getD ""))
  | .withoutHead longest pattern => do
    return resultAtoms inQuotes (trimHead longest (← expandText s pattern) (value.getD ""))

def expandParts (s : Scope) : Word → List String →
    Except ExpansionError (List Atom × List String)
  | [], outputs => .ok ([], outputs)
  | part :: rest, outputs => do
    let (here, outputs) ← match part with
      | .plain text => pure (text.toList.map (Atom.char · false), outputs)
      | .quoted text => pure (quotedAtoms text, outputs)
      | .parameter name use inQuotes => do
        pure (← expandParameter s name use inQuotes, outputs)
      | .command _ inQuotes =>
        match outputs with
        | out :: more => pure (resultAtoms inQuotes (stripNewlines out), more)
        | [] => pure ([], [])
      | .arithmetic expression inQuotes => do
        let text ← expandText s expression
        match calculate s.number text with
        | .ok n => pure (resultAtoms inQuotes (toString n), outputs)
        | .error e => throw (.arithmetic e expression)
    let (more, outputs) ← expandParts s rest outputs
    return (here ++ more, outputs)

/-- A field being read: its characters with their quoting, if it is there at all. -/
def fieldsOf (current : Option (List (Char × Bool))) : List Atom → List (List (Char × Bool))
  | [] => current.toList.map List.reverse
  | .split :: rest => current.toList.map List.reverse ++ fieldsOf none rest
  | .present :: rest => fieldsOf (some (current.getD [])) rest
  | .char c quoted :: rest => fieldsOf (some ((c, quoted) :: current.getD [])) rest

def isWild (field : List (Char × Bool)) : Bool :=
  field.any fun p => !p.2 && (p.1 == '*' || p.1 == '?' || p.1 == '[')

/-- The field as a pattern, in which quoted marks stand for themselves. -/
def patternOf (field : List (Char × Bool)) : String :=
  String.ofList (field.flatMap fun p =>
    if p.2 && (p.1 == '*' || p.1 == '?' || p.1 == '[') then ['[', p.1, ']'] else [p.1])

def fieldText (field : List (Char × Bool)) : String :=
  String.ofList (field.map (·.1))

def hiddenFrom (pattern name : String) : Bool :=
  name.startsWith "." && !pattern.startsWith "."

def matchPaths (s : Site) (written : String) (directory : Path) :
    List String → List String
  | [] => [written]
  | pattern :: rest =>
    let names :=
      if Text.hasWildcard pattern then
        match s.listNames directory with
        | .ok names =>
          (names.filter fun n => Text.matchesWildcard pattern n && !hiddenFrom pattern n).mergeSort
            Path.textLe
        | .error _ => []
      else
        match s.tree.walk s.cwd false (directory.entry pattern) with
        | .ok (.existing _ _) => [pattern]
        | _ => []
    names.flatMap fun n =>
      matchPaths s (if written == "" || written == "/" then written ++ n else written ++ "/" ++ n)
        (directory.entry n) rest

/-- A field with its wildcards replaced; one that matches nothing stays as it is. -/
def globField (s : Site) (field : List (Char × Bool)) : List String :=
  if isWild field then
    let pattern := patternOf field
    let p := Path.ofString pattern
    let base := if p.isAbsolute then "/" else ""
    match matchPaths s base ⟨p.anchor, []⟩ p.parts with
    | [] => [fieldText field]
    | found => found
  else [fieldText field]

def expandWord (s : Scope) (w : Word) (outputs : List String) :
    Except ExpansionError (List String × List String) := do
  let (atoms, outputs) ← expandParts s w outputs
  return ((fieldsOf none atoms).flatMap (globField s.site), outputs)

/-- The single text that a word expands to where no splitting takes place. -/
def expandSingle (s : Scope) (w : Word) (outputs : List String) :
    Except ExpansionError (String × List String) := do
  let (atoms, outputs) ← expandParts s w outputs
  let chars := atoms.filterMap fun a => match a with
    | .char c _ => some c
    | .present => none
    | .split => some ' '
  return (String.ofList chars, outputs)

def expandWords (s : Scope) : List Word → List String →
    Except ExpansionError (List String × List String)
  | [], outputs => .ok ([], outputs)
  | w :: rest, outputs => do
    let (here, outputs) ← expandWord s w outputs
    let (more, outputs) ← expandWords s rest outputs
    return (here ++ more, outputs)

end SnippetRunner.Shell
