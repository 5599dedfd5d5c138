import SnippetRunner.Text.Numeral
import SnippetRunner.Text.Quoted

/-!
The words of a command line. A word that begins with a dash names an option, in full or by a
beginning that fits only one, perhaps with a value after an equals sign; a negative number or
a word with a blank in it is plain. After two dashes all words are plain.
-/
namespace SnippetRunner.CommandLine

inductive OptionRole
  | help
  | stdio
  | host
  | port
  | filetype
  | level
  deriving DecidableEq, Repr

structure OptionSpec where
  role : OptionRole
  names : List String
  takesValue : Bool
  deriving DecidableEq, Repr

structure Grammar where
  program : String
  usage : String
  /-- What is shown after the usage when help is asked for. -/
  details : String
  options : List OptionSpec
  deriving DecidableEq, Repr

inductive Word
  | plain (text : String)
  | dashes
  | unknown (text : String)
  | option (name : String) (spec : OptionSpec) (value : Option String)
  deriving DecidableEq, Repr

namespace OptionSpec

def title (o : OptionSpec) : String := String.intercalate "/" o.names

end OptionSpec

namespace Grammar

def named (g : Grammar) : List (String × OptionSpec) :=
  g.options.flatMap fun o => o.names.map fun name => (name, o)

end Grammar

def cutValue (text : String) : String × Option String :=
  let cs := text.toList
  let name := String.ofList (cs.takeWhile (· != '='))
  match cs.dropWhile (· != '=') with
  | [] => (name, none)
  | _ :: value => (name, some (String.ofList value))

def isDigits (cs : List Char) : Bool :=
  !cs.isEmpty && cs.all fun c => (Text.decimalDigit? c).isSome

def isNegativeNumber (text : String) : Bool :=
  match text.toList with
  | '-' :: cs =>
    let whole := cs.takeWhile (· != '.')
    match cs.dropWhile (· != '.') with
    | [] => isDigits whole
    | _ :: fraction => (whole.isEmpty || isDigits whole) && isDigits fraction
  | _ => false

namespace Grammar

/-- The options that a word may stand for, each with the value attached to it. -/
def candidates (g : Grammar) (text : String) : List (String × OptionSpec × Option String) :=
  if text.startsWith "--" then
    let (name, value) := cutValue text
    (g.named.filter fun o => o.1.startsWith name).map fun o => (o.1, o.2, value)
  else
    let short := String.ofList (text.toList.take 2)
    g.named.filterMap fun o =>
      if o.1 == short then some (o.1, o.2, some (String.ofList (text.toList.drop 2)))
      else if o.1.startsWith text then some (o.1, o.2, none)
      else none

def ambiguous (text : String) (names : List String) : String :=
  s!"ambiguous option: {text} could match " ++ String.intercalate ", " names

def classifyDashed (g : Grammar) (text : String) : Except String Word :=
  match g.candidates text with
  | [(name, spec, value)] => .ok (.option name spec value)
  | [] =>
    .ok (if isNegativeNumber text || text.toList.contains ' ' then .plain text else .unknown text)
  | several => .error (ambiguous text (several.map (·.1)))

/-- How a word is meant; two dashes are not seen to here. -/
def classify (g : Grammar) (text : String) : Except String Word :=
  if !text.startsWith "-" || text == "-" then .ok (.plain text)
  else
    match g.named.lookup text with
    | some spec => .ok (.option text spec none)
    | none =>
      match cutValue text with
      | (name, some value) =>
        match g.named.lookup name with
        | some spec => .ok (.option name spec (some value))
        | none => g.classifyDashed text
      | (_, none) => g.classifyDashed text

def words (g : Grammar) : List String → Except String (List Word)
  | [] => .ok []
  | text :: rest => do
    if text == "--" then return .dashes :: rest.map .plain
    else return (← g.classify text) :: (← g.words rest)

end Grammar

end SnippetRunner.CommandLine
