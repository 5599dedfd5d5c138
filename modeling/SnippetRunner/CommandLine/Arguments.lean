import SnippetRunner.CommandLine.Word
import SnippetRunner.Language.Level

/-!
The commands of the program and how their arguments are read. Words are read from left to
right, and the first one that cannot be is what is complained about; then whatever is missing,
and last whatever was not needed.
-/
namespace SnippetRunner.CommandLine

structure ServeOptions where
  stdio : Bool := false
  host : Option String := none
  port : Option Int := none
  deriving DecidableEq, Repr

structure RunOptions where
  file : String
  first : Int
  last : Int
  filetype : Option String := none
  level : Option Level := none
  deriving DecidableEq, Repr

inductive Command
  | serve (options : ServeOptions)
  | run (options : RunOptions)
  deriving DecidableEq, Repr

/-- Why there is no command: help was asked for, or the arguments make none. -/
inductive Refusal
  | help (g : Grammar)
  | misuse (g : Grammar) (message : String)
  deriving DecidableEq, Repr

namespace Refusal

def output : Refusal → String
  | .help g => g.usage ++ g.details
  | .misuse _ _ => ""

def complaint : Refusal → String
  | .help _ => ""
  | .misuse g message => s!"{g.usage}{g.program}: error: {message}\n"

def exitCode : Refusal → Int
  | .help _ => 0
  | .misuse _ _ => 2

end Refusal

def helpOption : OptionSpec := ⟨.help, ["-h", "--help"], false⟩

def mainGrammar : Grammar where
  program := "snipexec"
  usage := "usage: snipexec [-h] \x7bserve,run\x7d ...\n"
  details :=
    "\nRun fragments of source files.\n\npositional arguments:\n" ++
    "  \x7bserve,run\x7d\n" ++
    "    serve      start the backend\n" ++
    "    run        run a line range once and print the output\n" ++
    "\noptions:\n  -h, --help   show this help message and exit\n"
  options := [helpOption]

def serveGrammar : Grammar where
  program := "snipexec serve"
  usage := "usage: snipexec serve [-h] [--stdio] [--host HOST] [--port PORT]\n"
  details :=
    "\noptions:\n" ++
    "  -h, --help   show this help message and exit\n" ++
    "  --stdio      read notifications from stdin\n" ++
    "  --host HOST\n  --port PORT\n"
  options := [helpOption, ⟨.stdio, ["--stdio"], false⟩, ⟨.host, ["--host"], true⟩,
    ⟨.port, ["--port"], true⟩]

def levelChoices : List (String × Level) :=
  (Level.all.filter (· != .unsupported)).map fun l => (Text.lower l.name, l)

def levelList : String := String.intercalate "," (levelChoices.map (·.1))

def runGrammar : Grammar where
  program := "snipexec run"
  usage :=
    "usage: snipexec run [-h] [--filetype FILETYPE]\n" ++
    "                    [--level \x7b" ++ levelList ++ "\x7d]\n" ++
    "                    file first_line last_line\n"
  details :=
    "\npositional arguments:\n  file\n  first_line\n  last_line\n" ++
    "\noptions:\n" ++
    "  -h, --help            show this help message and exit\n" ++
    "  --filetype FILETYPE\n" ++
    "  --level \x7b" ++ levelList ++ "\x7d\n" ++
    "                        cap the support level, e.g. bloc\n"
  options := [helpOption, ⟨.filetype, ["--filetype"], true⟩, ⟨.level, ["--level"], true⟩]

inductive Slot
  | file
  | first
  | last
  deriving DecidableEq, Repr

def Slot.title : Slot → String
  | .file => "file"
  | .first => "first_line"
  | .last => "last_line"

structure Draft where
  serve : ServeOptions := {}
  run : RunOptions := ⟨"", 0, 0, none, none⟩
  /-- The places that are still empty. -/
  slots : List Slot := []
  surplus : List String := []
  deriving DecidableEq, Repr

def argumentFault (title fault : String) : String := s!"argument {title}: {fault}"

def readNumber (title value : String) : Except String Int :=
  (Text.parseInteger value).mapError fun _ =>
    argumentFault title s!"invalid int value: {Text.quote value}"

def choiceFault (title value : String) (choices : List String) : String :=
  argumentFault title s!"invalid choice: {Text.quote value} (choose from " ++
    String.intercalate ", " (choices.map Text.quote) ++ ")"

def readLevel (title value : String) : Except String Level :=
  let name := Text.lower value
  match levelChoices.lookup name with
  | some l => .ok l
  | none => .error (choiceFault title name (levelChoices.map (·.1)))

namespace Draft

def fillSlot (d : Draft) (slot : Slot) (value : String) : Except String Draft :=
  match slot with
  | .file => .ok { d with run := { d.run with file := value } }
  | .first => do return { d with run := { d.run with first := ← readNumber slot.title value } }
  | .last => do return { d with run := { d.run with last := ← readNumber slot.title value } }

def setOption (d : Draft) (o : OptionSpec) (value : String) : Except String Draft :=
  match o.role with
  | .help => .ok d
  | .stdio => .ok { d with serve := { d.serve with stdio := true } }
  | .host => .ok { d with serve := { d.serve with host := some value } }
  | .port => do
    return { d with serve := { d.serve with port := some (← readNumber o.title value) } }
  | .filetype => .ok { d with run := { d.run with filetype := some value } }
  | .level => do
    return { d with run := { d.run with level := some (← readLevel o.title value) } }

end Draft

def isDashes : Word → Bool
  | .dashes => true
  | _ => false

/-- The first plain word; two dashes beside it do not count. -/
def takePlain? (words : List Word) : Option (String × List Word) :=
  match words.dropWhile isDashes with
  | .plain text :: rest => some (text, rest.dropWhile isDashes)
  | _ => none

/-- Fills empty places with plain words, as long as there are both. -/
def fillSlots (d : Draft) : List Slot → List Word → Except String (Draft × List Word)
  | [], words => .ok ({ d with slots := [] }, words)
  | slot :: slots, words =>
    match takePlain? words with
    | none => .ok ({ d with slots := slot :: slots }, words)
    | some (text, rest) => do
      let d ← d.fillSlot slot text
      fillSlots d slots rest

/-- An option without a value, to which something is attached: further letters may name
further options. -/
def readAttached (g : Grammar) (name : String) (o : OptionSpec) : List Char → Except Refusal Unit
  | [] => .ok ()
  | c :: rest =>
    let attached := Text.quote (String.ofList (c :: rest))
    let fault : Refusal :=
      .misuse g (argumentFault o.title s!"ignored explicit argument {attached}")
    if name.startsWith "--" then .error fault
    else
      match g.named.lookup (String.ofList ['-', c]) with
      | some o => readAttached g (String.ofList ['-', c]) o rest
      | none => .error fault

def readOption (g : Grammar) (d : Draft) (name : String) (o : OptionSpec)
    (value : Option String) (rest : List Word) : Except Refusal (Draft × List Word) := do
  let set (value : String) : Except Refusal Draft :=
    (d.setOption o value).mapError (Refusal.misuse g)
  if o.takesValue then
    match value, rest with
    | some value, rest => return (← set value, rest)
    | none, .plain value :: rest => return (← set value, rest)
    | none, _ => throw (.misuse g (argumentFault o.title "expected one argument"))
  else
    match value with
    | some value =>
      if value == "" then
        throw (.misuse g (argumentFault o.title "ignored explicit argument ''"))
      readAttached g name o value.toList
    | none => pure ()
    if o.role == .help then throw (.help g) else return (← set "", rest)

def Word.isOption : Word → Bool
  | .option _ _ _ => true
  | .unknown _ => true
  | _ => false

def Word.text : Word → String
  | .plain text => text
  | .unknown text => text
  | .dashes => "--"
  | .option name _ _ => name

def readWords (g : Grammar) : Nat → Draft → List Word → Except Refusal Draft
  | 0, d, _ => .ok d
  | _, d, [] => .ok d
  | rounds + 1, d, .option name o value :: rest => do
    let (d, rest) ← readOption g d name o value rest
    readWords g rounds d rest
  | rounds + 1, d, .unknown text :: rest =>
    readWords g rounds { d with surplus := d.surplus ++ [text] } rest
  | rounds + 1, d, words => do
    let (d, rest) ← (fillSlots d d.slots words).mapError (Refusal.misuse g)
    if rest.length < words.length then readWords g rounds d rest
    else
      let (plain, rest) := words.span fun w => !w.isOption
      readWords g rounds { d with surplus := d.surplus ++ plain.map Word.text } rest

def missing (titles : List String) : String :=
  "the following arguments are required: " ++ String.intercalate ", " titles

def readArguments (g : Grammar) (d : Draft) (args : List String) : Except Refusal Draft := do
  let words ← (g.words args).mapError (Refusal.misuse g)
  let d ← readWords g (words.length + 1) d words
  if d.slots.isEmpty then return d
  else throw (.misuse g (missing (d.slots.map Slot.title)))

def commandNames : List String := ["serve", "run"]

def readNamed (name : String) (args : List String) : Except Refusal (Command × List String) := do
  if name == "serve" then
    let d ← readArguments serveGrammar {} args
    return (.serve d.serve, d.surplus)
  else if name == "run" then
    let d ← readArguments runGrammar { slots := [.file, .first, .last] } args
    return (.run d.run, d.surplus)
  else throw (.misuse mainGrammar (choiceFault "command" name commandNames))

/-- Finds the command among the words, with what stands before it. -/
def readCommand (surplus : List String) : List (Word × String) →
    Except Refusal (Command × List String)
  | [] => .error (.misuse mainGrammar (missing ["command"]))
  | (.plain _, name) :: rest => do
    let (command, more) ← readNamed name (rest.map (·.2))
    return (command, surplus ++ more)
  | (.dashes, text) :: rest =>
    .error (.misuse mainGrammar
      (if rest.isEmpty then missing ["command"] else choiceFault "command" text commandNames))
  | (.option name o value, _) :: rest => do
    let _ ← readOption mainGrammar {} name o value []
    readCommand surplus rest
  | (.unknown text, _) :: rest => readCommand (surplus ++ [text]) rest

def Command.ofArguments (args : List String) : Except Refusal Command := do
  let words ← (mainGrammar.words args).mapError (Refusal.misuse mainGrammar)
  let (command, surplus) ← readCommand [] (words.zip args)
  if surplus.isEmpty then return command
  else
    throw (.misuse mainGrammar ("unrecognized arguments: " ++ String.intercalate " " surplus))

end SnippetRunner.CommandLine
