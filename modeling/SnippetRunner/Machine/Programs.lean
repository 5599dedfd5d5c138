import SnippetRunner.Machine.Condition
import SnippetRunner.Machine.Echo
import SnippetRunner.Machine.Filters

/-!
The programs that a machine has. An executable file either starts with the mark of a program
image, followed by the name of one of these programs, or names its interpreter in its first
line. Launching a program sets up the tasks of a child.
-/
namespace SnippetRunner.Machine

open Text (encodeUtf8 decodeUtf8)
open Child (say complain)

def imageMark : List UInt8 := [0x7F, 0x45, 0x4C, 0x46]

def imageOf (name : String) : List UInt8 := imageMark ++ encodeUtf8 name

def imageName? (octets : List UInt8) : Option String :=
  if imageMark.isPrefixOf octets then some (decodeUtf8 (octets.drop imageMark.length)) else none

def programNames : List String :=
  ["sh", "bash", "cat", "echo", "printf", "true", "false", "pwd", "sleep", "yes", "head", "tail",
   "tr", "wc", "sed", "grep", "sort", "uniq", "tac", "tee", "seq", "ls", "env", "printenv",
   "basename", "dirname", "touch", "mkdir", "rmdir", "rm", "cp", "mv", "chmod", "test", "[",
   "kill"]

/-- The interpreter named in the first line of a script, with its argument. -/
def interpreter? (octets : List UInt8) : Option (String × List String) :=
  match octets with
  | 35 :: 33 :: rest =>
    let line := Text.strip (decodeUtf8 (rest.takeWhile (· != 10)))
    let name := line.toList.takeWhile fun c => !Shell.isSpace c
    let arg := Text.strip (String.ofList (line.toList.drop name.length))
    some (String.ofList name, if arg == "" then [] else [arg])
  | _ => none

/-- What starting an executable file leads to: a program and its arguments. -/
structure Image where
  program : String
  args : List String
  deriving Repr

def loadImage (tree : FileTree) (cwd : Location) : Nat → String → List String →
    Except FileError Image
  | fuel, path, args =>
    match tree.stat cwd (.ofString path) with
    | .error e => .error e
    | .ok (_, .file octets true) =>
      match imageName? octets with
      | some name => .ok ⟨name, args⟩
      | none =>
        match fuel, interpreter? octets with
        | more + 1, some (interpreter, extra) =>
          loadImage tree cwd more interpreter (interpreter :: extra ++ path :: args.drop 1)
        | _, _ => .error .badExecutable
    | .ok _ => .error .access

def searchPlaces (vars : List (String × String)) (name : String) : List String :=
  if name.toList.contains '/' then [name]
  else
    let path := (vars.lookup "PATH").getD "/bin:/usr/bin"
    (Text.splitAt ':' path).map fun directory =>
      if directory == "" then name else directory ++ "/" ++ name

/-- The first program found; if none is, the first error other than absence, or absence. -/
def findImage (tree : FileTree) (cwd : Location) (args : List String) : List String →
    Option FileError → FileError → Except FileError Image
  | [], saved, last => .error (saved.getD last)
  | place :: rest, saved, _ =>
    match loadImage tree cwd 4 place args with
    | .ok image => .ok image
    | .error e =>
      let absent := e == .noEntry || e == .notDirectory
      findImage tree cwd args rest (if saved.isNone && !absent then some e else saved) e

def lookUpCommand (tree : FileTree) (cwd : Location) (vars : List (String × String))
    (argv : List String) : Except FileError Image :=
  findImage tree cwd argv (searchPlaces vars (argv.headD "")) none .noEntry

-- starting programs

def saying (text : String) : List Task := [say text, .quit (some 0)]

def failing (text : String) (status : Nat) : List Task := [complain text, .quit (some status)]

def sleepLength? (text : String) : Option Nat :=
  let cs := text.toList
  let body := cs.takeWhile fun c => Text.isAsciiDigit c || c == '.'
  let unit? : Option Nat := match cs.drop body.length with
    | [] => some 1000
    | ['s'] => some 1000
    | ['m'] => some 60000
    | ['h'] => some 3600000
    | ['d'] => some 86400000
    | _ => none
  let whole := body.takeWhile (· != '.')
  let fraction := ((body.drop whole.length).drop 1)
  if body.isEmpty || fraction.contains '.' || (whole.isEmpty && fraction.isEmpty) then none
  else do
    let unit ← unit?
    let value := Text.digitsValue ((whole ++ fraction).filterMap Text.asciiDigit?)
    return (value * unit + Nat.pow 10 fraction.length - 1) / Nat.pow 10 fraction.length

/-- Copying of files and of the input, which a lone hyphen stands for. -/
def copyTasks (m : Machine) (c : Child) : List String → Bool → Machine × List Task
  | [], failed => (m, [.quit (some (if failed then 1 else 0))])
  | name :: rest, failed =>
    if name == "-" then
      let (m, tasks) := copyTasks m c rest failed
      (m, .copyInput [] :: tasks)
    else
      match m.openForReading c.cwd (.ofString name) with
      | .ok (m, channel) =>
        let (m, tasks) := copyTasks m c rest failed
        (m, .restore { c.streams with input := channel } :: .copyInput [] :: tasks)
      | .error e =>
        let (m, tasks) := copyTasks m c rest true
        (m, complain s!"cat: {name}: {e.wording}\n" :: tasks)

/-- The inputs of a filter: the named files one after the other, or the input. -/
def filterTasks (m : Machine) (c : Child) (program : String) (files : List String)
    (task : Task) : Machine × List Task :=
  match files with
  | [] => (m, [task])
  | [name] =>
    match m.openForReading c.cwd (.ofString name) with
    | .ok (m, input) => (m, [.restore { c.streams with input }, task])
    | .error e => (m, [complain s!"{program}: {name}: {e.wording}\n", .finish 1])
  | _ =>
    let read := files.map fun name => (name, m.tree.stat c.cwd (.ofString name))
    let (good, bad) := read.partition fun r => match r.2 with
      | .ok (_, .file _ _) => true
      | _ => false
    let octets := good.flatMap fun r => match r.2 with
      | .ok (_, .file octets _) => octets
      | _ => []
    let complaints := bad.map fun r =>
      let wording := match r.2 with
        | .ok _ => FileError.isDirectory.wording
        | .error e => e.wording
      complain s!"{program}: {r.1}: {wording}\n"
    let (m, id) := m.newPipe octets
    let reading :=
      if good.isEmpty then [] else [.restore { c.streams with input := .pipe id }, task]
    let ending := if bad.isEmpty then [] else [.finish 1]
    (m, complaints ++ reading ++ ending)

def countTasks (m : Machine) (c : Child) (counts : Bool × Bool × Bool) (files : List String) :
    List Task :=
  let read := files.map fun name => (name, m.tree.readOctets c.cwd (.ofString name))
  let good := read.filterMap fun r => match r.2 with
    | .ok octets => some (r.1, octets)
    | .error _ => none
  let all := good.flatMap (·.2)
  let width := (toString all.length).length
  let line (octets : List UInt8) (name : String) : String :=
    let numbers := countsOf counts.1 counts.2.1 counts.2.2 octets
    String.intercalate " " (numbers.map fun n => padLeft width (toString n)) ++ s!" {name}\n"
  let lines := read.map fun r => match r.2 with
    | .ok octets => say (line octets r.1)
    | .error e => complain s!"wc: {r.1}: {e.wording}\n"
  let total := if files.length > 1 then [say (line all "total")] else []
  lines ++ total ++ [.quit (some (if good.length == read.length then 0 else 1))]

/-- Options with a single letter at the head of arguments, and the operands. -/
def splitOptions : List String → List Char × List String
  | "--" :: rest => ([], rest)
  | a :: rest =>
    match a.toList with
    | '-' :: c :: cs =>
      let (options, operands) := splitOptions rest
      (c :: cs ++ options, operands)
    | _ => ([], a :: rest)
  | [] => ([], [])

def countOption (letter : Char) : List String → Option (Nat × List String)
  | a :: rest =>
    match a.toList with
    | '-' :: c :: ds =>
      if c == letter then
        if ds.isEmpty then
          match rest with
          | n :: rest => (takeNumber n.toList).1.map fun n => (n, rest)
          | [] => none
        else (takeNumber ds).1.map fun n => (n, rest)
      else none
    | _ => none
  | [] => none

def plainCount (args : List String) : Option (Nat × List String) :=
  match args with
  | a :: rest =>
    match a.toList with
    | '-' :: c :: ds =>
      if Text.isAsciiDigit c then (takeNumber (c :: ds)).1.map fun n => (n, rest) else none
    | _ => none
  | [] => none

/-- The characters that an argument of a character map stands for. -/
def octetSet : Nat → List Char → List UInt8
  | 0, _ => []
  | _ + 1, [] => []
  | fuel + 1, cs =>
    let single : List Char → Option (UInt8 × List Char) := fun cs => match cs with
      | '\\' :: rest =>
        match takeEscape .plain false rest with
        | (some [b], after) => some (b, after)
        | (some (_ :: b :: _), after) => some (b, after)
        | _ => none
      | c :: rest => some ((Text.utf8Octets c).headD 0, rest)
      | [] => none
    let named : List (String × List UInt8) :=
      [("[:lower:]", (List.range 26).map fun i => (97 + i).toUInt8),
       ("[:upper:]", (List.range 26).map fun i => (65 + i).toUInt8),
       ("[:digit:]", (List.range 10).map fun i => (48 + i).toUInt8),
       ("[:space:]", [9, 10, 11, 12, 13, 32])]
    match named.find? fun n => n.1.toList.isPrefixOf cs with
    | some (name, octets) => octets ++ octetSet fuel (cs.drop name.length)
    | none =>
      match single cs with
      | none => []
      | some (low, '-' :: rest) =>
        match single rest with
        | some (high, after) =>
          ((List.range (high.toNat + 1 - low.toNat)).map fun i => (low.toNat + i).toUInt8) ++
            octetSet fuel after
        | none => [low, 45]
      | some (b, rest) => b :: octetSet fuel rest

def octetMapOf (args : List String) : OctetMap :=
  let (options, operands) := splitOptions args
  let set (i : Nat) : List UInt8 :=
    let text := (operands[i]?).getD ""
    octetSet (text.length + 1) text.toList
  if options.contains 'd' then ⟨set 0, []⟩
  else
    let targets := set 1
    let padding := List.replicate (set 0).length (targets.getLast?.getD 0)
    ⟨[], (set 0).zip (targets ++ padding)⟩

def joinPath (directory name : String) : Path :=
  (Path.ofString directory).child name

def listedNames (options : List Char) (names : List String) : List String :=
  let all := options.contains 'a' || options.contains 'A'
  let dots := if options.contains 'a' then [".", ".."] else []
  ((dots ++ names).filter fun n => all || !n.startsWith ".").mergeSort Path.textLe

def listTasks (m : Machine) (c : Child) (args : List String) : List Task :=
  let (options, operands) := splitOptions args
  let operands := if operands.isEmpty then ["."] else operands.mergeSort Path.textLe
  let read := operands.map fun o => (o, m.tree.stat c.cwd (.ofString o))
  let missing := read.filterMap fun r => match r.2 with
    | .error e => some (complain s!"ls: cannot access '{r.1}': {e.wording}\n")
    | .ok _ => none
  let files := read.filterMap fun r => match r.2 with
    | .ok (_, .directory) => none
    | .ok _ => some (r.1 ++ "\n")
    | .error _ => none
  let directories := read.filterMap fun r => match r.2 with
    | .ok (loc, .directory) =>
      let body := withEnds (listedNames options ((m.tree.children loc).map (·.1)))
      some (if operands.length > 1 then s!"{r.1}:\n{body}" else body)
    | _ => none
  let head := String.join files
  let gap := if head == "" || directories.isEmpty then "" else "\n"
  missing ++ [say (head ++ gap ++ String.intercalate "\n" directories),
    .quit (some (if missing.isEmpty then 0 else 2))]

/-- Applies a change to the tree for each operand; those that fail are complained about. -/
def changeEach (m : Machine) (change : FileTree → String → Except FileError FileTree)
    (complaint : String → FileError → Option String) : List String → Bool → Machine × List Task
  | [], failed => (m, [.quit (some (if failed then 1 else 0))])
  | o :: rest, failed =>
    match change m.tree o with
    | .ok tree => changeEach { m with tree } change complaint rest failed
    | .error e =>
      match complaint o e with
      | none => changeEach m change complaint rest failed
      | some text =>
        let (m, tasks) := changeEach m change complaint rest true
        (m, complain text :: tasks)

def removeOperand (cwd : Location) (recursive : Bool) (t : FileTree) (o : String) :
    Except FileError FileTree :=
  match t.removeFile cwd (.ofString o) with
  | .ok t => .ok t
  | .error .isDirectory =>
    if recursive then (t.removeTree cwd (.ofString o)).mapError (·.error) else .error .isDirectory
  | .error e => .error e

def copyOperand (cwd : Location) (moved : Bool) (t : FileTree) (source target : String) :
    Except FileError FileTree := do
  let from_ := Path.ofString source
  let onto := match t.isDirectory cwd (.ofString target) with
    | .ok true => joinPath target from_.name
    | _ => .ofString target
  if moved then t.replaceFile cwd from_ onto
  else
    let octets ← t.readOctets cwd from_
    t.writeOctets cwd onto octets

def numbersBetween (first step last : Int) : List Int :=
  if step == 0 then []
  else
    let count := ((last - first).tdiv step + 1).toNat
    if (step > 0 && first > last) || (step < 0 && first < last) then []
    else (List.range count).map fun i => first + step * Int.ofNat i

def headTask (args : List String) : Task × List String :=
  match countOption 'c' args with
  | some (n, rest) => (.headOctets n, rest)
  | none =>
    match (countOption 'n' args).or (plainCount args) with
    | some (n, rest) => (.headLines n, rest)
    | none => (.headLines 10, args)

def tailFilter (args : List String) : Filter × List String :=
  match countOption 'c' args with
  | some (n, rest) => (.lastOctets n, rest)
  | none =>
    match (countOption 'n' args).or (plainCount args) with
    | some (n, rest) => (.lastLines n, rest)
    | none => (.lastLines 10, args)

def sedFilter (args : List String) : Filter × List String :=
  let (options, operands) := splitOptions args
  let quiet := options.contains 'n'
  match operands with
  | script :: files => (.edit script quiet, files)
  | [] => (.edit "" quiet, [])

def baseName (path : String) (suffix : String) : String :=
  let stripped := Text.stripSlashes path
  if stripped == "" then (if path == "" then "" else "/")
  else
    let name := (Path.ofString stripped).name
    if suffix != "" && name != suffix && name.endsWith suffix then
      String.ofList (name.toList.take (name.length - suffix.length))
    else name

def directoryName (path : String) : String :=
  let cs := Text.trimRight (· == '/') path.toList
  let head := cs.take (cs.length - (cs.reverse.takeWhile (· != '/')).length)
  if cs.isEmpty then (if path == "" then "." else "/")
  else if head.isEmpty then "."
  else
    let s := Text.stripSlashes (String.ofList head)
    if s == "" then "/" else s

/-- A child that becomes a shell with a script and its parameters. -/
def shellChild (c : Child) (dialect : Dialect) (parameters : List String) (tasks : List Task) :
    Child :=
  { c with
    dialect, parameters, tasks
    functions := []
    status := 0
    line := 0
    inline_ := false
    strict := false
    traps := Machine.keptTraps c.traps
    shell := c.id
    jobs := [] }

/-- The text of a script; one shell takes its last line to be ended in any case. -/
def scriptText (dialect : Dialect) (text : String) : List Char :=
  if dialect == .extended && !text.endsWith "\n" then text.toList ++ ['\n'] else text.toList

/-- Starts a shell: a script given as an argument, in a file, or on the input. -/
def launchShell (m : Machine) (c : Child) (dialect : Dialect) (argv : List String) :
    Machine × Child :=
  let name := argv.headD "sh"
  let rec start : List String → Machine × Child
    | [] => (m, shellChild c dialect [name] [.gather [] .script])
    | "-c" :: script :: rest =>
      let parameters := if rest.isEmpty then [name] else rest
      (m, { shellChild c dialect parameters [.script (scriptText dialect script) 1] with
        inline_ := true })
    | ["-c"] =>
      let text := match dialect with
        | .plain => s!"{name}: 0: -c requires an argument\n"
        | .extended => s!"{name}: -c: option requires an argument\n"
      (m, shellChild c dialect [name] (failing text 2))
    | file :: rest =>
      if file.startsWith "-" && file != "-" then start rest
      else
        match m.tree.readOctets c.cwd (.ofString file) with
        | .ok octets =>
          let script := scriptText dialect (decodeUtf8 octets)
          (m, shellChild c dialect (file :: rest) [.script script 1])
        | .error e =>
          let reason := if e == .noEntry then "No such file" else e.wording
          let (text, status) := match dialect with
            | .plain => (s!"{name}: 0: cannot open {file}: {reason}\n", 2)
            | .extended => (s!"{name}: {file}: {e.wording}\n", if e == .noEntry then 127 else 126)
          (m, shellChild c dialect [name] (failing text status))
  start (argv.drop 1)

def launch (m : Machine) (c : Child) (image : Image) : Machine × Child :=
  let c := { c with status := 0, traps := keptTraps c.traps }
  let args := image.args.drop 1
  let become (r : Machine × List Task) : Machine × Child := (r.1, { c with tasks := r.2 })
  let done (tasks : List Task) : Machine × Child := (m, { c with tasks })
  let filter (program : String) (f : Filter × List String) : Machine × Child :=
    become (filterTasks m c program f.2 (.gather [] f.1))
  match image.program with
  | "sh" => launchShell m c .plain image.args
  | "bash" => launchShell m c .extended image.args
  | "cat" =>
    let files := (splitOptions args).2
    become (copyTasks m c (if files.isEmpty then ["-"] else files) false)
  | "echo" => done [.output false (echoOctets .extended args), .quit (some 0)]
  | "printf" =>
    match args with
    | format :: rest => done [.output false (printOctets .extended format rest), .quit (some 0)]
    | [] => done (failing "printf: missing operand\n" 1)
  | "true" => done [.quit (some 0)]
  | "false" => done [.quit (some 1)]
  | "pwd" => done (saying (FileTree.pathOf c.cwd).toString |>.map fun t => match t with
      | .output e o => .output e (o ++ [10])
      | t => t)
  | "sleep" =>
    match args.mapM sleepLength? with
    | some (first :: rest) =>
      done [.sleep (m.clock + (first :: rest).foldl Nat.add 0), .quit (some 0)]
    | some [] =>
      done (failing "sleep: missing operand\nTry 'sleep --help' for more information.\n" 1)
    | none =>
      let bad := (args.find? fun a => (sleepLength? a).isNone).getD ""
      done (failing
        s!"sleep: invalid time interval ‘{bad}’\nTry 'sleep --help' for more information.\n" 1)
  | "yes" =>
    let line := encodeUtf8 ((if args.isEmpty then "y" else String.intercalate " " args) ++ "\n")
    done [.always (List.replicate (8192 / line.length + 1) line).flatten]
  | "head" =>
    let (task, files) := headTask args
    become (filterTasks m c "head" files task)
  | "tail" => filter "tail" (tailFilter args)
  | "tr" => done [.mapInput (octetMapOf args), .quit (some 0)]
  | "wc" =>
    let (options, files) := splitOptions args
    let all := options.isEmpty
    let counts := (all || options.contains 'l', all || options.contains 'w',
      all || options.contains 'c' || options.contains 'm')
    if files.isEmpty then done [.gather [] (.count counts.1 counts.2.1 counts.2.2)]
    else done (countTasks m c counts files)
  | "sed" => filter "sed" (sedFilter args)
  | "grep" =>
    let (options, operands) := splitOptions args
    filter "grep" (.search (operands.headD "") (options.contains 'v') (options.contains 'c'),
      operands.drop 1)
  | "sort" =>
    let (options, files) := splitOptions args
    filter "sort"
      (.sort (options.contains 'r') (options.contains 'u') (options.contains 'n'), files)
  | "uniq" => filter "uniq" (.unique, (splitOptions args).2)
  | "tac" => filter "tac" (.reverseLines, args)
  | "tee" =>
    let (options, files) := splitOptions args
    let (m, channels) := files.foldl
      (fun (acc : Machine × List Channel) file =>
        match acc.1.openForWriting c.cwd (.ofString file) (options.contains 'a') with
        | .ok (m, ch) => (m, acc.2 ++ [ch])
        | .error _ => acc)
      (m, [])
    (m, { c with tasks := [.copyInput channels, .quit (some 0)] })
  | "seq" =>
    let numbers := args.filterMap textNumber?
    let list := match numbers with
      | [last] => numbersBetween 1 1 last
      | [first, last] => numbersBetween first 1 last
      | [first, step, last] => numbersBetween first step last
      | _ => []
    done (saying (withEnds (list.map toString)))
  | "ls" => done (listTasks m c args)
  | "env" => done (saying (withEnds (c.vars.map fun v => s!"{v.1}={v.2}")))
  | "printenv" =>
    match args with
    | [] => done (saying (withEnds (c.vars.map fun v => s!"{v.1}={v.2}")))
    | names =>
      let values := names.filterMap fun n => c.vars.lookup n
      done [say (withEnds values), .quit (some (if values.length == names.length then 0 else 1))]
  | "basename" => done (saying (baseName (args.headD "") ((args[1]?).getD "") ++ "\n"))
  | "dirname" => done (saying (directoryName (args.headD "") ++ "\n"))
  | "touch" =>
    become (changeEach m (fun t o => t.appendOctets c.cwd (.ofString o) [])
      (fun o e => some s!"touch: cannot touch '{o}': {e.wording}\n") (splitOptions args).2 false)
  | "mkdir" =>
    let (options, operands) := splitOptions args
    become (changeEach m
      (fun t o =>
        if options.contains 'p' then
          match t.makeDirectories c.cwd (.ofString o) with
          | (t, none) => .ok t
          | (_, some f) => .error f.error
        else t.makeDirectory c.cwd (.ofString o))
      (fun o e => some s!"mkdir: cannot create directory ‘{o}’: {e.wording}\n") operands false)
  | "rmdir" =>
    become (changeEach m
      (fun t o =>
        match t.stat c.cwd (.ofString o) with
        | .ok (loc, .directory) =>
          if (t.children loc).isEmpty then .ok (t.removeAll loc) else .error .notEmpty
        | .ok _ => .error .notDirectory
        | .error e => .error e)
      (fun o e => some s!"rmdir: failed to remove '{o}': {e.wording}\n") args false)
  | "rm" =>
    let (options, operands) := splitOptions args
    let recursive := options.contains 'r' || options.contains 'R'
    become (changeEach m (removeOperand c.cwd recursive)
      (fun o e =>
        if options.contains 'f' && e == .noEntry then none
        else some s!"rm: cannot remove '{o}': {e.wording}\n") operands false)
  | "cp" =>
    let operands := (splitOptions args).2
    let target := operands.getLast?.getD ""
    become (changeEach m (fun t o => copyOperand c.cwd false t o target)
      (fun o e => some s!"cp: cannot stat '{o}': {e.wording}\n") operands.dropLast false)
  | "mv" =>
    let operands := (splitOptions args).2
    let target := operands.getLast?.getD ""
    become (changeEach m (fun t o => copyOperand c.cwd true t o target)
      (fun o e => some s!"mv: cannot stat '{o}': {e.wording}\n") operands.dropLast false)
  | "chmod" =>
    become (changeEach m (fun t o => t.makeExecutable c.cwd (.ofString o))
      (fun o e => some s!"chmod: cannot access '{o}': {e.wording}\n") (args.drop 1) false)
  | "test" =>
    let holds := (condition (c.site m.tree) (args.length + 2) args).getD false
    done [.quit (some (if holds then 0 else 1))]
  | "[" =>
    let holds := (condition (c.site m.tree) (args.length + 2) args.dropLast).getD false
    done [.quit (some (if holds then 0 else 1))]
  | _ => done [.quit (some 0)]

end SnippetRunner.Machine
