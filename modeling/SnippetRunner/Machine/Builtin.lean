import SnippetRunner.Machine.Programs

/-!
Running a simple command whose words have been expanded: its redirections, the commands that
a shell carries out itself, and the programs that it starts. A shell goes on with the tasks
it had before, once the streams are put back.
-/
namespace SnippetRunner.Machine

open Child (say complain)

def signalNames : List (String × Nat) :=
  [("HUP", 1), ("INT", 2), ("QUIT", 3), ("ILL", 4), ("TRAP", 5), ("ABRT", 6), ("BUS", 7),
   ("FPE", 8), ("KILL", 9), ("USR1", 10), ("SEGV", 11), ("USR2", 12), ("PIPE", 13),
   ("ALRM", 14), ("TERM", 15), ("STKFLT", 16), ("CHLD", 17), ("CONT", 18), ("STOP", 19),
   ("TSTP", 20), ("TTIN", 21), ("TTOU", 22), ("URG", 23), ("XCPU", 24), ("XFSZ", 25),
   ("VTALRM", 26), ("PROF", 27), ("WINCH", 28), ("POLL", 29), ("PWR", 30), ("SYS", 31)]

/-- A signal given by its number or by its name, with or without its first three letters. -/
def signalOf? (text : String) : Option Nat :=
  match (takeNumber text.toList), text with
  | (some n, []), _ => if n ≤ 64 then some n else none
  | _, name =>
    let short := if name.startsWith "SIG" then String.ofList (name.toList.drop 3) else name
    signalNames.lookup short

/-- Signals without effect on a child that did not ask for them. -/
def isIdleSignal (signal : Nat) : Bool :=
  signal == 0 || signal == 17 || signal == 18 || signal == 23 || signal == 28

def stopSignals : List Nat := [20, 21, 22]

def farAway : Nat := Nat.pow 10 15

def trapOf? (m : Machine) (id signal : Nat) : Option String :=
  if signal == 9 || signal == 19 then none
  else (m.find? id).bind fun c => c.traps.lookup signal

/-- What a signal does to a child: what it asked for, nothing, a halt, or its end. -/
def signalChild (m : Machine) (id signal : Nat) : Machine :=
  match m.find? id, trapOf? m id signal with
  | some c, some action => m.put (c.push [.script action.toList c.line])
  | some c, none =>
    if isIdleSignal signal || stopSignals.contains signal then m
    else if signal == 19 then m.put (c.push [.sleep farAway])
    else m.endChild id (.killed signal)
  | none, _ => m

def signalWording (signal : Nat) : Option String :=
  [(1, "Hangup"), (3, "Quit"), (4, "Illegal instruction"), (5, "Trace/breakpoint trap"),
   (6, "Aborted"), (7, "Bus error"), (8, "Floating point exception"), (9, "Killed"),
   (10, "User defined signal 1"), (11, "Segmentation fault"), (12, "User defined signal 2"),
   (14, "Alarm clock"), (15, "Terminated")].lookup signal

-- redirections

structure Redirection where
  descriptor : Nat
  kind : Shell.RedirectKind
  target : String

def setStream (s : Streams) (descriptor : Nat) (ch : Channel) : Streams :=
  match descriptor with
  | 0 => { s with input := ch }
  | 1 => { s with output := ch }
  | 2 => { s with error := ch }
  | _ => s

def streamAt (s : Streams) (descriptor : String) : Channel :=
  match descriptor with
  | "0" => s.input
  | "1" => s.output
  | "2" => s.error
  | _ => .nothing

def openComplaint (c : Child) (writing : Bool) (target : String) (e : FileError) : String :=
  match c.dialect with
  | .extended => s!"{c.messageHead}{target}: {e.wording}\n"
  | .plain =>
    let verb := if writing then "create" else "open"
    let reason :=
      if e == .noEntry then (if writing then "Directory nonexistent" else "No such file")
      else e.wording
    s!"{c.messageHead}cannot {verb} {target}: {reason}\n"

def redirect (m : Machine) (c : Child) : List Redirection → Streams →
    Except String (Machine × Streams)
  | [], s => .ok (m, s)
  | r :: rest, s =>
    match r.kind with
    | .duplicate => redirect m c rest (setStream s r.descriptor (streamAt s r.target))
    | .document =>
      let (m, id) := m.newPipe (Text.encodeUtf8 r.target)
      redirect m c rest (setStream s r.descriptor (.pipe id))
    | .input =>
      match m.openForReading c.cwd (.ofString r.target) with
      | .ok (m, ch) => redirect m c rest (setStream s r.descriptor ch)
      | .error e => .error (openComplaint c false r.target e)
    | .output =>
      match m.openForWriting c.cwd (.ofString r.target) false with
      | .ok (m, ch) => redirect m c rest (setStream s r.descriptor ch)
      | .error e => .error (openComplaint c true r.target e)
    | .append =>
      match m.openForWriting c.cwd (.ofString r.target) true with
      | .ok (m, ch) => redirect m c rest (setStream s r.descriptor ch)
      | .error e => .error (openComplaint c true r.target e)

def redirectStatus (c : Child) : Nat :=
  match c.dialect with
  | .plain => 2
  | .extended => 1

-- commands of the shell itself

def builtinNames : List String :=
  ["echo", "printf", "cd", "pwd", "exit", "true", ":", "false", "test", "[", "export", "unset",
   "set", "shift", "read", "kill", "exec", "wait", "eval", "return", "break", "continue",
   "local", "command", "trap", ".", "source"]

/-- Drops the tasks before the first one that a test accepts, except that streams and
strictness are put back. -/
def unwind (isMark : Task → Bool) (c : Child) : Child :=
  if c.tasks.any isMark then
    let dropped := c.tasks.takeWhile fun t => !isMark t
    let c := { c with tasks := c.tasks.dropWhile fun t => !isMark t }
    dropped.foldl
      (fun c t => match t with
        | .restore streams => { c with streams }
        | .strictly strict => { c with strict }
        | _ => c)
      c
  else c

def isLoopMark : Task → Bool
  | .loopTest .. => true
  | .loopAgain .. => true
  | .forEach .. => true
  | _ => false

def isCallMark : Task → Bool
  | .leave _ => true
  | _ => false

def breakLoops : Nat → Child → Child
  | 0, c => c
  | n + 1, c =>
    let c := unwind isLoopMark c
    match c.tasks with
    | t :: rest => breakLoops n (if isLoopMark t then { c with tasks := rest } else c)
    | [] => c

def argumentNumber (args : List String) (default_ : Nat) : Nat :=
  match args with
  | a :: _ => (textNumber? a).elim default_ Int.toNat
  | [] => default_

def assignArgument (c : Child) (exported : Bool) (arg : String) : Child :=
  let (name, c) := match Settings.cutAt '=' arg with
    | some (name, value) => (name, c.assign name value)
    | none => (arg, c)
  if exported && !c.exported.contains name then { c with exported := c.exported ++ [name] } else c

def exportedVariables (c : Child) (extra : List (String × String)) : List (String × String) :=
  extra.foldl (fun vs v => Environment.assign vs v.1 v.2)
    (c.vars.filter fun v => c.exported.contains v.1)

/-- The target of a signal: one child, or the group of a number that is not positive. -/
def signalTarget (m : Machine) (c : Child) (signal : Nat) (target : String) : Option Machine :=
  match textNumber? target with
  | none => none
  | some n =>
    if n > 0 then
      if m.children.any fun x => x.id == n.toNat && isLive x then
        some (signalChild m n.toNat signal)
      else none
    else
      let group := if n == 0 then c.group else n.natAbs
      some ((m.children.filter fun x => x.group == group).foldl
        (fun m x => signalChild m x.id signal) m)

def runKill (m : Machine) (c : Child) (args : List String) : Machine × Child :=
  let (signal, targets) := match args with
    | "-s" :: name :: rest => (signalOf? name, rest)
    | first :: rest =>
      match first.toList with
      | '-' :: name => (signalOf? (String.ofList name), rest)
      | _ => (some 15, args)
    | [] => (some 15, [])
  let targets := targets.filter (· != "--")
  match signal with
  | none => (m.put c, c.push [complain s!"{c.messageHead}kill: invalid signal\n", .finish 1])
  | some signal =>
    let m := m.put c
    targets.foldl
      (fun acc target =>
        match signalTarget acc.1 c signal target with
        | some m => (m, (m.find? c.id).getD acc.2)
        | none =>
          let c := acc.2.push [complain s!"{c.messageHead}kill: No such process\n", .finish 1]
          (acc.1.put c, c))
      (m, c)

/-- An option letter, switched on by a hyphen and off by a plus sign. -/
def switches (sign letter : Char) (arg : String) : Bool :=
  match arg.toList with
  | c :: letters => c == sign && letters.contains letter
  | [] => false

/-- Options come first and parameters after them. -/
def setOptions (c : Child) (args : List String) : Child :=
  let isOption (a : String) : Bool := a != "--" && (a.startsWith "-" || a.startsWith "+")
  let options := args.takeWhile isOption
  let strict := (c.strict || options.any (switches '-' 'e')) && !options.any (switches '+' 'e')
  let c := { c with strict }
  match args.drop options.length with
  | "--" :: rest => { c with parameters := c.parameters.take 1 ++ rest }
  | first :: rest =>
    if options.any (·.endsWith "o") then c
    else { c with parameters := c.parameters.take 1 ++ first :: rest }
  | [] => c

/-- Sets what is to be done on signals; a hyphen takes it back. -/
def setTrap (c : Child) (args : List String) : Child :=
  match args.filter (· != "--") with
  | action :: names =>
    let signals := names.filterMap fun n => if n == "EXIT" then some 0 else signalOf? n
    let others := c.traps.filter fun t => !signals.contains t.1
    { c with traps := if action == "-" then others else signals.map (·, action) ++ others }
  | [] => c

/-- A command that the shell carries out; its streams are already those of the command. -/
def runBuiltin (m : Machine) (c : Child) (name : String) (args : List String) :
    Machine × Child :=
  let ok (c : Child) : Machine × Child := (m, { c with status := 0 })
  match name with
  | "echo" => ok (c.push [.output false (echoOctets c.dialect args)])
  | "printf" =>
    match args with
    | "--" :: format :: rest => ok (c.push [.output false (printOctets c.dialect format rest)])
    | format :: rest => ok (c.push [.output false (printOctets c.dialect format rest)])
    | [] => (m, c.push [complain s!"{c.messageHead}printf: usage: printf format [arg ...]\n",
        .finish 2])
  | "true" => ok c
  | ":" => ok c
  | "false" => (m, { c with status := 1 })
  | "pwd" => ok (c.push [say ((FileTree.pathOf c.cwd).toString ++ "\n")])
  | "cd" =>
    let target := (args.filter fun a => a != "--" && a != "-P" && a != "-L").headD
      ((c.vars.lookup "HOME").getD "/")
    match m.tree.stat c.cwd (.ofString target) with
    | .ok (loc, .directory) =>
      let old := (FileTree.pathOf c.cwd).toString
      let c := (c.assign "OLDPWD" old).assign "PWD" (FileTree.pathOf loc).toString
      ok { c with cwd := loc }
    | .ok _ => cannotEnter target .notDirectory
    | .error e => cannotEnter target e
  | "exit" =>
    (m, c.push [.quit (some (argumentNumber args c.status % 256))])
  | "test" => test args
  | "[" => test args.dropLast
  | "export" => ok (args.foldl (fun c a => assignArgument c true a) c)
  | "local" => ok (args.foldl (fun c a => assignArgument c false a) c)
  | "unset" => ok { c with vars := c.vars.filter fun v => !args.contains v.1 }
  | "set" => ok (setOptions c args)
  | "trap" => ok (setTrap c args)
  | "shift" =>
    let n := argumentNumber args 1
    ok { c with parameters := c.parameters.take 1 ++ c.parameters.drop (1 + n) }
  | "read" => (m, c.push [.readLine (args.filter fun a => a != "-r") []])
  | "kill" => runKill m { c with status := 0 } args
  | "wait" =>
    match args.filterMap fun a => (textNumber? a).map Int.toNat with
    | [] => (m, c.push [.awaitAll])
    | ids => (m, c.push [.await ids])
  | "." => include_ (args.headD "")
  | "source" => include_ (args.headD "")
  | "eval" => ok (c.push [.script (String.intercalate " " args).toList c.line])
  | "return" =>
    let status := argumentNumber args c.status
    if c.tasks.any isCallMark then (m, { unwind isCallMark c with status })
    else (m, c.push [.quit (some (status % 256))])
  | "break" => ok (breakLoops (argumentNumber args 1) c)
  | "continue" => ok (unwind isLoopMark (breakLoops (argumentNumber args 1 - 1) c))
  | _ => ok c
where
  /-- Runs the script in a file as if it stood here. -/
  include_ (name : String) : Machine × Child :=
    let place := ((searchPlaces c.vars name).find? fun p =>
      (m.tree.readOctets c.cwd (.ofString p)).isOk).getD name
    match m.tree.readOctets c.cwd (.ofString place), c.dialect with
    | .ok octets, _ =>
      (m, { c with status := 0 }.push
        [.script (scriptText c.dialect (Text.decodeUtf8 octets)) 1, .leave c.parameters])
    | .error e, .extended =>
      (m, c.push [complain s!"{c.messageHead}{name}: {e.wording}\n", .finish 1])
    | .error _, .plain =>
      (m, c.push [complain s!"{c.messageHead}.: cannot open {name}: No such file\n",
        .quit (some 2)])
  test (args : List String) : Machine × Child :=
    let holds := (condition (c.site m.tree) (args.length + 2) args).getD false
    (m, { c with status := if holds then 0 else 1 })
  cannotEnter (target : String) (e : FileError) : Machine × Child :=
    match c.dialect with
    | .plain => (m, c.push [complain s!"{c.messageHead}cd: can't cd to {target}\n", .finish 2])
    | .extended => (m, c.push [complain s!"{c.messageHead}cd: {target}: {e.wording}\n", .finish 1])

/-- What a shell says about a program that it cannot start, and the status of that. -/
def startComplaint (c : Child) (name : String) (e : FileError) : String × Nat :=
  let status := if e == .noEntry || e == .notDirectory then 127 else 126
  match c.dialect with
  | .plain =>
    let reason := if e == .noEntry then "not found" else e.wording
    (s!"{c.messageHead}{name}: {reason}\n", status)
  | .extended =>
    let reason :=
      if e == .noEntry && !name.toList.contains '/' then "command not found" else e.wording
    (s!"{c.messageHead}{name}: {reason}\n", status)

/-- The child becomes the program named by its arguments. A file without a mark of its own
is run as a script. -/
def become (m : Machine) (c : Child) (argv : List String) : Machine × Child :=
  let name := argv.headD ""
  match lookUpCommand m.tree c.cwd c.vars argv with
  | .ok image => launch m c image
  | .error .badExecutable =>
    let place := ((searchPlaces c.vars name).find? fun p =>
      (m.tree.readOctets c.cwd (.ofString p)).isOk).getD name
    launchShell m { c with status := 0 } c.dialect ("sh" :: place :: argv.drop 1)
  | .error e =>
    let e :=
      match e, m.tree.stat c.cwd (.ofString name) with
      | .access, .ok (_, .directory) =>
        if c.dialect == .extended then .isDirectory else e
      | _, _ => e
    let (text, status) := startComplaint c name e
    (m, { c with tasks := [complain text, .quit (some status)] })

def runProgram (m : Machine) (c : Child) (argv : List String) (extra : List (String × String))
    (streams : Streams) : Machine :=
  let (m, id) := m.fork c [] streams
  let m := m.put (c.push [.await [id]])
  match m.find? id with
  | none => m
  | some child =>
    let vars := exportedVariables c extra
    let (m, child) := become m { child with vars } argv
    m.put { child with exported := vars.map (·.1) }

def runSimple (m : Machine) (c : Child) (assignments : List (String × String))
    (words : List String) (redirections : List Redirection) : Machine :=
  match redirect m c redirections c.streams with
  | .error text => m.put (c.push [complain text, .finish (redirectStatus c)])
  | .ok (m, streams) =>
    match words with
    | [] => m.put (assignments.foldl (fun c a => c.assign a.1 a.2) c)
    | ["exec"] => m.put { c with streams, status := 0 }
    | "exec" :: argv =>
      let vars := exportedVariables c assignments
      let (m, c) := become m { c with streams, vars, tasks := [] } argv
      m.put { c with exported := vars.map (·.1) }
    | name :: args =>
      match c.functions.lookup name with
      | some body =>
        m.put { c with
          streams
          parameters := c.parameters.take 1 ++ args
          tasks := .run body :: .leave c.parameters :: .restore c.streams :: c.tasks }
      | none =>
        let (name, args) :=
          if name == "command" then (args.headD ":", args.drop 1) else (name, args)
        if builtinNames.contains name then
          let inner := { c.push [.restore c.streams] with streams }
          let (m, c) := runBuiltin m inner name args
          if (m.find? c.id).any isLive then m.put c else m
        else runProgram m c (name :: args) assignments streams

end SnippetRunner.Machine
