import SnippetRunner.Machine.Builtin

/-!
One step of a child: its first task is carried out, or it must wait for an octet, for room in
a pipe, for another child or for the clock. Compound commands unfold into tasks, so a step is
never longer than one read, one write or one decision.
-/
namespace SnippetRunner.Machine

open Child (say complain)

/-- What came of a step. A blocked child may name the time at which it can go on. -/
inductive Progress
  | moved (m : Machine)
  | blocked (wake : Option Nat)

/-- The scripts inside a command whose outputs are needed before it is run. -/
def innerScripts : Shell.Command → List String
  | .simple assignments words redirects =>
    words.flatMap Shell.commandsOf ++ (redirects.flatMap fun r => Shell.commandsOf r.target) ++
      (assignments.flatMap fun a => Shell.commandsOf a.2)
  | .forEach _ words _ => words.flatMap Shell.commandsOf
  | .select subject _ => Shell.commandsOf subject
  | _ => []

/-- The line of a script in which so many characters are left, and how many lines are before
it. -/
def lineWith (text : List Char) (left : Nat) : Nat × String :=
  let before := text.take (text.length - left)
  let head := (before.reverse.takeWhile (· != '\n')).reverse
  let tail := (text.drop before.length).takeWhile (· != '\n')
  (before.count '\n', String.ofList (head ++ tail))

def plainToken : Shell.Token → String
  | .mark text =>
    if text.startsWith "<" || text.startsWith ">" then "redirection" else s!"\"{text}\""
  | .word _ => "word"
  | .lineEnd => "newline"

def extendedToken : Shell.Token → String
  | .mark text => text
  | .word text => text
  | .lineEnd => "newline"

/-- What the plain shell says about a text that cannot be read, and how many lines on. -/
def plainComplaint (text : List Char) : Shell.ReadError → Nat × String
  | .unexpected token expected left =>
    let expecting := match expected with
      | some word => s!" (expecting \"{word}\")"
      | none => ""
    ((lineWith text left).1 + (if token == .lineEnd then 1 else 0),
      s!"Syntax error: {plainToken token} unexpected{expecting}")
  | .endOfInput expected =>
    let expecting := match expected with
      | some word => s!" (expecting \"{word}\")"
      | none => ""
    (text.count '\n', s!"Syntax error: end of file unexpected{expecting}")
  | .unclosed .brace left => ((lineWith text left).1, "Syntax error: Missing '\x7d'")
  | .unclosed mark _ =>
    let wording := match mark with
      | .backquote => "EOF in backquote substitution"
      | .bracket => "end of file unexpected (expecting \")\")"
      | .doubleBracket => "Missing '))'"
      | _ => "Unterminated quoted string"
    (text.count '\n', s!"Syntax error: {wording}")
  | .badLoopName token left =>
    ((lineWith text left).1 + (if token == .lineEnd && left > 0 then 1 else 0),
      "Syntax error: Bad for loop variable")
  | .badSubstitution _ => (0, "Bad substitution")

def closingMark : Shell.OpenMark → String
  | .singleQuote => "'"
  | .doubleQuote => "\""
  | .backquote => "\x60"
  | .brace => "\x7d"
  | .bracket => ")"
  | .doubleBracket => ")"

/-- A text between the marks that the extended shell puts around what it shows. -/
def shownByShell (text : String) : String := "\x60" ++ text ++ "'"

/-- The lines that the extended shell writes, each with how many lines on it is. -/
def extendedComplaint (text : List Char) : Shell.ReadError → List (Nat × String)
  | .unexpected token _ left =>
    let (line, shown) := lineWith text left
    [(line, "syntax error near unexpected token " ++ shownByShell (extendedToken token)),
     (line, shownByShell shown)]
  | .endOfInput _ => [(text.count '\n', "syntax error: unexpected end of file")]
  | .unclosed mark left =>
    let line := if mark == .bracket then text.count '\n' else (lineWith text left).1
    [(line, "unexpected EOF while looking for matching " ++ shownByShell (closingMark mark))]
  | .badLoopName (.word text) _ => [(0, shownByShell text ++ ": not a valid identifier")]
  | .badLoopName token left => extendedComplaint text (.unexpected token none left)
  | .badSubstitution body => [(0, "$\x7b" ++ body ++ "\x7d: bad substitution")]
  termination_by e => match e with
    | .badLoopName _ _ => 1
    | _ => 0

/-- What a shell says about the text of a script from its current line on. -/
def syntaxComplaint (c : Child) (text : List Char) (e : Shell.ReadError) : String :=
  let name := c.parameters.headD "sh"
  match c.dialect with
  | .plain =>
    let (lines, wording) := plainComplaint text e
    s!"{name}: {c.line + lines}: {wording}\n"
  | .extended =>
    let name := if c.inline_ then s!"{name}: -c" else name
    String.join ((extendedComplaint text e).map fun (lines, wording) =>
      s!"{name}: line {c.line + lines}: {wording}\n")

def expansionComplaint (c : Child) : Shell.ExpansionError → String
  | .word e => syntaxComplaint c [] e
  | .arithmetic .divisionByZero expression =>
    match c.dialect with
    | .plain => s!"{c.messageHead}arithmetic expression: division by zero: \"{expression}\"\n"
    | .extended => s!"{c.messageHead}{expression}: division by 0 (error token is \"0\")\n"
  | .arithmetic .malformed expression =>
    match c.dialect with
    | .plain =>
      s!"{c.messageHead}arithmetic expression: expecting primary: \"{expression}\"\n"
    | .extended => s!"{c.messageHead}{expression}: syntax error: operand expected\n"

/-- Assignments in order; a later one sees the earlier ones. -/
def expandAssignments (m : Machine) (c : Child) : List (String × Shell.Word) → List String →
    Except Shell.ExpansionError (List (String × String))
  | [], _ => .ok []
  | (name, word) :: rest, outputs => do
    let (value, outputs) ← Shell.expandSingle (c.scope m.tree) word outputs
    return (name, value) :: (← expandAssignments m (c.assign name value) rest outputs)

def expandRedirects (s : Shell.Scope) : List Shell.Redirect → List String →
    Except Shell.ExpansionError (List Redirection × List String)
  | [], outputs => .ok ([], outputs)
  | r :: rest, outputs => do
    let (target, outputs) ← Shell.expandSingle s r.target outputs
    let (more, outputs) ← expandRedirects s rest outputs
    return (⟨r.descriptor, r.kind, target⟩ :: more, outputs)

def selectBranch (s : Shell.Scope) (subject : String) :
    List (List Shell.Word × Shell.Command) → Except Shell.ExpansionError Shell.Command
  | [] => .ok .nothing
  | (patterns, body) :: rest => do
    let texts ← patterns.mapM fun p => do
      let (atoms, _) ← Shell.expandParts s p []
      let field := (Shell.fieldsOf none atoms).flatten
      return Shell.patternOf field
    if texts.any fun p => Text.matchesWildcard p subject then return body
    else selectBranch s subject rest

def perform (m : Machine) (c : Child) (command : Shell.Command) (outputs : List String) :
    Except Shell.ExpansionError Machine := do
  let s := c.scope m.tree
  match command with
  | .simple assignments words redirects => do
    let (fields, outputs) ← Shell.expandWords s words outputs
    let (redirections, outputs) ← expandRedirects s redirects outputs
    let values ← expandAssignments m c assignments outputs
    let c := if fields.isEmpty && (innerScripts command).isEmpty then { c with status := 0 } else c
    return runSimple m c values fields redirections
  | .forEach name words body => do
    let (fields, _) ← Shell.expandWords s words outputs
    return m.put ({ c with status := 0 }.push [.forEach name fields body])
  | .select subject branches => do
    let (subject, _) ← Shell.expandSingle s subject outputs
    let body ← selectBranch s subject branches
    return m.put ({ c with status := 0 }.push [.run body])
  | _ => return m.put c

/-- Gathers the outputs of the scripts inside a command one after the other, then runs it. -/
def evaluate (m : Machine) (c : Child) (command : Shell.Command) (outputs : List String) :
    Machine :=
  match (innerScripts command)[outputs.length]? with
  | some script =>
    let (m, pipe) := m.newPipe []
    let (m, id) := m.fork c [.script script.toList c.line] { c.streams with output := .pipe pipe }
    m.put (c.push [.collect pipe id [] command outputs])
  | none =>
    match perform m c command outputs with
    | .ok m => m
    | .error e =>
      let status := match c.dialect with
        | .plain => 2
        | .extended => 1
      m.put { c with tasks := [complain (expansionComplaint c e), .quit (some status)] }

/-- Starts the stages of a pipeline, each reading what the one before it writes. -/
def startStages (m : Machine) (c : Child) : Channel → List Shell.Command →
    Machine × List Nat
  | _, [] => (m, [])
  | input, [last] =>
    let (m, id) := m.fork c [.run last] { c.streams with input }
    (m, [id])
  | input, stage :: rest =>
    let (m, pipe) := m.newPipe []
    let (m, id) := m.fork c [.run stage] { c.streams with input, output := .pipe pipe }
    let (m, ids) := startStages m c (.pipe pipe) rest
    (m, id :: ids)

def openCompound (m : Machine) (c : Child) (redirects : List Shell.Redirect) :
    Except String (Machine × Streams) := do
  match expandRedirects (c.scope m.tree) redirects [] with
  | .error e => throw (expansionComplaint c e)
  | .ok (redirections, _) => redirect m c redirections c.streams

def unfold (m : Machine) (c : Child) (command : Shell.Command) : Machine :=
  let on (tasks : List Task) : Machine := m.put (c.push tasks)
  let checked := if c.strict then c.push [.check] else c
  match command with
  | .nothing => m.put c
  | .simple .. => evaluate m checked command []
  | .forEach .. => evaluate m c command []
  | .select .. => evaluate m c command []
  | .pipeline stages =>
    let (m, ids) := startStages m c c.streams.input stages
    m.put (checked.push [.await ids])
  | .negated body => m.put (c.pushLenient [.run body] [.negate])
  | .sequence first second => on [.run first, .run second]
  | .ifOk first second => m.put (c.pushLenient [.run first] [.ifOk second])
  | .ifFailed first second => m.put (c.pushLenient [.run first] [.ifFailed second])
  | .background body =>
    let (m, id) := m.fork c [.run body] { c.streams with input := .nothing }
    m.put { c with status := 0, jobs := id :: c.jobs }
  | .grouped body redirects =>
    match openCompound m c redirects with
    | .error text => on [complain text, .finish (redirectStatus c)]
    | .ok (m, streams) => m.put { c.push [.run body, .restore c.streams] with streams }
  | .subshell body redirects =>
    match openCompound m c redirects with
    | .error text => on [complain text, .finish (redirectStatus c)]
    | .ok (m, streams) =>
      let (m, id) := m.fork c [.run body] streams
      m.put (checked.push [.await [id]])
  | .choice condition yes no => m.put (c.pushLenient [.run condition] [.branch yes no])
  | .loop whileOk condition body =>
    m.put (c.pushLenient [.run condition] [.loopTest whileOk condition body 0])
  | .function name body =>
    let functions := (name, body) :: c.functions.filter (·.1 != name)
    m.put { c with functions, status := 0 }

/-- Writes octets on a stream, with what is to be done afterwards. -/
def writeOn (m : Machine) (c : Child) (toError : Bool) (octets : List UInt8) : Progress :=
  let ch := if toError then c.streams.error else c.streams.output
  if octets.isEmpty then .moved (m.put c)
  else
    match m.write ch octets with
    | .taken m left =>
      if left.isEmpty then .moved (m.put c) else .moved (m.put (c.push [.output toError left]))
    | .full => .blocked none
    | .broken => .moved ((m.put c).endChild c.id (.killed 13))

def chunkSize : Nat := 65536

def readOn (m : Machine) (c : Child) (most : Nat) (got : List UInt8 → List Task)
    (atEnd : List Task) : Progress :=
  match m.read c.streams.input most with
  | .octets m octets => .moved (m.put (c.push (got octets)))
  | .ended => .moved (m.put (c.push atEnd))
  | .later => .blocked none

/-- The octets of the first lines, and how many lines are still wanted. -/
def takeLines : Nat → List UInt8 → List UInt8 × Nat
  | 0, _ => ([], 0)
  | n + 1, [] => ([], n + 1)
  | n + 1, b :: rest =>
    let (out, left) := takeLines (if b == 10 then n else n + 1) rest
    (b :: out, left)

def mapOctets (t : OctetMap) (octets : List UInt8) : List UInt8 :=
  (octets.filter fun b => !t.deleted.contains b).map fun b => (t.replaced.lookup b).getD b

def afterGather (filter : Filter) (input : List UInt8) : List Task :=
  match filter with
  | .script => [.script (Text.decodeUtf8 input).toList 1]
  | filter =>
    let (out, status) := applyFilter filter input
    [.output false out, .finish status]

/-- Splits a line into so many fields; the last one takes all that is left. -/
def splitFields : Nat → List Char → List String
  | 0, _ => []
  | 1, cs => [Text.strip (String.ofList cs)]
  | n + 2, cs =>
    let cs := cs.dropWhile Shell.isSpace
    let field := cs.takeWhile fun c => !Shell.isSpace c
    String.ofList field :: splitFields (n + 1) (cs.drop field.length)

def assignLine (c : Child) (names : List String) (line : List UInt8) (status : Nat) : Child :=
  let names := if names.isEmpty then ["REPLY"] else names
  let fields := splitFields names.length (Text.decodeUtf8 line).toList
  let c := (names.zip fields).foldl (fun c p => c.assign p.1 p.2) c
  { c with status }

/-- Children that have ended and have been waited for are forgotten. -/
def forget (m : Machine) (ids : List Nat) : Machine :=
  { m with children := m.children.filter fun c => !ids.contains c.id }

def allEnded (m : Machine) (ids : List Nat) : Bool :=
  m.children.all fun c => !ids.contains c.id || !isLive c

def endingOf (m : Machine) (id : Nat) : Option Ending :=
  (m.find? id).bind (·.ending)

/-- Goes on after the awaited children have ended, the last of which gives the status. -/
def afterAwait (m : Machine) (c : Child) (ids : List Nat) : Machine :=
  let ending := (ids.getLast?.bind m.endingOf).getD (.exited 127)
  let notice : List Task := match ending, c.dialect with
    | .killed signal, .plain => (signalWording signal).toList.map fun w => complain (w ++ "\n")
    | _, _ => []
  (m.forget ids).put { c.push notice with status := ending.status }

/-- Carries out the first task of a child; `c` holds the tasks after it. -/
def step (m : Machine) (c : Child) (t : Task) : Progress :=
  let on (tasks : List Task) : Progress := .moved (m.put (c.push tasks))
  match t with
  | .script text line =>
    let rest := Shell.skipLines text.length text
    if rest.isEmpty then .moved (m.put c)
    else
      match Shell.readNext rest with
      | .error e =>
        let complaint := syntaxComplaint { c with line } text e
        .moved (m.put { c with tasks := [complain complaint, .quit (some 2)] })
      | .ok (command, after) =>
        let linesIn (n : Nat) : Nat := (text.take (text.length - n)).count '\n'
        let c := { c with line := line + linesIn rest.length }
        .moved (m.put (c.push [.run command, .script after (line + linesIn after.length)]))
  | .run command => .moved (unfold m c command)
  | .evaluate command outputs => .moved (evaluate m c command outputs)
  | .collect pipe id read command outputs =>
    match m.read (.pipe pipe) chunkSize with
    | .octets m octets =>
      .moved (m.put (c.push [.collect pipe id (octets :: read) command outputs]))
    | .later => .blocked none
    | .ended =>
      if m.allEnded [id] then
        let status := ((m.endingOf id).getD (.exited 0)).status
        let text := Text.decodeUtf8 (read.reverse.flatten.filter (· != 0))
        let c := { c with status }
        .moved ((m.forget [id]).put (c.push [.evaluate command (outputs ++ [text])]))
      else .blocked none
  | .ifOk command => if c.status == 0 then on [.run command] else .moved (m.put c)
  | .ifFailed command => if c.status == 0 then .moved (m.put c) else on [.run command]
  | .negate => .moved (m.put { c with status := if c.status == 0 then 1 else 0 })
  | .check => if c.strict && c.status != 0 then on [.quit none] else .moved (m.put c)
  | .strictly strict => .moved (m.put { c with strict })
  | .branch yes no =>
    let ok := c.status == 0
    .moved (m.put ({ c with status := 0 }.push [.run (if ok then yes else no)]))
  | .loopTest whileOk condition body status =>
    if (c.status == 0) == whileOk then on [.run body, .loopAgain whileOk condition body]
    else .moved (m.put { c with status })
  | .loopAgain whileOk condition body =>
    .moved (m.put
      (c.pushLenient [.run condition] [.loopTest whileOk condition body c.status]))
  | .forEach _ [] _ => .moved (m.put c)
  | .forEach name (w :: ws) body =>
    .moved (m.put ((c.assign name w).push [.run body, .forEach name ws body]))
  | .restore streams => .moved (m.put { c with streams })
  | .leave parameters => .moved (m.put { c with parameters })
  | .await ids => if m.allEnded ids then .moved (m.afterAwait c ids) else .blocked none
  | .awaitAll =>
    if m.allEnded c.jobs then .moved ((m.forget c.jobs).put { c with status := 0 })
    else .blocked none
  | .output toError octets => writeOn m c toError octets
  | .finish status => .moved (m.put { c with status })
  | .quit status =>
    let status := status.getD c.status % 256
    match c.traps.lookup 0 with
    | some action =>
      let traps := c.traps.filter (·.1 != 0)
      let c := { c with traps, status, tasks := [] }
      .moved (m.put (c.push [.script action.toList c.line, .quit (some status)]))
    | none => .moved (m.endChild c.id (.exited status))
  | .sleep until_ => if until_ ≤ m.clock then .moved (m.put c) else .blocked (some until_)
  | .copyInput copies =>
    match m.read c.streams.input chunkSize with
    | .octets m octets =>
      let m := copies.foldl (fun m ch => copyTo m ch octets) m
      .moved (m.put (c.push [.output false octets, .copyInput copies]))
    | .ended => .moved (m.put c)
    | .later => .blocked none
  | .headOctets left =>
    if left == 0 then on [.quit (some 0)]
    else
      readOn m c (min left chunkSize)
        (fun octets => [.output false octets, .headOctets (left - octets.length)])
        [.quit (some 0)]
  | .headLines left =>
    if left == 0 then on [.quit (some 0)]
    else
      readOn m c chunkSize
        (fun octets =>
          let (out, left) := takeLines left octets
          [.output false out, .headLines left])
        [.quit (some 0)]
  | .mapInput map =>
    readOn m c chunkSize
      (fun octets => [.output false (mapOctets map octets), .mapInput map])
      []
  | .gather read filter =>
    match m.read c.streams.input chunkSize with
    | .octets m octets => .moved (m.put (c.push [.gather (octets :: read) filter]))
    | .ended => on (afterGather filter read.reverse.flatten)
    | .later => .blocked none
  | .always octets => on [.output false octets, .always octets]
  | .readLine names read =>
    match m.read c.streams.input 1 with
    | .octets m (b :: _) =>
      if b == 10 then .moved (m.put (assignLine c names read.reverse 0))
      else .moved (m.put (c.push [.readLine names (b :: read)]))
    | .octets m [] => .moved (m.put c)
    | .ended => .moved (m.put (assignLine c names read.reverse 1))
    | .later => .blocked none
where
  copyTo (m : Machine) (ch : Channel) (octets : List UInt8) : Machine :=
    match m.write ch octets with
    | .taken m _ => m
    | _ => m

/-- How many steps a child makes before the next one has its turn. -/
def turnLength : Nat := 64

/-- Lets a child make some steps. Answers whether it moved, and when it can go on. -/
def turn : Nat → Machine → Nat → Bool → Machine × Bool × Option Nat
  | 0, m, _, moved => (m, moved, none)
  | fuel + 1, m, id, moved =>
    match m.find? id with
    | none => (m, moved, none)
    | some c =>
      if !isLive c then (m, moved, none)
      else
        match c.tasks with
        | [] => turn fuel (m.put { c with tasks := [.quit none] }) id true
        | t :: rest =>
          match step m { c with tasks := rest } t with
          | .moved m => turn fuel m id true
          | .blocked wake => (m, moved, wake)

def soonest (a b : Option Nat) : Option Nat :=
  match a, b with
  | some x, some y => some (min x y)
  | some x, none => some x
  | none, y => y

def round (m : Machine) : Machine × Bool × Option Nat :=
  m.children.foldl
    (fun acc c =>
      let (m, moved, wake) := turn turnLength acc.1 c.id false
      (m, acc.2.1 || moved, soonest acc.2.2 wake))
    (m, false, none)

/-- So many rounds take a millisecond. -/
def roundsPerTick : Nat := 20

def beat (m : Machine) : Machine :=
  if m.beats + 1 < roundsPerTick then { m with beats := m.beats + 1 }
  else { m with beats := 0, clock := m.clock + 1 }

/-- Runs all children until one of some has ended or a time has come. When all are blocked,
the clock moves to the time at which one of them goes on. -/
def advance : Nat → Machine → List Nat → Nat → Machine
  | 0, m, _, _ => m
  | fuel + 1, m, ids, limit =>
    if limit ≤ m.clock || ids.any (fun id => (m.endingOf id).isSome) then m
    else
      let (m, moved, wake) := m.round
      if moved then advance fuel m.beat ids limit
      else
        let clock := min limit (max (m.clock + 1) (wake.getD limit))
        advance fuel { m with clock } ids limit

/-- Every round moves the clock or is one of the few that make up a tick. -/
def runUntil (m : Machine) (ids : List Nat) (limit : Nat) : Machine :=
  advance (roundsPerTick * (limit - m.clock) + roundsPerTick) m ids limit

end SnippetRunner.Machine
