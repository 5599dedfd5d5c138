import SnippetRunner.Duration
import SnippetRunner.Failure
import SnippetRunner.Text.Case

/-!
Settings from the environment. Every setting has a variable and a default; an empty number
counts as not given, and numbers are never negative. Toolchain entries name a program and
its replacement with an equals sign between them, separated by commas.
-/
namespace SnippetRunner

abbrev Environment := List (String × String)

structure Settings where
  home : Path
  workDir : Path
  logLevel : String := "INFO"
  logFile : Option Path := none
  apiKey : String := ""
  host : String := "127.0.0.1"
  port : Int := 8765
  timeLimit : Duration := Duration.none
  maxOutputBytes : Int := 1048576
  cleanSettleMs : Nat := 300
  rootSearchDepth : Int := 10
  projectMaxDepth : Int := 6
  projectMaxFiles : Int := 200
  libraryPaths : List Path := []
  toolchain : List (String × String) := []
  fallbackUrl : Option String := none
  fallbackTimeout : Int := 30
  outputHistory : Int := 50
  deriving Repr

namespace Environment

def nonEmpty? (env : Environment) (name : String) : Option String :=
  match env.lookup name with
  | some value => if value == "" then none else some value
  | none => none

def assign (env : Environment) (name value : String) : Environment :=
  if env.any (·.1 == name) then
    env.map fun e => if e.1 == name then (name, value) else e
  else env ++ [(name, value)]

end Environment

namespace Settings

def outputFile (s : Settings) : Path :=
  s.home.child "last_output.json"

def cutAt (sep : Char) (s : String) : Option (String × String) :=
  let cs := s.toList
  match cs.dropWhile (· != sep) with
  | [] => none
  | _ :: after => some (String.ofList (cs.takeWhile (· != sep)), String.ofList after)

def parsePair (item : String) : Except SettingFault (String × String) :=
  match cutAt '=' item with
  | none => .error (.badPair item)
  | some (name, path) =>
    let name := Text.strip name
    let path := Text.strip path
    if name == "" || path == "" then .error (.badPair item) else .ok (name, path)

def isBlankText (s : String) : Bool :=
  Text.strip s == ""

/-- The last replacement of a name counts; blank entries are passed over. -/
def parsePairs (value : String) : Except SettingFault (List (String × String)) :=
  ((Text.splitAt ',' value).filter fun item => !isBlankText item).foldlM
    (fun pairs item => do
      let (name, path) ← parsePair item
      return Environment.assign pairs name path)
    []

/-- A number that is not negative, or the default when none is given. -/
def readNumber (env : Environment) (name : String) (default_ : Nat) :
    Except SettingFault Nat :=
  match env.nonEmpty? name with
  | none => .ok default_
  | some value =>
    match Text.parseInteger value with
    | .error _ => .error (.notInteger name value)
    | .ok n => if n < 0 then .error (.negative name value) else .ok n.toNat

def homeDirectory (env : Environment) : String :=
  match env.lookup "HOME" with
  | some home =>
    let stripped := Text.stripSlashes home
    if stripped == "" then "/" else stripped
  | none => "/root"

def userHome? (env : Environment) (user : String) : Option String :=
  if user == "" then some (homeDirectory env)
  else if user == "root" then some "/root"
  else none

/-- A path with a tilde at its head replaced by a home directory. -/
def expandUser (env : Environment) (p : Path) : Except Failure Path :=
  match p.anchor, p.parts with
  | .here, head :: rest =>
    match head.toList with
    | '~' :: user =>
      match userHome? env (String.ofList user) with
      | some home =>
        if home.startsWith "~" then .error .noHome
        else
          let base := Path.ofString home
          .ok ⟨base.anchor, base.parts ++ rest⟩
      | none => .error .noHome
    | _ => .ok p
  | _, _ => .ok p

def defaultHome (env : Environment) : Except Failure Path := do
  match env.nonEmpty? "XDG_CACHE_HOME" with
  | some cache => return (Path.ofString cache).child "snipexec"
  | none =>
    let home ← expandUser env (Path.ofString "~")
    return (home.child ".cache").child "snipexec"

def pathFrom (env : Environment) (name : String) (default_ : Path) : Path :=
  match env.nonEmpty? name with
  | some value => Path.ofString value
  | none => default_

def ofEnvironment (env : Environment) : Except Failure Settings := do
  let number (name : String) (default_ : Nat) : Except Failure Nat :=
    (readNumber env name default_).mapError .setting
  let home ← match env.nonEmpty? "SNIPEXEC_HOME" with
    | some value => pure (Path.ofString value)
    | none => defaultHome env
  let workDir := pathFrom env "SNIPEXEC_WORK_DIR" (home.child "work")
  let logFile := pathFrom env "SNIPEXEC_LOG_FILE" (home.child "snipexec.log")
  let libraryDirs := (Text.splitAt ':' ((env.lookup "SNIPEXEC_LIBRARY_PATHS").getD "")).filter
    fun p => !isBlankText p
  let port ← number "SNIPEXEC_PORT" 8765
  let seconds ← number "SNIPEXEC_MAX_EXECUTION_SECONDS" 0
  let maxOutputBytes ← number "SNIPEXEC_MAX_OUTPUT_BYTES" 1048576
  let cleanSettleMs ← number "SNIPEXEC_CLEAN_SETTLE_MS" 300
  let rootSearchDepth ← number "SNIPEXEC_ROOT_SEARCH_DEPTH" 10
  let projectMaxDepth ← number "SNIPEXEC_PROJECT_MAX_DEPTH" 6
  let projectMaxFiles ← number "SNIPEXEC_PROJECT_MAX_FILES" 200
  let toolchain ← (parsePairs ((env.lookup "SNIPEXEC_TOOLCHAIN").getD "")).mapError .setting
  let fallbackTimeout ← number "SNIPEXEC_FALLBACK_TIMEOUT" 30
  let outputHistory ← number "SNIPEXEC_OUTPUT_HISTORY" 50
  return {
    home, workDir
    logLevel := Text.upper ((env.lookup "SNIPEXEC_LOG_LEVEL").getD "INFO")
    logFile := some logFile
    apiKey := (env.lookup "SNIPEXEC_API_KEY").getD ""
    host := (env.lookup "SNIPEXEC_HOST").getD "127.0.0.1"
    port, timeLimit := Duration.ofSeconds seconds
    maxOutputBytes, cleanSettleMs, rootSearchDepth
    projectMaxDepth, projectMaxFiles
    libraryPaths := libraryDirs.map Path.ofString
    toolchain
    fallbackUrl := env.nonEmpty? "SNIPEXEC_FALLBACK_URL"
    fallbackTimeout, outputHistory }

end Settings

end SnippetRunner
