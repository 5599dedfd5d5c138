import SnippetRunner.FileTree.RealPath
import SnippetRunner.Json.Reader
import SnippetRunner.Language.Level
import SnippetRunner.Text.Ascii

/-!
Everything that can go wrong, as causes. Some failures are reported to the user by their
name; any other one is internal to the operation that met it. Each cause has one wording.
-/
namespace SnippetRunner

inductive RequestFault
  | badRange (first last : Int)
  | pastEnd (line : Int) (path : Path) (count : Nat)
  | noRequest (job : String)
  deriving DecidableEq, Repr

inductive SourceFault
  | missing (path : Path)
  | unreadable (path : Path) (fault : FileFault)
  deriving DecidableEq, Repr

inductive WorkspaceFault
  | create (path : Path) (fault : FileFault)
  | write (path : Path) (fault : FileFault)
  | remove (path : Path) (fault : FileFault)
  deriving DecidableEq, Repr

inductive BackendFault
  | notStarted (handle : String)
  | exited (handle : String) (status : String)
  | exitedAtStart (handle : String) (status : String)
  | notReady (handle : String) (last : String)
  | refused (handle path reason : String)
  | silent (handle reason : String)
  deriving DecidableEq, Repr

inductive SettingFault
  | notInteger (name value : String)
  | negative (name value : String)
  | badPair (item : String)
  | unknownLogLevel (name : String)
  deriving DecidableEq, Repr

inductive GlobFault
  | empty
  | absolute
  | partialStars
  | onlyDot
  /-- A pattern that ends with a slash and names nothing before it. -/
  | onlySlash
  deriving DecidableEq, Repr

inductive AnswerFault
  | missingKey (key : String)
  | notIndexable (kind : String)
  | notSubscriptable (kind : String)
  | textIndex
  deriving DecidableEq, Repr

inductive Failure
  | unsupportedLanguage (name : String)
  | invalidRequest (fault : RequestFault)
  | sourceUnavailable (fault : SourceFault)
  | workspaceFailed (fault : WorkspaceFault)
  | spawnFailed (command reason : String)
  | backendUnreachable (fault : BackendFault)
  | template (fault : Text.TemplateError)
  | level (fault : LevelError)
  | setting (fault : SettingFault)
  | glob (fault : GlobFault)
  | file (fault : FileFault)
  | linkLoop (path : Path)
  | noHome
  | noName (path : Path)
  | emptyCommand
  | noInterpreter (language : String)
  | infiniteNumber
  | answer (fault : AnswerFault)
  | notJson (fault : Json.ReadFailure) (text : String)
  /-- A text that cannot be the value of a header. -/
  | header (fault : Text.AsciiFault)
  /-- An address that cannot be read. -/
  | address (reason : String)
  deriving DecidableEq, Repr

namespace RequestFault

def message : RequestFault → String
  | .badRange first last => s!"Invalid line range {first}-{last}"
  | .pastEnd line path count => s!"Line {line} is past the end of {path} ({count} lines)"
  | .noRequest job => s!"Run job {job} carries no request"

end RequestFault

namespace SourceFault

def message : SourceFault → String
  | .missing path => s!"File not found: {path} (save the buffer before running)"
  | .unreadable path fault => s!"Cannot read {path}: {fault.message}"

end SourceFault

namespace WorkspaceFault

def message : WorkspaceFault → String
  | .create path fault => s!"Cannot create work directory {path}: {fault.message}"
  | .write path fault => s!"Cannot write {path}: {fault.message}"
  | .remove path fault => s!"Cannot remove {path}: {fault.message}"

end WorkspaceFault

namespace BackendFault

def message : BackendFault → String
  | .notStarted handle => s!"No backend started for {handle}"
  | .exited handle status => s!"Backend {handle} exited with status {status}"
  | .exitedAtStart handle status =>
    s!"Backend {handle} exited during startup with status {status}"
  | .notReady handle last => s!"Backend {handle} not ready: {last}"
  | .refused handle path reason => s!"Backend {handle} did not accept {path}: {reason}"
  | .silent handle reason => s!"Backend {handle} did not answer: {reason}"

end BackendFault

namespace SettingFault

def message : SettingFault → String
  | .notInteger name value => s!"Invalid integer for {name}: {value}"
  | .negative name value => s!"{name} must not be negative: {value}"
  | .badPair item => s!"Invalid SNIPEXEC_TOOLCHAIN entry: {Text.quote item}"
  | .unknownLogLevel name => s!"Unknown level: {Text.quote name}"

end SettingFault

namespace GlobFault

def message : GlobFault → String
  | .empty => "Unacceptable pattern: ''"
  | .absolute => "Non-relative patterns are unsupported"
  | .partialStars => "Invalid pattern: '**' can only be an entire path component"
  | .onlyDot => "tuple index out of range"
  | .onlySlash => "'_TerminatingSelector' object has no attribute 'select_from'"

end GlobFault

namespace AnswerFault

def message : AnswerFault → String
  | .missingKey key => Text.quote key
  | .notIndexable kind => s!"{kind} indices must be integers or slices, not str"
  | .notSubscriptable kind => s!"'{kind}' object is not subscriptable"
  | .textIndex => "string indices must be integers, not 'str'"

end AnswerFault

namespace Failure

def templateMessage : Text.TemplateError → String
  | .malformed reason => reason
  | .unknownSlot name => Text.quote name
  | .unnumbered index =>
    s!"Replacement index {index} out of range for positional args tuple"
  | .noSuchCharacter => "string index out of range"
  | .badIndex => "string indices must be integers, not 'str'"
  | .noSuchField name => s!"'str' object has no attribute {Text.quote name}"
  | .tooWide => ""

def message : Failure → String
  | .unsupportedLanguage name =>
    "Unsupported language: " ++ (if name == "" then "<unknown>" else name)
  | .invalidRequest fault => fault.message
  | .sourceUnavailable fault => fault.message
  | .workspaceFailed fault => fault.message
  | .spawnFailed command reason => s!"Unable to start {command}: {reason}"
  | .backendUnreachable fault => fault.message
  | .template fault => templateMessage fault
  | .level fault => fault.message
  | .setting fault => fault.message
  | .glob fault => fault.message
  | .file fault => fault.message
  | .linkLoop path => s!"Symlink loop from {Text.quote path.toString}"
  | .noHome => "Could not determine home directory."
  | .noName path => s!"PosixPath({Text.quote path.toString}) has an empty name"
  | .emptyCommand => "list index out of range"
  | .noInterpreter language => Text.quote language
  | .infiniteNumber => "cannot convert float infinity to integer"
  | .answer fault => fault.message
  | .notJson fault text => fault.message text
  | .header fault => fault.message
  | .address reason => reason

/-- The name under which a failure is reported; internal ones have none. -/
def reportName? : Failure → Option String
  | .unsupportedLanguage _ => some "UnsupportedLanguage"
  | .invalidRequest _ => some "InvalidRequest"
  | .sourceUnavailable _ => some "SourceUnavailable"
  | .workspaceFailed _ => some "WorkspaceIOFailed"
  | .spawnFailed _ _ => some "ProcessSpawnFailed"
  | .backendUnreachable _ => some "BackendUnreachable"
  | _ => none

def ofResolve : FileTree.ResolveError → Failure
  | .nullByte => .file (.at_ .nullByte "")
  | .loopAt path => .linkLoop path

def ofFile (path : Path) (e : FileError) : Failure :=
  .file (.at_ e path.toString)

end Failure

end SnippetRunner
