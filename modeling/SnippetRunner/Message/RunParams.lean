import SnippetRunner.Message.Field
import SnippetRunner.Selection.Snippet

/-!
The parameters of a request to run something, by name or in a fixed order. All faults are
found at once, in the order of the fields.
-/
namespace SnippetRunner.Message

structure RunParams where
  file : String
  firstLine : Int
  lastLine : Int
  scriptDir : String := "."
  filetype : Option String := none
  /-- The name of a level, in any case. -/
  level : Option String := none
  deriving DecidableEq, Repr

namespace RunParams

def order : List String :=
  ["file", "first_line", "last_line", "script_dir", "filetype", "level"]

def readLevel : Reading String := fun v => do
  let word ← readText v
  match Level.ofWord word with
  | .ok _ => return word
  | .error fault => throw (.level fault)

def ofMembers (ms : Members) : Checked RunParams :=
  let file := required ms "file" readText
  let first := required ms "first_line" (readAtLeast 1)
  let last := required ms "last_line" (readAtLeast 1)
  let directory := defaulted ms "script_dir" "." readText
  let filetype := defaulted ms "filetype" none (orNull readText)
  let level := defaulted ms "level" none (orNull readLevel)
  match file, first, last, directory, filetype, level with
  | .ok file, .ok firstLine, .ok lastLine, .ok scriptDir, .ok filetype, .ok level =>
    .ok ⟨file, firstLine, lastLine, scriptDir, filetype, level⟩
  | _, _, _, _, _, _ =>
    .error (faultsOf file ++ faultsOf first ++ faultsOf last ++ faultsOf directory ++
      faultsOf filetype ++ faultsOf level)

def ofJson : Json → Checked RunParams
  | .obj ms => ofMembers ms
  | _ => .error [⟨[], .instance_ "RunParams"⟩]

def toRequest (p : RunParams) : RunRequest where
  file := .ofString p.file
  first := p.firstLine
  last := p.lastLine
  scriptDir := .ofString p.scriptDir
  filetype := p.filetype
  level := p.level.bind fun word => (Level.ofWord word).toOption

end RunParams

end SnippetRunner.Message
