import SnippetRunner.Log
import SnippetRunner.Selection.Resolve

/-!
What there is to tell about the resolution of a request, for the log.
-/
namespace SnippetRunner.Selection

def logName : String := "snipexec.resolver.context"

def Resolution.sourcePath (r : Resolution) : Path :=
  ((r.snippet.ofProvenance .selection).head?.map (·.origin)).getD .current

/-- Why the project was not searched, or which of its files were passed over. -/
def Resolution.searchNotes (r : Resolution) : List String :=
  if !r.snippet.level.atLeast .project then []
  else
    match r.snippet.projectRoot with
    | none => [s!"No project root above {r.sourcePath}"]
    | some _ => r.passedOver.map fun p => s!"Skipping project file {p.1}: {p.2.message}"

def Resolution.missNotes (r : Resolution) : List String :=
  if r.snippet.misses.isEmpty || !r.snippet.level.atLeast .bloc then []
  else
    let names := String.intercalate ", " (r.snippet.misses.map (·.symbol))
    [s!"Unresolved in {r.sourcePath}: {names}"]

def Resolution.notes (r : Resolution) : List LogEntry :=
  (r.searchNotes ++ r.missNotes).map fun text => ⟨logName, .debug, text⟩

end SnippetRunner.Selection
