import SnippetRunner.CommandLine.Run
import SnippetRunner.FileTree.Plant
import SnippetRunner.Machine.System
import SnippetRunner.Network.Script

/-!
The program. It is called on a machine of its own, which starts with a bare system, the files
that the arguments name, and the variables that settings are read from.
-/
namespace SnippetRunner.Program

def variableNames : List String :=
  ["PATH", "HOME", "XDG_CACHE_HOME"] ++
    ["HOME", "WORK_DIR", "LOG_LEVEL", "LOG_FILE", "API_KEY", "HOST", "PORT",
     "MAX_EXECUTION_SECONDS", "MAX_OUTPUT_BYTES", "CLEAN_SETTLE_MS", "ROOT_SEARCH_DEPTH",
     "PROJECT_MAX_DEPTH", "PROJECT_MAX_FILES", "LIBRARY_PATHS", "TOOLCHAIN", "FALLBACK_URL",
     "FALLBACK_TIMEOUT", "OUTPUT_HISTORY"].map ("SNIPEXEC_" ++ ·)

def readEnvironment : IO Environment :=
  variableNames.filterMapM fun name => do
    return (← IO.getEnv name).map fun value => (name, value)

def loadFile (cwd : Path) (tree : FileTree) (name : String) : IO FileTree := do
  try
    let octets ← IO.FS.readBinFile name
    return (tree.plant cwd.parts (.ofString name) (.octets octets.toList)).toOption.getD tree
  catch _ => return tree

/-- The lines of a stream. -/
partial def readLines (stream : IO.FS.Stream) : IO (List String) := do
  let line ← stream.getLine
  if line.isEmpty then return []
  return line :: (← readLines stream)

def settle (s : Server) : Server := (s.waitIdle none).1

/-- How deep the values of a line may be inside each other. -/
def lineDepth : Nat := 989

def run (args : List String) : IO UInt32 := do
  let cwd := Path.ofString (← IO.currentDir).toString
  let env ← readEnvironment
  let tree := (Machine.systemTree.makeDirectories [] cwd).1
  let tree ← args.foldlM (loadFile cwd) tree
  let lines ← if args.contains "--stdio" then readLines (← IO.getStdin) else pure []
  let host : Host := { machine := .start tree, cwd := cwd.parts, env, wire := .down }
  let report := CommandLine.call (.standard lineDepth) settle args host lines
  report.output.forM IO.print
  IO.eprint report.host.log.errorText
  match report.result with
  | .ok code => return code.toNat.toUInt32
  | .error failure =>
    IO.eprintln failure.message
    return 1

end SnippetRunner.Program

def main (args : List String) : IO UInt32 := SnippetRunner.Program.run args
