import SnippetRunner.Selection.Snippet
import SnippetRunner.Text.Template

/-!
The text of the main file of a snippet: the language's template with the imports, the
definitions and the selected code in its slots. Imports that differ only in blanks around
them are written once. The directories in which the program may look for modules are the
one of the selection and the root of the project.
-/
namespace SnippetRunner.Snippet

/-- Imports, those that are always there first, each once. -/
def importBlock (s : Snippet) : List String :=
  go (s.descriptor.defaultImports.map Text.strip) ((s.ofProvenance .import_).map (·.text))
    s.descriptor.defaultImports
where
  go (known : List String) : List String → List String → List String
    | [], kept => kept
    | text :: rest, kept =>
      let key := Text.strip text
      if known.contains key then go known rest kept else go (key :: known) rest (kept ++ [text])

def isCopied (f : Fragment) : Bool :=
  match f.provenance with
  | .projectScope => f.relativePath.isNone
  | .fileScope => true
  | _ => false

def definitionBlock (s : Snippet) : List String :=
  (s.fragments.filter isCopied).map (·.text)

def render (s : Snippet) : Except Failure String :=
  (Text.fillTemplate s.descriptor.template
    [("imports", Text.joinLines s.importBlock),
     ("definitions", String.intercalate "\n\n" s.definitionBlock),
     ("body", s.code)]).mapError .template

def searchPaths (site : Site) (s : Snippet) : Except Failure (List Path) := do
  let candidates := (s.ofProvenance .selection).map (·.origin.parent) ++ s.projectRoot.toList
  let real ← candidates.mapM site.resolve
  return real.eraseDups

end SnippetRunner.Snippet
