import SnippetRunner.Language.BuiltIn
import SnippetRunner.Path

/-!
Looking languages up. A catalog knows descriptors by identifier and filetypes by extension;
the case of an identifier and blanks around it do not matter. Of several descriptors with
one identifier the last counts, of several with one extension the first.
-/
namespace SnippetRunner

structure Catalog where
  byIdentifier : List (String × Descriptor)
  byExtension : List (String × String)
  fallback : List (String × String)
  deriving Repr

namespace Catalog

/-- Sets a key in place if it is there, at the end if it is not. -/
def assign {α : Type} (table : List (String × α)) (key : String) (value : α) :
    List (String × α) :=
  if table.any (·.1 == key) then
    table.map fun e => if e.1 == key then (key, value) else e
  else table ++ [(key, value)]

def assignNew {α : Type} (table : List (String × α)) (key : String) (value : α) :
    List (String × α) :=
  if table.any (·.1 == key) then table else table ++ [(key, value)]

def addIdentifiers (table : List (String × Descriptor)) (d : Descriptor) :
    List (String × Descriptor) :=
  d.identifiers.foldl (fun t ident => assign t (Text.lower ident) d) table

def ofDescriptors (languages : List Descriptor) (fallback : List (String × String)) : Catalog where
  byIdentifier := languages.foldl addIdentifiers []
  byExtension :=
    languages.foldl (fun t d => assignNew t d.extension d.name) Language.extraExtensions
  fallback := fallback

def standard : Catalog :=
  ofDescriptors Language.builtIn Language.fallbackNames

def descriptors (k : Catalog) : List Descriptor :=
  (k.byIdentifier.map (·.2)).eraseDups

def key (filetype : Option String) : String :=
  Text.lower (Text.strip (filetype.getD ""))

def lookup? (k : Catalog) (filetype : Option String) : Option Descriptor :=
  k.byIdentifier.lookup (key filetype)

def levelOf (k : Catalog) (filetype : Option String) : Level :=
  match k.lookup? filetype with
  | some d => d.level
  | none => .unsupported

def fallbackName? (k : Catalog) (filetype : Option String) : Option String :=
  k.fallback.lookup (key filetype)

/-- The filetype that a file extension suggests; empty when there is none. -/
def detect (k : Catalog) (p : Path) : String :=
  (k.byExtension.lookup (Text.lower p.suffix)).getD ""

end Catalog

end SnippetRunner
