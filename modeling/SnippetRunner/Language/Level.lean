import SnippetRunner.Text.Blank
import SnippetRunner.Text.Case

/-!
Support levels. They are ordered, and each one offers what the one below it does and more:
nothing, a single line, a block, a block with the imports of its file, with the definitions
of its file, with those of its project, and with the libraries of the system.
-/
namespace SnippetRunner

inductive Level
  | unsupported
  | line
  | bloc
  | import_
  | file
  | project
  | system
  deriving DecidableEq, Repr

inductive LevelError
  | unknownWord (word : String)
  | unknownNumber (n : Int)
  deriving DecidableEq, Repr

namespace Level

def all : List Level := [.unsupported, .line, .bloc, .import_, .file, .project, .system]

def rank : Level → Nat
  | .unsupported => 0
  | .line => 1
  | .bloc => 2
  | .import_ => 3
  | .file => 4
  | .project => 5
  | .system => 6

def name : Level → String
  | .unsupported => "UNSUPPORTED"
  | .line => "LINE"
  | .bloc => "BLOC"
  | .import_ => "IMPORT"
  | .file => "FILE"
  | .project => "PROJECT"
  | .system => "SYSTEM"

def atLeast (l bound : Level) : Bool :=
  bound.rank ≤ l.rank

/-- The lower of two levels; the first of equals. -/
def lower (a b : Level) : Level :=
  if a.rank ≤ b.rank then a else b

def ofRank? (n : Int) : Option Level :=
  all.find? fun l => (l.rank : Int) == n

def ofName? (name : String) : Option Level :=
  all.find? fun l => l.name == name

def ofNumber (n : Int) : Except LevelError Level :=
  match ofRank? n with
  | some l => .ok l
  | none => .error (.unknownNumber n)

/-- Reads a level from its name in any case and with blanks around it. -/
def ofWord (word : String) : Except LevelError Level :=
  match ofName? (Text.upper (Text.strip word)) with
  | some l => .ok l
  | none => .error (.unknownWord word)

end Level

def LevelError.message : LevelError → String
  | .unknownWord word => s!"Unknown support level: {word}"
  | .unknownNumber n => s!"{n} is not a valid SupportLevel"

end SnippetRunner
