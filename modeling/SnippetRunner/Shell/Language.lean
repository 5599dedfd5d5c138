/-!
The command language of shell scripts. A script is a list of commands; a command is a simple
one, a pipeline, a choice, a loop or a group, and a simple one is made of assignments, words
and redirections. A word is made of pieces: plain and quoted text, and things to be expanded
when the command is run.
-/
namespace SnippetRunner.Shell

/-- What is done to the value of a parameter. Texts are expanded when they are used. -/
inductive ParameterUse
  | value
  | length
  | orElse (ifEmpty : Bool) (text : String)
  | andThen (ifEmpty : Bool) (text : String)
  | withoutTail (longest : Bool) (pattern : String)
  | withoutHead (longest : Bool) (pattern : String)
  deriving DecidableEq, Repr

inductive WordPart
  | plain (text : String)
  | quoted (text : String)
  | parameter (name : String) (use : ParameterUse) (inQuotes : Bool)
  | command (script : String) (inQuotes : Bool)
  | arithmetic (expression : String) (inQuotes : Bool)
  deriving DecidableEq, Repr

abbrev Word := List WordPart

/-- A document is an input that is written in the script itself. -/
inductive RedirectKind
  | input
  | output
  | append
  | duplicate
  | document
  deriving DecidableEq, Repr

structure Redirect where
  descriptor : Nat
  kind : RedirectKind
  target : Word
  deriving DecidableEq, Repr

inductive Command
  | nothing
  | simple (assignments : List (String × Word)) (words : List Word) (redirects : List Redirect)
  | pipeline (stages : List Command)
  | negated (body : Command)
  | sequence (first second : Command)
  | ifOk (first second : Command)
  | ifFailed (first second : Command)
  | background (body : Command)
  | grouped (body : Command) (redirects : List Redirect)
  | subshell (body : Command) (redirects : List Redirect)
  | choice (condition yes no : Command)
  | loop (whileOk : Bool) (condition body : Command)
  | forEach (name : String) (words : List Word) (body : Command)
  | select (subject : Word) (branches : List (List Word × Command))
  | function (name : String) (body : Command)
  deriving Repr, Inhabited

end SnippetRunner.Shell
