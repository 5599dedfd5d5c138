import SnippetRunner.Text.Quoted

/-!
Why an operation on the file tree fails. Every cause but two has a number and a wording of
its own and is reported with the path it concerns; a path with a NUL cannot be passed to the
file tree at all, and a link at the top of a tree is not removed through.
-/
namespace SnippetRunner

inductive FileError
  | noEntry
  | badExecutable
  | access
  | entryExists
  | notDirectory
  | isDirectory
  | nameTooLong
  | notEmpty
  | linkLoop
  | unreachable
  | nullByte
  | linkAtTop
  deriving DecidableEq, Repr

namespace FileError

def number : FileError → Nat
  | .noEntry => 2
  | .badExecutable => 8
  | .access => 13
  | .entryExists => 17
  | .notDirectory => 20
  | .isDirectory => 21
  | .nameTooLong => 36
  | .notEmpty => 39
  | .linkLoop => 40
  | .unreachable => 101
  | .nullByte => 0
  | .linkAtTop => 0

def wording : FileError → String
  | .noEntry => "No such file or directory"
  | .badExecutable => "Exec format error"
  | .access => "Permission denied"
  | .entryExists => "File exists"
  | .notDirectory => "Not a directory"
  | .isDirectory => "Is a directory"
  | .nameTooLong => "File name too long"
  | .notEmpty => "Directory not empty"
  | .linkLoop => "Too many levels of symbolic links"
  | .unreachable => "Network is unreachable"
  | .nullByte => "embedded null byte"
  | .linkAtTop => "Cannot call rmtree on a symbolic link"

/-- The file tree itself refused, rather than the form of the path. -/
def isSystem (e : FileError) : Bool :=
  e != .nullByte

def meansAbsent : FileError → Bool
  | .noEntry => true
  | .notDirectory => true
  | .linkLoop => true
  | .nullByte => true
  | _ => false

end FileError

/-- A cause and the path it concerns, already in the form in which it is shown. -/
structure FileFault where
  error : FileError
  shown : String
  deriving DecidableEq, Repr

namespace FileFault

def at_ (error : FileError) (path : String) : FileFault :=
  ⟨error, Text.quote path⟩

def below (error : FileError) (path : String) : FileFault :=
  ⟨error, s!"PosixPath({Text.quote path})"⟩

def message (f : FileFault) : String :=
  match f.error with
  | .nullByte => f.error.wording
  | .linkAtTop => f.error.wording
  | e => s!"[Errno {e.number}] {e.wording}: {f.shown}"

end FileFault

end SnippetRunner
