import SnippetRunner.Json.Reader
import SnippetRunner.Text.Lines
import SnippetRunner.Text.Utf8

/-!
The target of a request: a path and a query. In both, an octet may be written as a percent
sign with two digits; in a query a plus sign stands for a blank.
-/
namespace SnippetRunner.Network

open Text (encodeUtf8 decodeUtf8)

structure Target where
  path : String
  query : List (String × String) := []
  deriving DecidableEq, Repr

/-- The octets of a text in which octets may be written by their number. -/
def unescapeChars : List Char → List UInt8
  | [] => []
  | '%' :: a :: b :: rest =>
    match Text.hexDigit? a, Text.hexDigit? b with
    | some high, some low => (16 * high + low).toUInt8 :: unescapeChars rest
    | _, _ => 37 :: unescapeChars (a :: b :: rest)
  | c :: rest => encodeUtf8 c.toString ++ unescapeChars rest

def unescape (s : String) : String := decodeUtf8 (unescapeChars s.toList)

namespace Target

/-- A path without the names that stand for no step and for a step back. -/
def walk : List String → List String → List String
  | walked, [] => walked.reverse
  | walked, name :: rest =>
    if name == "." then walk walked rest
    else if name == ".." then
      walk (if walked == [""] then walked else walked.drop 1) rest
    else walk (name :: walked) rest

def normalPath (path : String) : String :=
  String.intercalate "/" (walk [] (Text.splitAt '/' path))

/-- The path as it is sent. Two slashes at the head are followed by a host, not by a name. -/
def sentPath (path : String) : String :=
  let rest := match path.toList with
    | '/' :: '/' :: rest => rest.dropWhile (· != '/')
    | cs => cs
  normalPath ("/" ++ String.ofList (rest.dropWhile (· == '/')))

/-- One entry of a query; without an equals sign it has the empty value. -/
def readEntry (entry : String) : String × String :=
  let cs := entry.toList.map fun c => if c == '+' then ' ' else c
  (unescape (String.ofList (cs.takeWhile (· != '='))),
    unescape (String.ofList ((cs.dropWhile (· != '=')).drop 1)))

def readQuery (query : String) : List (String × String) :=
  ((Text.splitAt '&' query).filter (· != "")).map readEntry

/-- The target that a text denotes. Escapes in the path are taken off twice: when the address
is read and when the path is. -/
def ofText (s : String) : Target :=
  let cs := s.toList.takeWhile (· != '#')
  let path := String.ofList (cs.takeWhile (· != '?'))
  let query := String.ofList ((cs.dropWhile (· != '?')).drop 1)
  ⟨unescape (unescape (sentPath path)), readQuery query⟩

/-- The last value of a name counts. -/
def parameter? (t : Target) (name : String) : Option String :=
  ((t.query.filter (·.1 == name)).getLast?).map (·.2)

end Target

end SnippetRunner.Network
