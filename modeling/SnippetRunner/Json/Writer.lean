import SnippetRunner.Json.Value
import SnippetRunner.Text.Template

/-!
Writing JSON. The compact form has no blanks; the indented form puts every item and member
on a line of its own. Characters beyond ASCII are written as they are, and control
characters by the short escape or by four hexadecimal digits.
-/
namespace SnippetRunner.Json

open Text (openBrace closeBrace hexDigits)

def writeChar (c : Char) : List Char :=
  if c == '"' then ['\\', '"']
  else if c == '\\' then ['\\', '\\']
  else if c == '\n' then ['\\', 'n']
  else if c == '\r' then ['\\', 'r']
  else if c == '\t' then ['\\', 't']
  else if c == '\x08' then ['\\', 'b']
  else if c == '\x0c' then ['\\', 'f']
  else if c.toNat < 32 then '\\' :: 'u' :: hexDigits 4 c.toNat
  else [c]

def writeString (s : String) : String :=
  String.ofList ('"' :: (s.toList.flatMap writeChar ++ ['"']))

def wrap (opening closing : Char) (body : String) : String :=
  opening.toString ++ body ++ closing.toString

mutual

def compact : Json → String
  | .null => "null"
  | .bool b => if b then "true" else "false"
  | .int n => toString n
  | .float x => x.writeWith "Infinity" "NaN"
  | .str s => writeString s
  | .arr items => wrap '[' ']' (String.intercalate "," (compactItems items))
  | .obj members => wrap openBrace closeBrace (String.intercalate "," (compactMembers members))

def compactItems : List Json → List String
  | [] => []
  | v :: rest => compact v :: compactItems rest

def compactMembers : List (String × Json) → List String
  | [] => []
  | (k, v) :: rest => (writeString k ++ ":" ++ compact v) :: compactMembers rest

end

/-- An object of plain members, one a line, indented by two blanks. -/
def indented (members : List (String × Json)) : String :=
  let lines := members.map fun m => "  " ++ writeString m.1 ++ ": " ++ compact m.2
  wrap openBrace closeBrace ("\n" ++ String.intercalate ",\n" lines ++ "\n")

end SnippetRunner.Json
