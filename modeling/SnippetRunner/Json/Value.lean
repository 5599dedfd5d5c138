import SnippetRunner.Decimal.Shortest
import SnippetRunner.Text.Quoted

/-!
JSON values. Whole numbers are unbounded, numbers with a fraction or an exponent are
64-bit, and an object keeps its members in the order of their first appearance. A value has
a name for its kind and a text form used where a value stands for a text.
-/
namespace SnippetRunner

inductive Json
  | null
  | bool (b : Bool)
  | int (n : Int)
  | float (x : Binary64)
  | str (s : String)
  | arr (items : List Json)
  | obj (members : List (String × Json))
  deriving Repr

namespace Json

def member? (key : String) : Json → Option Json
  | .obj members => members.lookup key
  | _ => none

def get (v : Json) (key : String) : Json := (v.member? key).getD .null

def has (v : Json) (key : String) : Bool := (v.member? key).isSome

def members : Json → List (String × Json)
  | .obj members => members
  | _ => []

def items : Json → List Json
  | .arr items => items
  | _ => []

def at_ (v : Json) (i : Nat) : Json := v.items.getD i .null

def text? : Json → Option String
  | .str s => some s
  | _ => none

/-- Sets a member: in place if the key is present, else at the end. -/
def setMember (members : List (String × Json)) (key : String) (value : Json) :
    List (String × Json) :=
  if members.any (·.1 == key) then
    members.map fun m => if m.1 == key then (key, value) else m
  else members ++ [(key, value)]

def kindName : Json → String
  | .null => "NoneType"
  | .bool _ => "bool"
  | .int _ => "int"
  | .float _ => "float"
  | .str _ => "str"
  | .arr _ => "list"
  | .obj _ => "dict"

mutual

def inner : Json → String
  | .null => "None"
  | .bool b => if b then "True" else "False"
  | .int n => toString n
  | .float x => x.text
  | .str s => Text.quote s
  | .arr items => "[" ++ String.intercalate ", " (innerItems items) ++ "]"
  | .obj members => "\x7b" ++ String.intercalate ", " (innerMembers members) ++ "\x7d"

def innerItems : List Json → List String
  | [] => []
  | v :: rest => inner v :: innerItems rest

def innerMembers : List (String × Json) → List String
  | [] => []
  | (k, v) :: rest => (Text.quote k ++ ": " ++ inner v) :: innerMembers rest

end

/-- A text stands for itself, any other value for its inner form. -/
def shown : Json → String
  | .str s => s
  | v => inner v

end Json

end SnippetRunner
