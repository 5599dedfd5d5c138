import SnippetRunner.Json.Value
import SnippetRunner.Language.Level

/-!
What is wrong with a message: for each place in it the kind of the fault. Every kind has a
short name and a wording.
-/
namespace SnippetRunner.Message

inductive Place
  | name (text : String)
  | position (n : Nat)
  deriving DecidableEq, Repr

inductive FaultKind
  | missing
  | text
  | whole
  | wholeText
  | wholeSize
  | wholeFraction
  | finite
  | atLeast (bound : Int)
  | truth
  | truthText
  | level (fault : LevelError)
  | list
  | table
  | instance_ (name : String)
  | attributes
  | json (reason : String)
  deriving DecidableEq, Repr

structure Fault where
  place : List Place
  kind : FaultKind
  deriving DecidableEq, Repr

namespace FaultKind

def name : FaultKind → String
  | .missing => "missing"
  | .text => "string_type"
  | .whole => "int_type"
  | .wholeText => "int_parsing"
  | .wholeSize => "int_parsing_size"
  | .wholeFraction => "int_from_float"
  | .finite => "finite_number"
  | .atLeast _ => "greater_than_equal"
  | .truth => "bool_type"
  | .truthText => "bool_parsing"
  | .level _ => "value_error"
  | .list => "list_type"
  | .table => "dict_type"
  | .instance_ _ => "model_type"
  | .attributes => "model_attributes_type"
  | .json _ => "json_invalid"

def message : FaultKind → String
  | .missing => "Field required"
  | .text => "Input should be a valid string"
  | .whole => "Input should be a valid integer"
  | .wholeText => "Input should be a valid integer, unable to parse string as an integer"
  | .wholeSize => "Unable to parse input string as an integer, exceeded maximum size"
  | .wholeFraction => "Input should be a valid integer, got a number with a fractional part"
  | .finite => "Input should be a finite number"
  | .atLeast bound => s!"Input should be greater than or equal to {bound}"
  | .truth => "Input should be a valid boolean"
  | .truthText => "Input should be a valid boolean, unable to interpret input"
  | .level fault => s!"Value error, {fault.message}"
  | .list => "Input should be a valid list"
  | .table => "Input should be a valid dictionary"
  | .instance_ name => s!"Input should be a valid dictionary or instance of {name}"
  | .attributes => "Input should be a valid dictionary or object to extract fields from"
  | .json _ => "JSON decode error"

end FaultKind

def Place.json : Place → Json
  | .name text => .str text
  | .position n => .int n

namespace Fault

def within (place : Place) (f : Fault) : Fault :=
  { f with place := place :: f.place }

def json (f : Fault) : Json :=
  .obj [("type", .str f.kind.name), ("loc", .arr (f.place.map Place.json)),
    ("msg", .str f.kind.message)]

end Fault

end SnippetRunner.Message
