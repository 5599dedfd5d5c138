import SnippetRunner.Message.Intake

/-!
What is relied upon when notifications are read. A value is one if it is an object that names a
method and has no parameters, a list of them or a table of them. The library in use keeps to
this, and any other one may take its place that does.
-/
namespace SnippetRunner.Message

variable {ms : Members}

inductive Given (ms : Members) : Params → Prop
  | absent : ms.lookup "params" = none → Given ms (.byName [])
  | inOrder {items : List Json} : ms.lookup "params" = some (.arr items) →
    Given ms (.inOrder items)
  | byName {members : Members} : ms.lookup "params" = some (.obj members) →
    Given ms (.byName members)

end SnippetRunner.Message
