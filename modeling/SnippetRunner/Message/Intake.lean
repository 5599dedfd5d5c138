import SnippetRunner.Message.Notification

/-!
What is left to others when messages are read. How deep values may be inside each other depends
on the stack at hand, and whether a value is a message, and which one, is for a library to say
that checks data.
-/
namespace SnippetRunner.Message

structure Intake where
  /-- How deep values may be inside each other. -/
  depth : Nat
  notification : Json → Checked Notification
  runParams : Members → Checked RunParams

namespace Intake

/-- The intake in use. -/
def standard (depth : Nat) : Intake := ⟨depth, Notification.ofJson, RunParams.ofMembers⟩

/-- The parameters of a run; surplus ones in a list are passed over. -/
def runOf (i : Intake) (n : Notification) : Checked RunParams :=
  match n.params with
  | .inOrder items => i.runParams (RunParams.order.zip items)
  | .byName members => i.runParams members

end Intake

end SnippetRunner.Message
