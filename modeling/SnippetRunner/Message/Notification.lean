import SnippetRunner.Message.RunParams

/-!
A notification names what is to be done. Its parameters are a list in a fixed order or a
table by name; what they must be depends on the method and is checked when it is carried out.
-/
namespace SnippetRunner.Message

inductive Params
  | inOrder (items : List Json)
  | byName (members : Members)

structure Notification where
  method : String
  params : Params := .byName []

namespace Notification

def readParams (ms : Members) : Checked Params :=
  match ms.lookup "params" with
  | none => .ok (.byName [])
  | some (.arr items) => .ok (.inOrder items)
  | some (.obj members) => .ok (.byName members)
  | some _ => .error [⟨[.name "params", .name "list[any]"], .list⟩,
      ⟨[.name "params", .name "dict[str,any]"], .table⟩]

def ofMembers (ms : Members) : Checked Notification :=
  let method := required ms "method" readText
  let params := readParams ms
  match method, params with
  | .ok method, .ok params => .ok ⟨method, params⟩
  | _, _ => .error (faultsOf method ++ faultsOf params)

def ofJson : Json → Checked Notification
  | .obj ms => ofMembers ms
  | _ => .error [⟨[], .instance_ "Notification"⟩]

end Notification

end SnippetRunner.Message
