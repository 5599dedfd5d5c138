import SnippetRunner.Message.Intake
import SnippetRunner.Server.Basic

/-!
Carrying out notifications. A run and a clean become jobs; to terminate is done at once; any
other method is noted and passed over.
-/
namespace SnippetRunner.Server

open Message

/-- Carries out a notification; answers the name of the job that came of it, if one did. -/
def dispatch (i : Intake) (s : Server) (n : Notification) :
    Server × Checked (Option String) :=
  match Text.lower n.method with
  | "run" =>
    match i.runOf n with
    | .error faults => (s, .error faults)
    | .ok params =>
      let (s, id) := s.submitRun params.toRequest
      (s, .ok (some id))
  | "clean" =>
    let (s, id) := s.submitClean
    (s, .ok (some id))
  | "terminate" => (s.terminate, .ok none)
  | _ => (s.note .info s!"Unknown notification received: {n.method}", .ok none)

end SnippetRunner.Server
