import SnippetRunner.Client.Basic

/-!
The life of a backend: it is launched and asked until it answers, and in the end told to stop
and killed if it does not. A backend that is alive is not launched again, and one that died is
never launched again unless the caller says so.
-/
namespace SnippetRunner.Client

/-- Milliseconds between two questions to a backend that does not answer yet. -/
def pause : Nat := 100

def questions (c : Client) : Nat := (c.startupTime + pause - 1) / pause

/-- Asks a new backend whether it is there, so and so many times. -/
def waitReady (s : Session) : Nat → Option String → Client → Client × Except BackendFault Unit
  | 0, last, c => (c, .error (.notReady s.handle (last.getD "None")))
  | more + 1, last, c =>
    match c.look s.process with
    | (c, some status) => (c, .error (.exitedAtStart s.handle (toString status)))
    | (c, none) =>
      match c.send (c.request s "GET" "/health" none) with
      | (c, .response status _) =>
        if status == 200 then (c, .ok ()) else waitReady s more last (c.sleep pause)
      | (c, .failed reason) => waitReady s more (some reason) (c.sleep pause)

def abandon (c : Client) (s : Session) : Client :=
  match (c.drop s.handle).look s.process with
  | (c, some _) => c
  | (c, none) => c.kill s.process

def start (c : Client) (handle : String) : Client × Except Failure String :=
  match c.isAlive handle with
  | (c, true) => (c, .ok handle)
  | (c, false) =>
    match c.launch handle with
    | (c, .error failure) => (c, .error failure)
    | (c, .ok s) =>
      match waitReady s c.questions none c with
      | (c, .ok ()) => (c, .ok handle)
      | (c, .error fault) => (c.abandon s, .error (.backendUnreachable fault))

def patience : Duration := ⟨"5.0", 5000⟩

def finish (c : Client) (s : Session) (patience : Duration) : Client :=
  let (c, _) := c.send (c.request s "POST" "/terminate" none)
  match c.await s.process (some patience) with
  | (c, true) => c
  | (c, false) => ((c.kill s.process).await s.process none).1

def terminate (c : Client) (handle : String) (patience : Duration) : Client :=
  match c.session? handle with
  | none => c
  | some s =>
    match (c.drop handle).look s.process with
    | (c, some _) => c
    | (c, none) => c.finish s patience

def restart (c : Client) (handle : String) : Client × Except Failure String :=
  (c.terminate handle patience).start handle

def close (c : Client) : Client :=
  c.handles.foldl (fun c handle => c.terminate handle patience) c

end SnippetRunner.Client
