import SnippetRunner.Host

/-!
Networks whose answers are known beforehand: one that cannot be reached, one that answers in a
fixed order, and one that does so for every path by itself. The last answer is given again.
-/
namespace SnippetRunner

def HttpResult.nth (answers : List HttpResult) (n : Nat) : HttpResult :=
  (answers[n]?.or answers.getLast?).getD (.response 404 "")

namespace Wire

def down : Wire where
  respond := fun _ _ => .failed "[Errno 101] Network is unreachable"
  depth := 0

def scripted (depth : Nat) (answers : List HttpResult) : Wire where
  respond sent _ := .nth answers sent.length
  depth := depth

def pathOf (url : String) : String :=
  let afterScheme := (url.toList.dropWhile (· != '/')).drop 2
  String.ofList ((afterScheme.dropWhile (· != '/')).takeWhile (· != '?'))

def scriptedByPath (depth : Nat) (answers : String → List HttpResult) : Wire where
  depth := depth
  respond sent r :=
    let path := pathOf r.url
    .nth (answers path) (sent.filter fun q => pathOf q.url == path).length

end Wire

end SnippetRunner
