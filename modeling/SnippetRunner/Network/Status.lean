import SnippetRunner.Host
import SnippetRunner.Json.Reader

/-!
Status codes of answers from the network. An answer counts as a success when its code begins
with a two; any other one is told with its class, its reason phrase and a place to read more.
-/
namespace SnippetRunner.Network

def reasonPhrases : List (Nat × String) :=
  [(100, "Continue"), (101, "Switching Protocols"), (102, "Processing"), (103, "Early Hints"),
   (200, "OK"), (201, "Created"), (202, "Accepted"), (203, "Non-Authoritative Information"),
   (204, "No Content"), (205, "Reset Content"), (206, "Partial Content"), (207, "Multi-Status"),
   (208, "Already Reported"), (226, "IM Used"),
   (300, "Multiple Choices"), (301, "Moved Permanently"), (302, "Found"), (303, "See Other"),
   (304, "Not Modified"), (305, "Use Proxy"), (307, "Temporary Redirect"),
   (308, "Permanent Redirect"),
   (400, "Bad Request"), (401, "Unauthorized"), (402, "Payment Required"), (403, "Forbidden"),
   (404, "Not Found"), (405, "Method Not Allowed"), (406, "Not Acceptable"),
   (407, "Proxy Authentication Required"), (408, "Request Timeout"), (409, "Conflict"),
   (410, "Gone"), (411, "Length Required"), (412, "Precondition Failed"),
   (413, "Request Entity Too Large"), (414, "Request-URI Too Long"),
   (415, "Unsupported Media Type"), (416, "Requested Range Not Satisfiable"),
   (417, "Expectation Failed"), (418, "I'm a teapot"), (421, "Misdirected Request"),
   (422, "Unprocessable Entity"), (423, "Locked"), (424, "Failed Dependency"),
   (425, "Too Early"), (426, "Upgrade Required"), (428, "Precondition Required"),
   (429, "Too Many Requests"), (431, "Request Header Fields Too Large"),
   (451, "Unavailable For Legal Reasons"),
   (500, "Internal Server Error"), (501, "Not Implemented"), (502, "Bad Gateway"),
   (503, "Service Unavailable"), (504, "Gateway Timeout"), (505, "HTTP Version Not Supported"),
   (506, "Variant Also Negotiates"), (507, "Insufficient Storage"), (508, "Loop Detected"),
   (510, "Not Extended"), (511, "Network Authentication Required")]

def reasonPhrase (status : Nat) : String :=
  (reasonPhrases.lookup status).getD ""

def isSuccess (status : Nat) : Bool :=
  200 ≤ status && status < 300

def className (status : Nat) : String :=
  match status / 100 with
  | 1 => "Informational response"
  | 3 => "Redirect response"
  | 4 => "Client error"
  | 5 => "Server error"
  | _ => "Invalid status code"

def address (scheme host rest : String) : String :=
  scheme ++ "://" ++ host ++ rest

def explanation (status : Nat) : String :=
  address "https" "developer.mozilla.org" s!"/en-US/docs/Web/HTTP/Status/{status}"

def statusMessage (status : Nat) (url : String) : String :=
  s!"{className status} '{status} {reasonPhrase status}' for url '{url}'\n" ++
    s!"For more information check: {explanation status}"

def successBody (url : String) : HttpResult → Except String String
  | .failed reason => .error reason
  | .response status body =>
    if isSuccess status then .ok body else .error (statusMessage status url)

/-- The value in the body of an answer; a mark of the encoding at its head is passed over. -/
def readBody (depth : Nat) (body : String) : Except Failure Json :=
  let text := match body.toList with
    | '\uFEFF' :: rest => String.ofList rest
    | _ => body
  (Json.readUnmarked depth text).mapError fun e => .notJson e text

end SnippetRunner.Network
