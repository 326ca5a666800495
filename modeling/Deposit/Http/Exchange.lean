import Deposit.Http.Status
import Deposit.Json.Parse
import Deposit.Text.Split
import Deposit.Url.Parse

/-!
Exchanges: one request, and what came back.

A request is made from a textual address. One that cannot be made is never sent;
one that is sent may bring no answer, and an answer may end in the middle of its
body.
-/

namespace Deposit.Http

/-- What is asked of a server. -/
inductive Method where
  | get
  | post
  deriving DecidableEq, Repr

/-- The word for a method. -/
def Method.text : Method → String
  | .get => "GET"
  | .post => "POST"

/-- A line of a header. -/
structure Header where
  name : String
  value : String
  deriving DecidableEq, Repr

/-- Whether a value can stand in a header: no control character but the tab. -/
def Header.isValid (h : Header) : Bool :=
  h.value.toList.all fun c => c == '\t' || (' ' ≤ c && c != '\x7f')

/-- A part of a form. -/
structure Part where
  name : String
  fileName : Option String
  mediaType : Option String
  content : Bytes
  deriving DecidableEq, Repr

namespace Part

/-- The text of a file name between its quotes. -/
def escapeFileName (name : String) : String :=
  String.join (name.toList.map fun c =>
    if c == '\\' || c == '"' || c == '\r' || c == '\n' then "\\" ++ c.toString else c.toString)

/-- The header lines of a part. -/
def head (part : Part) : List String :=
  ["Content-Disposition: form-data; name=\"" ++ part.name ++ "\"" ++
    match part.fileName with
    | some name => "; filename=\"" ++ escapeFileName name ++ "\""
    | none => ""] ++
  match part.mediaType with
  | some type => ["Content-Type: " ++ type]
  | none => []

end Part

/-- A request; with parts, its body is a form. -/
structure Request where
  method : Method
  url : Url
  headers : List Header
  parts : List Part

/-- The method and the target of a request. -/
def Request.line (request : Request) : String :=
  request.method.text ++ " " ++ request.url.path.text ++
    (match request.url.query with | some query => "?" ++ query | none => "")

/-- An answer. -/
structure Response where
  status : Nat
  body : Bytes
  /-- Whether the body came to its announced end. -/
  complete : Bool
  deriving DecidableEq, Repr

/-- How servers answer: with nothing if the connection is lost. -/
abbrev Transport := Request → Option Response

/-! ### Failures -/

/-- Why a request brought nothing of use. -/
inductive Failure where
  /-- It cannot be made; the address is known if it is one. -/
  | unusable (url : Option Url)
  /-- There was no answer. -/
  | unanswered (url : Url)
  /-- The body was cut off. -/
  | cutOff
  /-- The body is of another form than the wanted one. -/
  | unreadable (url : Url)
  deriving DecidableEq, Repr

/-- The mention of an address. -/
def forUrl (url : Url) : String := " for url (" ++ url.text ++ ")"

/-- The wording of a failure. -/
def Failure.message : Failure → String
  | .unusable none => "builder error"
  | .unusable (some url) => "builder error" ++ forUrl url
  | .unanswered url => "error sending request" ++ forUrl url
  | .cutOff => "error decoding response body"
  | .unreadable url => "error decoding response body" ++ forUrl url

/-! ### Requests -/

/-- The request to an address; user name and password in the address do not count as
a part of it. -/
def request (method : Method) (address : String) (headers : List Header) (parts : List Part) :
    Except Failure Request :=
  match Url.parse? address with
  | none => .error (.unusable none)
  | some url =>
    let url := url.withoutUserinfo
    if url.host.isNone then .error (.unusable (some url))
    else if !headers.all (·.isValid) then .error (.unusable none)
    else if !url.isHttp then .error (.unusable (some url))
    else .ok ⟨method, url, headers, parts⟩

/-- An answer with the address that it came from. -/
structure Received where
  url : Url
  response : Response
  deriving DecidableEq, Repr

/-- Sends a request. -/
def send (transport : Transport) (request : Request) : Except Failure Received :=
  match transport request with
  | some response => .ok ⟨request.url, response⟩
  | none => .error (.unanswered request.url)

/-- Makes a request and sends it. -/
def exchange (transport : Transport) (method : Method) (address : String)
    (headers : List Header) (parts : List Part) : Except Failure Received :=
  (request method address headers parts).bind (send transport)

namespace Received

/-- The status code. -/
def status (r : Received) : Nat := r.response.status

/-- The body. -/
def body (r : Received) : Except Failure Bytes :=
  if r.response.complete then .ok r.response.body else .error .cutOff

/-- The body as text, without a byte order mark, each fault in its encoding shown as
U+FFFD. -/
def text (r : Received) : Except Failure String :=
  r.body.map fun bytes =>
    String.ofList (Utf8.decodeLossy ((Split.behind? [0xEF, 0xBB, 0xBF] bytes).getD bytes))

/-- The body as a JSON value. -/
def json (r : Received) : Except Failure Json :=
  r.body.bind fun bytes =>
    match Json.ofBytes bytes with
    | .ok value => .ok value
    | .error _ => .error (.unreadable r.url)

end Received

end Deposit.Http
