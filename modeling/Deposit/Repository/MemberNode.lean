import Deposit.Error
import Deposit.Http.Exchange
import Deposit.Repository.ErrorDocument
import Deposit.SystemMetadata

/-!
The member node: the repository at the other end of a connection.

An object is given to it as a form of three parts: the identifier, the content, and
the document of the object's record.
-/

namespace Deposit

/-- A member node, and the token to use with it. -/
structure MemberNode where
  /-- Without slashes at its end. -/
  baseUrl : String
  token : String
  userAgent : String
  deriving DecidableEq, Repr

namespace MemberNode

open Http (Transport Received)

/-- The node at an address. -/
def ofUrl (nodeUrl token userAgent : String) : Except AuthError MemberNode :=
  match Url.parse? nodeUrl with
  | none => .error (.invalidNode nodeUrl)
  | some url =>
    if !url.isHttp then .error (.invalidNode nodeUrl)
    else if Blank.isBlankText token then .error .missingToken
    else if !(Http.Header.mk "user-agent" userAgent).isValid then
      .error (.unreachable (Http.Failure.unusable none).message)
    else .ok ⟨Blank.dropTrailing '/' nodeUrl, token, userAgent⟩

/-- The node at an address, for questions that need no token. -/
def withoutToken (nodeUrl userAgent : String) : MemberNode :=
  ⟨Blank.dropTrailing '/' nodeUrl, "", userAgent⟩

/-- The address of a path. -/
def url (node : MemberNode) (path : String) : String :=
  node.baseUrl ++ "/" ++ Blank.dropLeading '/' path

/-- The header that names the program. -/
def agentHeader (node : MemberNode) : Http.Header := ⟨"user-agent", node.userAgent⟩

/-- Asks whether the node is there. -/
def ping (node : MemberNode) (transport : Transport) : Except AuthError Unit :=
  match Http.exchange transport .get (node.url "monitor/ping") [node.agentHeader] [] with
  | .error failure => .error (.unreachable failure.message)
  | .ok received =>
    if Http.isSuccess received.status then .ok ()
    else
      .error (.unreachable
        (node.baseUrl ++ " answered ping with " ++ Http.statusText received.status))

/-- The form for an object. An object without a file name goes by its identifier. -/
def form (pid : Pid) (content : Bytes) (metadata : SystemMetadata) : List Http.Part :=
  let fileName := if metadata.fileName.isEmpty then pid.text else metadata.fileName
  [⟨"pid", none, none, Utf8.bytes pid.text⟩,
   ⟨"object", some fileName, none, content⟩,
   ⟨"sysmeta", some "sysmeta.xml", some "text/xml", metadata.toXml⟩]

/-- The refusal of an object: in the words of the node's error document, or else with
the reason of the status code and the body. -/
def refusal (pid : Pid) (received : Received) : UploadError :=
  let body :=
    match received.text with
    | .ok text => text
    | .error _ => ""
  match ErrorDocument.parse body with
  | some (name, description) => .rejected pid received.status name description
  | none => .rejected pid received.status ((Http.reason? received.status).getD "Error") body

/-- Gives an object to the node. -/
def create (node : MemberNode) (transport : Transport) (pid : Pid) (content : Bytes)
    (metadata : SystemMetadata) : Except UploadError Unit :=
  match Http.exchange transport .post (node.url "object")
    [node.agentHeader, ⟨"authorization", "Bearer " ++ node.token⟩]
    (form pid content metadata) with
  | .error failure => .error (.transport pid failure.message)
  | .ok received =>
    if Http.isSuccess received.status then .ok () else .error (refusal pid received)

end MemberNode

end Deposit
