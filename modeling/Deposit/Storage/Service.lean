import Deposit.Error
import Deposit.Http.Exchange
import Deposit.Storage.Record

/-!
The storage service at the other end of a connection.

Its documents have paths below the address of its interface. A token in a header
tells who asks.
-/

namespace Deposit

/-- A storage service, and the token to use with it. -/
structure StorageService where
  /-- Without slashes at its end. -/
  apiUrl : String
  token : String
  deriving DecidableEq, Repr

namespace StorageService

open Http (Transport Received Failure)

/-- The service with an interface at an address. -/
def ofUrl (apiUrl token : String) : StorageService := ⟨Blank.dropTrailing '/' apiUrl, token⟩

/-- The address of a path. -/
def url (service : StorageService) (path : String) : String :=
  service.apiUrl ++ "/" ++ Blank.dropLeading '/' path

/-- The reason that a refusal gives: the message of its record, or else its body. -/
def refusal (received : Received) : String :=
  match received.text with
  | .error _ => "Failed to read error response"
  | .ok body =>
    match Json.ofBytes (Utf8.bytes body) with
    | .ok record =>
      match record.get? "message" with
      | some (.str message) => message
      | _ => body
    | .error _ => body

/-- Puts a failed request in terms of the service. -/
def requestFailure (failure : Failure) : StorageError := .requestFailed failure.message

/-- Puts an unreadable answer in terms of the service. -/
def answerFailure (failure : Failure) : StorageError := .parseError failure.message

/-- Asks for what is at a path. -/
def get (service : StorageService) (transport : Transport) (path : String) :
    Except StorageError Received :=
  match Http.exchange transport .get (service.url path) [⟨"girder-token", service.token⟩] [] with
  | .error failure => .error (requestFailure failure)
  | .ok received =>
    if Http.isSuccess received.status then .ok received
    else if received.status = 404 then .error (.notFound path)
    else .error (.apiError received.status (refusal received))

/-- The document at a path. -/
def document (service : StorageService) (transport : Transport) (path : String) :
    Except StorageError Json :=
  (service.get transport path).bind fun received => received.json.mapError answerFailure

/-- A list of files; `none` if the value is of another form. -/
def files? : Json → Option (List FileObject)
  | .arr records => records.mapM fun record =>
      match FileObject.ofJson record with
      | .ok file => some file
      | .error _ => none
  | _ => none

/-- The first file of an item, if it has one. -/
def file? (service : StorageService) (transport : Transport) (item : String) :
    Except StorageError (Option FileObject) := do
  let received ← service.get transport ("item/" ++ item ++ "/files?limit=1")
  let value ← received.json.mapError answerFailure
  match files? value with
  | some files => .ok files.head?
  | none => .error (answerFailure (.unreadable received.url))

/-- The content of a file. -/
def download (service : StorageService) (transport : Transport) (file : String) :
    Except StorageError Bytes :=
  (service.get transport ("file/" ++ file ++ "/download")).bind fun received =>
    received.body.mapError requestFailure

end StorageService

end Deposit
