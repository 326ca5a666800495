import Deposit.Error
import Deposit.Http.Exchange

/-!
Fetching what is hosted elsewhere.
-/

namespace Deposit.Http

/-- The name of what is at an address: the last segment of its path, or the address
itself if there is none. -/
def resourceName (address : String) : String :=
  match (Url.parse? address).bind (·.lastSegment?) with
  | some name => if name.isEmpty then address else name
  | none => address

/-- Puts a failed request in terms of the resource. -/
def fetchFailure (address : String) (failure : Failure) : FetchError :=
  .download (resourceName address) address failure.message

/-- The content at an address. -/
def fetch (transport : Transport) (address : String) : Except FetchError Bytes :=
  match exchange transport .get address [] [] with
  | .error failure => .error (fetchFailure address failure)
  | .ok received =>
    if isSuccess received.status then received.body.mapError (fetchFailure address)
    else .error (.status address received.status)

end Deposit.Http
