import Deposit.Json.Parse
import Deposit.Text.Base64Url
import Deposit.Url.Parse

/-!
The publisher's identity, as the repository's token states it.

A token has segments between dots; the second one holds claims, among them the id
of the user. The claims are only read here: whether they are true is for the
repository to check.
-/

namespace Deposit.Identity

/-- Why a token names no user. -/
inductive TokenError where
  | noSegments
  | undecodable (fault : Base64Url.Fault)
  /-- The second segment is no JSON text; the fault, and the segment's bytes. -/
  | malformed (fault : Json.Fault) (claims : Bytes)
  | noUserId
  deriving DecidableEq, Repr

/-- The wording of a token's fault. -/
def TokenError.message : TokenError → String
  | .noSegments => "token is not a JWT"
  | .undecodable fault => "undecodable token payload: " ++ fault.message
  | .malformed fault claims => "malformed token claims: " ++ fault.message claims
  | .noUserId => "token has no userId claim"

/-- Whether `part` stands somewhere in a list. -/
def occurs (part : List Char) : List Char → Bool
  | [] => part.isEmpty
  | c :: rest => part.isPrefixOf (c :: rest) || occurs part rest

/-- Whether an id is an ORCID iD. -/
def isOrcid (userId : String) : Bool := occurs "orcid.org".toList userId.toList

/-- The directory that issued an id. -/
def directory (userId : String) : String :=
  if isOrcid userId then "https://orcid.org" else "https://cilogon.org"

/-- An address with `https` for its scheme; a text that has no such address stays
as it is. -/
def secured (address : String) : String :=
  match (Url.parse? address).bind Url.toHttps? with
  | some url => url.text
  | none => address

/-- The user id among claims, unless it is blank. -/
def claimedId? (claims : Json) : Option String :=
  match (claims.get? "userId").bind Json.string? with
  | some id => if Blank.isBlankText id then none else some id
  | none => none

/-- The claims of a token: its second segment, without padding. -/
def claims (token : String) : Except TokenError Json :=
  match Split.pieces '.' token.toList with
  | _ :: payload :: _ =>
    let symbols := Utf8.bytes (Blank.dropTrailing '=' (String.ofList payload))
    match Base64Url.decode symbols with
    | .error fault => .error (.undecodable fault)
    | .ok bytes =>
      match Json.parse bytes with
      | .error fault => .error (.malformed fault bytes)
      | .ok value => .ok value
  | _ => .error .noSegments

/-- The id of the user that a token names; an ORCID iD is an address that begins
with `https` if it is one at all. -/
def userId (token : String) : Except TokenError String :=
  match claims token with
  | .error e => .error e
  | .ok value =>
    match claimedId? value with
    | none => .error .noUserId
    | some id => .ok (if isOrcid id then secured id else id)

end Deposit.Identity
