import Deposit.Json.Record
import Deposit.Pid
import Deposit.Url.Parse

/-!
The networks of repositories: production, and the one that deposits are tried out in.

A network has a coordinating node, which resolves identifiers, a search page, and
hosts that belong to it. A host belongs to a network by its own name alone.
-/

namespace Deposit

/-- A network of repositories. -/
inductive Network where
  | production
  | development
  deriving DecidableEq, Repr

namespace Network

/-- The member node for development. -/
def developmentNode : String := "https://dev.nceas.ucsb.edu/knb/d1/mn/v2"

/-- The host of the member node for development. -/
def developmentHost : String := "dev.nceas.ucsb.edu"

/-- The domain of all other hosts. -/
def domain : String := "dataone.org"

/-- The word for a network. -/
def text : Network → String
  | .production => "production"
  | .development => "development"

/-- The network that a word in any case stands for; otherwise the word in lower
case. -/
def ofText (word : String) : Except String Network :=
  let lower := Lowercase.text word
  if lower = "production" ∨ lower = "prod" then .ok .production
  else if lower = "development" ∨ lower = "dev" then .ok .development
  else .error lower

/-- The wording of the failure to read the word `lower`. -/
def unknownMessage (lower : String) : String := "Unknown DataONE network: " ++ lower

/-- The network that the word of a record stands for. -/
def ofVariant (word : String) : Except Json.Mismatch Network :=
  if word = "production" then .ok .production
  else if word = "development" then .ok .development
  else .error (.unknownVariant word "production" "development")

/-- Reads the network of a record: its word, or an object whose only key is that
word, with null. -/
def ofJson : Json → Except Json.Mismatch Network
  | .str word => ofVariant word
  | .obj [(word, value)] =>
    match ofVariant word, value with
    | .ok network, .null => .ok network
    | .ok _, value => .error (.wrongType value "unit")
    | .error e, _ => .error e
  | .obj _ => .error (.wrongValue "map" "map with a single key")
  | value => .error (.wrongType value "string or map")

/-- The host of a link, in lower case. -/
def hostOf? (link : String) : Option String :=
  ((Url.parse? (Blank.trim link)).bind Url.hostText?).map Lowercase.ascii

/-- The network of a member node: development for the development node and all
test hosts, production for everything else. -/
def forNode (node : String) : Network :=
  match hostOf? node with
  | some host =>
    if host = developmentHost ∨ host.endsWith ".test.dataone.org" then .development
    else .production
  | none => .production

/-- The address of the coordinating node. -/
def coordinatingNode : Network → String
  | .production => "https://cn.dataone.org/cn"
  | .development => "https://cn-stage-2.test.dataone.org/cn"

/-- The address of the search page. -/
def searchPage : Network → String
  | .production => "https://search.dataone.org"
  | .development => "https://dev.nceas.ucsb.edu"

/-- The address under which the coordinating node resolves an identifier. -/
def resolveUri (network : Network) (pid : Pid) : String :=
  network.coordinatingNode ++ "/v2/resolve/" ++ Percent.segment pid.text

/-- The page of the package with the given resource map. -/
def landingPage (network : Network) (resourceMap : Pid) : String :=
  network.searchPage ++ "/#view/" ++ resourceMap.text

/-- Whether a host belongs to the domain of the networks. -/
def inDomain (host : String) : Bool := host == domain || host.endsWith ".dataone.org"

/-- Whether a link points into a network. -/
def hosts (network : Network) (link : String) : Bool :=
  match hostOf? link with
  | none => false
  | some host =>
    match network with
    | .production => inDomain host
    | .development => inDomain host || host == developmentHost

end Network

end Deposit
