import Deposit.Error
import Deposit.Network

/-!
The configuration of a publication.

A setting comes from the defaults, from the environment, or from whoever sets it.
A configuration has to pass `validate` before it is used.
-/

namespace Deposit

/-- The variables of the environment, the first of several with one name
counting. -/
abbrev Environment := List (String × String)

/-- Where storage and repository are, where the license texts are kept, and how
long a call may take. -/
structure Config where
  /-- Found out at the first use if it is not set. -/
  storageApiUrl : Option String
  memberNode : String
  /-- Inferred from the member node if it is not set. -/
  network : Option Network
  licenseDirectory : String
  timeoutMilliseconds : Nat
  userAgent : String
  deriving DecidableEq, Repr

namespace Config

/-- The configuration without any settings. -/
def default : Config where
  storageApiUrl := none
  memberNode := Network.developmentNode
  network := none
  licenseDirectory := "./licenses"
  timeoutMilliseconds := 600000
  userAgent := "tale-publish/0.1.0"

/-- The storage service inside the deployment. -/
def internalStorageUrl : String := "http://girder:8080/api/v1"

/-- The storage service that everyone can reach. -/
def publicStorageUrl : String := "https://girder.dev.wholetale.org/api/v1"

/-- The storage service in use; `internal` tells whether the host inside the
deployment is known. -/
def storageUrl (config : Config) (internal : Bool) : String :=
  config.storageApiUrl.getD (if internal then internalStorageUrl else publicStorageUrl)

/-- The network that objects are published in. -/
def effectiveNetwork (config : Config) : Network :=
  config.network.getD (Network.forNode config.memberNode)

/-- Whether a text is the address of a web server. -/
def isWebAddress (text : String) : Bool :=
  match Url.parse? text with
  | some url => url.isHttp
  | none => false

/-- Refuses a configuration that cannot be used, for the first reason in the order
member node, storage, timeout, user agent. -/
def validate (config : Config) : Except ConfigError Unit :=
  if !isWebAddress config.memberNode then
    .error (.validationFailed
      ("member_node must be an http(s) URL, got '" ++ config.memberNode ++ "'"))
  else if config.storageApiUrl.any fun url => (Url.parse? url).isNone then
    .error (.validationFailed
      ("storage_api_url is not a valid URL: '" ++ config.storageApiUrl.getD "" ++ "'"))
  else if config.timeoutMilliseconds < 1000 then
    .error (.validationFailed "http_timeout must be greater than 0")
  else if Blank.isBlankText config.userAgent then
    .error (.validationFailed "user_agent cannot be empty")
  else .ok ()

/-- The license with an id, if there is a text for it. -/
def license (id : String) : Except ConfigError License :=
  match License.find? id with
  | some license => .ok license
  | none => .error (.unsupportedLicense id)

/-! ### Environment -/

/-- The failure to read a variable. -/
def unreadable (key value : String) : ConfigError :=
  .invalidValue key ("could not parse '" ++ value ++ "'")

/-- Sets what a variable holds, if it is set. -/
def withVariable (environment : Environment) (key : String)
    (set : String → Config → Except ConfigError Config) (config : Config) :
    Except ConfigError Config :=
  match environment.lookup key with
  | some value => set value config
  | none => .ok config

/-- The settings of the environment, before they are validated. A blank address of
the storage service counts as none. -/
def readEnvironment (environment : Environment) : Except ConfigError Config := do
  let config ← withVariable environment "GIRDER_API_URL" (fun value config =>
    .ok (if Blank.isBlankText value then config else { config with storageApiUrl := some value }))
    default
  let config ← withVariable environment "DATAONE_NODE" (fun value config =>
    .ok { config with memberNode := value }) config
  let config ← withVariable environment "TALE_PUBLISH_NETWORK" (fun value config =>
    match Network.ofText value with
    | .ok network => .ok { config with network := some network }
    | .error _ => .error (unreadable "TALE_PUBLISH_NETWORK" value)) config
  let config ← withVariable environment "TALE_PUBLISH_LICENSE_DIR" (fun value config =>
    .ok { config with licenseDirectory := value }) config
  let config ← withVariable environment "TALE_PUBLISH_TIMEOUT_SECS" (fun value config =>
    match DescriptiveRecord.size? value with
    | some seconds => .ok { config with timeoutMilliseconds := 1000 * seconds }
    | none => .error (unreadable "TALE_PUBLISH_TIMEOUT_SECS" value)) config
  withVariable environment "TALE_PUBLISH_USER_AGENT" (fun value config =>
    .ok { config with userAgent := value }) config

/-- The configuration that the environment gives. -/
def ofEnvironment (environment : Environment) : Except ConfigError Config := do
  let config ← readEnvironment environment
  config.validate
  pure config

end Config

end Deposit
