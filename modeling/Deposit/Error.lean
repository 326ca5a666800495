import Deposit.DescriptiveRecord
import Deposit.Text.FileError

/-!
Failures: of the services that a publication talks to, of its documents, and of
the publication as a whole.

A publication goes through the steps of `Step`; its failure names the step.
-/

namespace Deposit

/-- A failure of the storage service. -/
inductive StorageError where
  | notFound (resource : String)
  | requestFailed (reason : String)
  | apiError (code : Nat) (reason : String)
  | parseError (reason : String)
  | io (error : FileError)
  deriving DecidableEq, Repr

/-- The wording of a failure of the storage service. -/
def StorageError.message : StorageError → String
  | .notFound resource => "Resource '" ++ resource ++ "' not found"
  | .requestFailed reason => "HTTP request failed: " ++ reason
  | .apiError code reason => "Storage API error (" ++ toString code ++ "): " ++ reason
  | .parseError reason => "Failed to parse storage response: " ++ reason
  | .io error => "IO error: " ++ error.message

/-- A failure to open a session with the repository. -/
inductive AuthError where
  | invalidNode (node : String)
  | missingToken
  | unreachable (reason : String)
  | invalidCredentials (reason : String)
  deriving DecidableEq, Repr

/-- The wording of a failure to open a session. -/
def AuthError.message : AuthError → String
  | .invalidNode node => "Invalid member node URL '" ++ node ++ "'"
  | .missingToken => "Missing repository authentication token"
  | .unreachable reason => "Member node unreachable: " ++ reason
  | .invalidCredentials reason =>
    "Failed to process your DataONE credentials: " ++ reason ++
      ". Please ensure you are logged into DataONE."

/-- A failure to create one object. -/
inductive UploadError where
  | rejected (pid : Pid) (code : Nat) (name description : String)
  | transport (pid : Pid) (reason : String)
  | content (pid : Pid) (error : FileError)
  | encoding (pid : Pid) (reason : String)
  deriving DecidableEq, Repr

/-- The wording of a failure to create an object. -/
def UploadError.message : UploadError → String
  | .rejected pid code name description =>
    "Repository rejected '" ++ pid.text ++ "' (" ++ toString code ++ " " ++ name ++ "): " ++
      description
  | .transport pid reason => "Transport error while uploading '" ++ pid.text ++ "': " ++ reason
  | .content pid error => "Failed to read content for '" ++ pid.text ++ "': " ++ error.message
  | .encoding pid reason =>
    "Failed to encode system metadata for '" ++ pid.text ++ "': " ++ reason

/-- A failure to fetch a resource that is hosted elsewhere. -/
inductive FetchError where
  | download (name url reason : String)
  | status (url : String) (code : Nat)
  | client (reason : String)
  | storage (error : StorageError)
  | io (error : FileError)
  deriving DecidableEq, Repr

/-- The wording of a failure to fetch a resource. -/
def FetchError.message : FetchError → String
  | .download name url reason =>
    "There was a problem downloading an external file, " ++ name ++ " located at " ++ url ++
      ": " ++ reason
  | .status url code => "Server returned " ++ toString code ++ " for " ++ url
  | .client reason => "Failed to build HTTP client: " ++ reason
  | .storage error => "Storage lookup failed: " ++ error.message
  | .io error => "IO error: " ++ error.message

/-- A publisher who cannot be named: the fields that are missing. -/
inductive IdentityError where
  | missingIdentity (missing : List IdentityField)
  deriving DecidableEq, Repr

/-- The wording of a missing identity. -/
def IdentityError.message : IdentityError → String
  | .missingIdentity _ =>
    "Unable to find your name or email address. Please ensure you have authenticated with DataONE."

/-- A failure to make a document. -/
inductive MetadataError where
  | xml (reason : String)
  | yaml (reason : String)
  | document (reason : String)
  | checksum (error : FileError)
  | identity (error : IdentityError)
  deriving DecidableEq, Repr

/-- The wording of a failure to make a document. -/
def MetadataError.message : MetadataError → String
  | .xml reason => "XML serialization error: " ++ reason
  | .yaml reason => "YAML serialization error: " ++ reason
  | .document reason => "Malformed document: " ++ reason
  | .checksum error => "Checksum computation failed: " ++ error.message
  | .identity error => error.message

/-- An item that cannot be located. -/
inductive ClassificationError where
  | notFound (item : String)
  | storage (item : String) (error : StorageError)
  deriving DecidableEq, Repr

/-- The wording of a failure to locate an item. -/
def ClassificationError.message : ClassificationError → String
  | .notFound item => "Failed to find the file with ID " ++ item
  | .storage item error => "Failed to resolve item " ++ item ++ ": " ++ error.message

/-- A configuration that cannot be used. -/
inductive ConfigError where
  | invalidValue (key reason : String)
  | validationFailed (reason : String)
  | unsupportedLicense (id : String)
  deriving DecidableEq, Repr

/-- The wording of a failure of the configuration. -/
def ConfigError.message : ConfigError → String
  | .invalidValue key reason => "Invalid value for " ++ key ++ ": " ++ reason
  | .validationFailed reason => "Configuration validation failed: " ++ reason
  | .unsupportedLicense id =>
    "Unsupported license '" ++ id ++ "'; expected one of CC0-1.0, CC-BY-3.0, CC-BY-4.0"

/-- A step of a publication. -/
inductive Step where
  | configure
  | authenticate
  | loadTale
  | classify
  | localObjects
  | packageInfo
  | license
  | environment
  | descriptiveRecord
  | resourceMap
  deriving DecidableEq, Repr

/-- The name of a step. -/
def Step.text : Step → String
  | .configure => "configure"
  | .authenticate => "authenticate"
  | .loadTale => "load_tale"
  | .classify => "classify"
  | .localObjects => "local_objects"
  | .packageInfo => "package_info"
  | .license => "license"
  | .environment => "environment"
  | .descriptiveRecord => "descriptive_record"
  | .resourceMap => "resource_map"

/-- The failure of a publication. -/
inductive PublishError where
  | config (error : ConfigError)
  | auth (error : AuthError)
  | classification (error : ClassificationError)
  | identity (error : IdentityError)
  | storage (step : Step) (error : StorageError)
  | fetch (step : Step) (error : FetchError)
  | metadata (step : Step) (error : MetadataError)
  | upload (step : Step) (error : UploadError)
  | io (step : Step) (error : FileError)
  deriving DecidableEq, Repr

/-- The step at which a publication failed. -/
def PublishError.step : PublishError → Step
  | .config _ => .configure
  | .auth _ => .authenticate
  | .classification _ => .classify
  | .identity _ => .descriptiveRecord
  | .storage step _ => step
  | .fetch step _ => step
  | .metadata step _ => step
  | .upload step _ => step
  | .io step _ => step

/-- The wording of the failure of a publication. -/
def PublishError.message : PublishError → String
  | .config error => "Configuration error: " ++ error.message
  | .auth error => "Failed to establish connection with DataONE: " ++ error.message
  | .classification error => error.message
  | .identity error => error.message
  | .storage step error => step.text ++ ": storage error: " ++ error.message
  | .fetch step error => step.text ++ ": " ++ error.message
  | .metadata step error => step.text ++ ": " ++ error.message
  | .upload step error => step.text ++ ": " ++ error.message
  | .io step error => step.text ++ ": IO error: " ++ error.message

end Deposit
