import Deposit.Config
import Deposit.Publication.Classify
import Deposit.Publication.Collect
import Deposit.Publication.Member

/-!
A publication, from the license check to the resource map.

The steps follow each other strictly. Files of the storage, the license and the
environment are left out of the package if they cannot be uploaded; any other
failure ends the publication and names its step.
-/

namespace Deposit

/-- What is to be published. -/
structure PublishRequest where
  /-- The items of the package, in the order of their description. -/
  items : List String
  taleId : String
  userId : String
  licenseId : String
  /-- The publisher's token for the repository. -/
  repositoryToken : String
  /-- What is merged over the package-info document. -/
  provenance : Yaml.Mapping

/-- What was published. -/
structure PublishReport where
  packageUrl : String
  resourceMapPid : Pid
  metadataPid : Pid
  /-- The objects in the resource map. -/
  objectPids : List Pid
  /-- The steps that went on without their object. -/
  degradedSteps : List Step
  /-- The names of the files that could not be uploaded. -/
  failedObjects : List String
  deriving DecidableEq, Repr

/-! ### Preparation -/

/-- What is known before the first upload. -/
structure Prepared where
  rightsHolder : String
  tale : Tale
  user : User
  classified : Classified

namespace World

/-- Makes sure that the repository is there, and reads the publisher's id off the token. -/
def authenticate (w : World) (token : String) : Act PublishError String := do
  w.ping.rename .auth
  .ofExcept <|
    match Identity.userId token with
    | .ok id => .ok id
    | .error e => .error (.auth (.invalidCredentials e.message))

/-- Reads the tale and its publisher. -/
def loadTale (w : World) (taleId userId : String) : Act PublishError (Tale × User) := do
  let tale ← (w.tale taleId).rename (.storage .loadTale)
  let user ← (w.user userId).rename (.storage .loadTale)
  pure (tale, user)

/-- All that comes before the first upload. -/
def prepare (w : World) (network : Network) (request : PublishRequest) :
    Act PublishError Prepared := do
  let rightsHolder ← w.authenticate request.repositoryToken
  let (tale, user) ← w.loadTale request.taleId request.userId
  let classified ← (w.classify network request.items).rename .classification
  pure ⟨rightsHolder, tale, user, classified⟩

end World

/-! ### Members -/

/-- What became of a file of the storage: its identifier, if it was uploaded. -/
structure StoredOutcome where
  item : FoundItem
  pid : Option Pid
  deriving DecidableEq, Repr

/-- The members of the package. -/
structure Members where
  stored : List StoredOutcome
  packageInfo : Member
  license : Option Member
  environment : Option Member
  deriving DecidableEq, Repr

namespace Members

/-- The identifiers of the members; nothing stands for one that was left out. -/
def pids (m : Members) : List (Option Pid) :=
  m.stored.map (·.pid) ++ [some m.packageInfo.pid, m.license.map (·.pid), m.environment.map (·.pid)]

/-- The sizes of the members that are described by themselves. -/
def sizes (m : Members) : FileSizes where
  packageInfo := m.packageInfo.size
  license := (m.license.map (·.size)).getD 0
  environment := (m.environment.map (·.size)).getD 0

/-- The files of the storage that could not be uploaded. -/
def failed (m : Members) : List FoundItem :=
  (m.stored.filter (·.pid.isNone)).map (·.item)

/-- The steps that went on without their object. -/
def degradedSteps (m : Members) : List Step :=
  (if m.license.isNone then [.license] else []) ++
    (if m.environment.isNone then [.environment] else [])

/-- The items that are described: all but those that have a failed upload. -/
def described (m : Members) (classified : Classified) : List String :=
  classified.described.filter fun id => !(m.failed.map (·.item)).contains id

end Members

namespace World

/-- An upload that the publication can do without; its failure is measured. -/
def bestEffort {α : Type} (step : Step) (upload : Act PublishError α) :
    Act PublishError (Option α) := do
  match ← upload.attempt with
  | .ok a => pure (some a)
  | .error _ =>
    .measure (.degraded step.text)
    pure none

/-- Uploads the file of one item, if possible. -/
def uploadItem (w : World) (rightsHolder : String) (item : FoundItem) :
    Act PublishError StoredOutcome := do
  let pid ← bestEffort .localObjects (w.uploadStored item.file rightsHolder)
  pure ⟨item, pid⟩

/-- Makes the package-info document and uploads it. -/
def uploadPackageInfo (w : World) (request : PublishRequest) (prepared : Prepared) :
    Act PublishError Member := do
  let paths ← (w.collectPaths request.items).rename (.storage .packageInfo)
  let files ← (w.collectExternalFiles prepared.classified.external).rename (.fetch .packageInfo)
  let info := PackageInfo.ofTale prepared.tale paths files request.provenance
  let text ← (Act.ofExcept info.text).rename
    (.metadata .packageInfo ∘ .yaml ∘ Yaml.Unwritable.message)
  let pid ← w.drawPid
  w.uploadGenerated .packageInfo .packageInfo pid (Utf8.bytes text) prepared.rightsHolder

/-- Uploads the members of the package. -/
def uploadMembers (w : World) (config : Config) (request : PublishRequest)
    (prepared : Prepared) : Act PublishError Members := do
  let stored ← Act.each (w.uploadItem prepared.rightsHolder) prepared.classified.stored
  let packageInfo ← w.uploadPackageInfo request prepared
  let license ← bestEffort .license
    (w.uploadLicense config.licenseDirectory request.licenseId prepared.rightsHolder)
  let environment ← bestEffort .environment
    (w.uploadEnvironment prepared.tale prepared.rightsHolder)
  pure ⟨stored, packageInfo, license, environment⟩

/-! ### Description -/

/-- The entry of an item in the descriptive record. -/
def objectEntry (w : World) (id : String) : Act StorageError ObjectEntry := do
  let item ← w.item id
  let file? ← w.file? id
  pure ⟨item.name, item.description.getD "", item.size,
    (file?.map (·.mimeType)).getD FileObject.defaultMimeType⟩

/-- Makes the descriptive record and uploads it. -/
def uploadRecord (w : World) (request : PublishRequest) (prepared : Prepared)
    (members : Members) : Act PublishError Pid := do
  let entries ← (Act.each w.objectEntry (members.described prepared.classified)).rename
    (.storage .descriptiveRecord)
  let pid ← w.drawPid
  let document ← .ofExcept <|
    match DescriptiveRecord.document prepared.tale prepared.user entries pid members.sizes
      request.licenseId prepared.rightsHolder with
    | .ok document => .ok document
    | .error missing => .error (.identity (.missingIdentity missing))
  let metadata := SystemMetadata.ofContent document pid DescriptiveRecord.formatId
    DescriptiveRecord.fileName prepared.rightsHolder none
  (w.upload pid document metadata).rename (.upload .descriptiveRecord)

/-- The whole publication. -/
def run (w : World) (config : Config) (request : PublishRequest) :
    Act PublishError PublishReport := do
  let _ ← (Act.ofExcept (Config.license request.licenseId)).rename .config
  let network := config.effectiveNetwork
  let prepared ← w.prepare network request
  let members ← w.uploadMembers config request prepared
  let metadataPid ← w.uploadRecord request prepared members
  let mapPid ← w.drawPid
  let map ← w.uploadResourceMap network mapPid metadataPid members.pids prepared.rightsHolder
  pure
    { packageUrl := network.landingPage map.pid
      resourceMapPid := map.pid
      metadataPid
      objectPids := map.objectPids
      degradedSteps := members.degradedSteps
      failedObjects := members.failed.map (·.file.name) }

/-- The outcome of a publication in measurements. -/
def outcome : Except PublishError PublishReport → String
  | .ok _ => "success"
  | .error e => e.step.text

/-- The whole publication, measured. -/
def publish (w : World) (config : Config) (request : PublishRequest) :
    Act PublishError PublishReport := do
  let result ← (w.run config request).attempt
  let seconds ← .consult w.elapsed
  .measure (.publication (outcome result) seconds)
  .ofExcept result

end World

end Deposit
