import Deposit.Proofs.Publication.Course

/-!
The itinerary of a publication: the courses of its parts, and of the whole.

`Course.publication` goes step by step in the documented order. It names every call
and every check, with the step it belongs to and the failure it may come to; of the
answers it assumes nothing.
-/

namespace Deposit.Course

variable {ε α : Type}

/-! ### Single calls -/

/-- The document at a path, as a record. -/
def record (step : Step) (read : Json → Except Json.Mismatch α) (path : String) :
    Course StorageError α :=
  ask step (fun answer => [.called (.read path answer)]) (·.bind (World.decoded read))

/-- An item. -/
def item (step : Step) (id : String) : Course StorageError Item :=
  record step Item.ofJson ("item/" ++ id)

/-- The path of an item. -/
def itemPath (step : Step) (id : String) : Course StorageError String :=
  let path := "resource/" ++ id ++ "/path?type=item"
  ask step (fun answer => [.called (.read path answer)]) (·.bind (World.pathOf id))

/-- The file of an item, if it has one. -/
def file? (step : Step) (item : String) : Course StorageError (Option FileObject) :=
  ask step (fun answer => [.called (.lookedUp item answer)]) id

/-- The content of a file. -/
def download (step : Step) (file : String) : Course StorageError Scratch :=
  ask step (fun answer => [.called (.downloaded file answer)]) id

/-- The content at a web address. -/
def fetch (step : Step) (url : String) : Course FetchError Scratch :=
  ask step (fun answer => [.called (.fetched url answer)]) id

/-- Room for a scratch file. -/
def scratch (step : Step) : Course FileError Unit :=
  ask step (fun answer => [.scratchMade answer]) id

/-- The file of a license. -/
def licenseText (step : Step) (path : String) : Course FileError Bytes :=
  ask step (fun answer => [.licenseRead path answer]) id

/-- A new identifier. -/
def drawPid (step : Step) : Course ε Pid := ask step (fun pid => [.drawn pid]) .ok

/-- The measurement of a create call. -/
def uploadMeasurement (call : CreateCall) : Except UploadError Unit → Measurement
  | .ok _ => .upload call.metadata.kind true call.content.length
  | .error _ => .upload call.metadata.kind false 0

/-- One create call, measured. -/
def upload (step : Step) (call : CreateCall) : Course UploadError Pid :=
  ask step
    (fun answer => [.called (.created call answer), .measured (uploadMeasurement call answer)])
    (·.map fun _ => call.pid)

/-! ### Preparation -/

/-- The repository is there, and the token names a user. -/
def authentication (token : String) : Course PublishError String := do
  let answered : Course AuthError Unit :=
    ask .authenticate (fun answer => [.called (.pinged answer)]) id
  answered.rename .auth
  check .authenticate
    ((Identity.userId token).mapError fun fault => .auth (.invalidCredentials fault.message))

/-- The tale, then its publisher. -/
def loading (taleId userId : String) : Course PublishError (Tale × User) := do
  let tale ← (record .loadTale Tale.ofJson ("tale/" ++ taleId)).rename (.storage .loadTale)
  let user ← (record .loadTale User.ofJson ("user/" ++ userId)).rename (.storage .loadTale)
  pure (tale, user)

/-- What the answer on the file of an item comes to: the item has to have one. -/
def located (item : String) :
    Except StorageError (Option FileObject) → Except ClassificationError FoundItem
  | .ok (some file) => .ok ⟨item, file⟩
  | .ok none => .error (.notFound item)
  | .error e => .error (.ofLookup item e)

/-- The file of each item, in order. -/
def classification (network : Network) (items : List String) :
    Course ClassificationError Classified := do
  let found ← each (fun item =>
    ask .classify (fun answer => [.called (.lookedUp item answer)]) (located item)) items
  pure (.ofFound network found)

/-- All that comes before the first upload. -/
def preparation (network : Network) (request : PublishRequest) :
    Course PublishError Prepared := do
  let rightsHolder ← authentication request.repositoryToken
  let (tale, user) ← loading request.taleId request.userId
  let classified ← (classification network request.items).rename .classification
  pure ⟨rightsHolder, tale, user, classified⟩

/-! ### Members -/

/-- A file that was made for the package goes to the repository. -/
def generatedUpload (step : Step) (file : GeneratedFile) (pid : Pid) (content : Bytes)
    (rightsHolder : String) : Course PublishError Member := do
  let metadata :=
    SystemMetadata.ofContent content pid file.uploadFormat file.fileName rightsHolder none
  let pid ← (upload step ⟨pid, content, metadata⟩).rename (.upload step)
  pure ⟨pid, content.length⟩

/-- A file of the storage: it is downloaded, opened, read twice, and goes to the
repository. -/
def storedUpload (file : FileObject) (rightsHolder : String) : Course PublishError Pid := do
  (scratch .localObjects).rename (.io .localObjects)
  let scratch ← (download .localObjects file.id).rename (.storage .localObjects)
  let pid ← drawPid .localObjects
  (check .localObjects scratch.opened).rename (.io .localObjects)
  let digest ← (check .localObjects scratch.digest).rename (.metadata .localObjects ∘ .checksum)
  let metadata :=
    SystemMetadata.ofDigest digest pid file.mimeType file.name rightsHolder (some file.size)
  let content ← (check .localObjects scratch.read).rename (.upload .localObjects ∘ .content pid)
  (upload .localObjects ⟨pid, content, metadata⟩).rename (.upload .localObjects)

/-- The file of one item, if it can be uploaded. -/
def itemUpload (rightsHolder : String) (item : FoundItem) :
    Course PublishError StoredOutcome := do
  let pid ← bestEffort .localObjects (storedUpload item.file rightsHolder)
  pure ⟨item, pid⟩

/-- The name and the path of an item. -/
def pathEntry (step : Step) (id : String) : Course StorageError (String × String) := do
  let item ← item step id
  let path ← itemPath step id
  pure (item.name, path)

/-- The paths of items, by name. -/
def paths (step : Step) (items : List String) : Course StorageError (Dictionary String) := do
  let entries ← each (pathEntry step) items
  pure (.ofList entries)

/-- The content of a linked file is fetched, and its digest taken. -/
def externalFile (step : Step) (name url : String) : Course FetchError ExternalFile := do
  (scratch step).rename .io
  let scratch ← (fetch step url).rename (World.downloadFailure name url)
  let digest ← (check step (scratch.opened.bind fun _ => scratch.digest)).rename .io
  pure ⟨url, digest.hex⟩

/-- The name and the address of a file, if it has a link. -/
def linkOf (file? : Option FileObject) : Option (String × String) :=
  file?.bind fun file => file.externalUrl.map fun url => (file.name, url)

/-- The file of an item, if it has one with a link. -/
def externalEntry (step : Step) (id : String) :
    Course FetchError (Option (String × ExternalFile)) := do
  let file? ← (file? step id).rename .storage
  match linkOf file? with
  | some (name, url) =>
    let external ← externalFile step name url
    pure (some (name, external))
  | none => pure none

/-- The linked files of items, by name. -/
def externalFiles (step : Step) (items : List String) :
    Course FetchError (Dictionary ExternalFile) := do
  let entries ← each (externalEntry step) items
  pure (.ofList (entries.filterMap id))

/-- The package-info document: the paths of all items, the files with links, the text, and the
document itself. -/
def packageInfoUpload (request : PublishRequest) (prepared : Prepared) :
    Course PublishError Member := do
  let paths ← (paths .packageInfo request.items).rename (.storage .packageInfo)
  let files ← (externalFiles .packageInfo prepared.classified.external).rename
    (.fetch .packageInfo)
  let info := PackageInfo.ofTale prepared.tale paths files request.provenance
  let text ← (check .packageInfo info.text).rename
    (.metadata .packageInfo ∘ .yaml ∘ Yaml.Unwritable.message)
  let pid ← drawPid .packageInfo
  generatedUpload .packageInfo .packageInfo pid (Utf8.bytes text) prepared.rightsHolder

/-- The text of the license. -/
def licenseUpload (directory licenseId rightsHolder : String) : Course PublishError Member := do
  let license ← (check .license (Config.license licenseId)).rename .config
  let content ← (licenseText .license (license.pathIn directory)).rename (.io .license)
  let pid ← drawPid .license
  generatedUpload .license .license pid content rightsHolder

/-- The address of the archive of the environment: the image, then its recipe. -/
def archiveUrl (step : Step) (tale : Tale) : Course StorageError String := do
  let imageId ← check step <|
    match tale.imageId with
    | some id => .ok id
    | none => .error (.notFound ("image of tale " ++ tale.id))
  let image ← record step Image.ofJson ("image/" ++ imageId)
  let recipe ← record step Recipe.ofJson ("recipe/" ++ image.recipeId)
  pure recipe.tarballUrl

/-- The archive of the environment. -/
def environmentUpload (tale : Tale) (rightsHolder : String) : Course PublishError Member := do
  let url ← (archiveUrl .environment tale).rename (.storage .environment)
  (scratch .environment).rename (.io .environment)
  let scratch ← (fetch .environment url).rename (.fetch .environment)
  let pid ← drawPid .environment
  let content ← (check .environment scratch.read).rename (.upload .environment ∘ .content pid)
  generatedUpload .environment .environment pid content rightsHolder

/-- The members: the files of the storage, the package-info document, the license, and
the environment. -/
def memberUploads (config : Config) (request : PublishRequest) (prepared : Prepared) :
    Course PublishError Members := do
  let stored ← each (itemUpload prepared.rightsHolder) prepared.classified.stored
  let packageInfo ← packageInfoUpload request prepared
  let license ← bestEffort .license
    (licenseUpload config.licenseDirectory request.licenseId prepared.rightsHolder)
  let environment ← bestEffort .environment
    (environmentUpload prepared.tale prepared.rightsHolder)
  pure ⟨stored, packageInfo, license, environment⟩

/-! ### Record and map -/

/-- The entry of an item in the descriptive record. -/
def objectEntry (step : Step) (id : String) : Course StorageError ObjectEntry := do
  let item ← item step id
  let file? ← file? step id
  pure ⟨item.name, item.description.getD "", item.size,
    (file?.map (·.mimeType)).getD FileObject.defaultMimeType⟩

/-- The create call of a descriptive record. -/
def recordCall (pid : Pid) (document : Bytes) (rightsHolder : String) : CreateCall :=
  ⟨pid, document, .ofContent document pid DescriptiveRecord.formatId DescriptiveRecord.fileName
    rightsHolder none⟩

/-- The descriptive record: an entry for each item, then the record itself. -/
def recordUpload (request : PublishRequest) (prepared : Prepared) (members : Members) :
    Course PublishError Pid := do
  let entries ← (each (objectEntry .descriptiveRecord)
    (members.described prepared.classified)).rename (.storage .descriptiveRecord)
  let pid ← drawPid .descriptiveRecord
  let document ← (check .descriptiveRecord (DescriptiveRecord.document prepared.tale
    prepared.user entries pid members.sizes request.licenseId prepared.rightsHolder)).rename
    (.identity ∘ .missingIdentity)
  (upload .descriptiveRecord (recordCall pid document prepared.rightsHolder)).rename
    (.upload .descriptiveRecord)

/-- The create call of a resource map. -/
def mapCall (network : Network) (map : ResourceMap) (rightsHolder : String) : CreateCall :=
  let document := map.toXml network
  ⟨map.pid, document, .ofContent document map.pid ResourceMap.formatId "" rightsHolder none⟩

/-- The resource map over the objects that there are. -/
def mapUpload (network : Network) (pid metadataPid : Pid) (objects : List (Option Pid))
    (rightsHolder : String) : Course PublishError ResourceMap := do
  let map := ResourceMap.ofObjects pid metadataPid objects
  let _ ← (upload .resourceMap (mapCall network map rightsHolder)).rename (.upload .resourceMap)
  pure map

/-! ### The whole publication -/

/-- The report on a publication. -/
def reportOf (network : Network) (members : Members) (metadataPid : Pid) (map : ResourceMap) :
    PublishReport where
  packageUrl := network.landingPage map.pid
  resourceMapPid := map.pid
  metadataPid := metadataPid
  objectPids := map.objectPids
  degradedSteps := members.degradedSteps
  failedObjects := members.failed.map (·.file.name)

/-- A publication: the license check, the preparation, the members, the descriptive
record, and the resource map. -/
def publication (config : Config) (request : PublishRequest) :
    Course PublishError PublishReport := do
  let _ ← (check .configure (Config.license request.licenseId)).rename .config
  let network := config.effectiveNetwork
  let prepared ← preparation network request
  let members ← memberUploads config request prepared
  let metadataPid ← recordUpload request prepared members
  let mapPid ← drawPid .resourceMap
  let map ← mapUpload network mapPid metadataPid members.pids prepared.rightsHolder
  pure (reportOf network members metadataPid map)

/-! ### Its two parts -/

/-- A publication up to its resource map. -/
def assembly (config : Config) (request : PublishRequest) :
    Course PublishError (Prepared × Members × Pid) := do
  let _ ← (check .configure (Config.license request.licenseId)).rename .config
  let prepared ← preparation config.effectiveNetwork request
  let members ← memberUploads config request prepared
  let metadataPid ← recordUpload request prepared members
  pure (prepared, members, metadataPid)

/-- The end of a publication: its resource map. -/
def mapping (network : Network) (prepared : Prepared) (members : Members) (metadataPid : Pid) :
    Course PublishError PublishReport := do
  let mapPid ← drawPid .resourceMap
  let map ← mapUpload network mapPid metadataPid members.pids prepared.rightsHolder
  pure (reportOf network members metadataPid map)

theorem publication_eq (config : Config) (request : PublishRequest) :
    publication config request = (assembly config request >>= fun (prepared, members, pid) =>
      mapping config.effectiveNetwork prepared members pid) := by
  simp only [publication, assembly, mapping, bind_assoc, pure_bind]

end Deposit.Course
