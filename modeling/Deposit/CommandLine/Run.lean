import Deposit.CommandLine.Invocation
import Deposit.Publication.Remote
import Deposit.Yaml.Reader

/-!
Following a command line: from the arguments to what is printed.
-/

namespace Deposit.CommandLine

/-- Why a command failed. -/
inductive Failure where
  | config (error : ConfigError)
  /-- The provenance file cannot be read. -/
  | provenanceFile (path : String) (error : FileError)
  /-- The provenance file is no YAML. -/
  | provenanceSyntax (fault : Yaml.Fault)
  /-- The provenance file holds something else than a mapping. -/
  | provenanceForm (path : String)
  | publish (error : PublishError)
  | classification (error : ClassificationError)

/-- The causes behind a failure of the storage service. -/
def storageCauses : StorageError → List String
  | .io error => [error.message]
  | _ => []

/-- The wording of a failure, and of the causes behind it. -/
def Failure.chain : Failure → List String
  | .config error => [error.message]
  | .provenanceFile path error => ["Failed to read provenance file " ++ path, error.message]
  | .provenanceSyntax _ => ["invalid YAML"]
  | .provenanceForm path => ["Provenance file " ++ path ++ " must hold a YAML mapping"]
  | .publish error => [error.message]
  | .classification error =>
    match error with
    | .notFound _ => [error.message]
    | .storage _ source => [error.message, source.message] ++ storageCauses source

/-- The wording of a failure with its causes. -/
def Failure.message (failure : Failure) : String := ": ".intercalate failure.chain

/-! ### Configuration -/

/-- The configuration of a command: what the command line says counts before the
environment, and that before the defaults. -/
def configure (environment : Environment) (connection : Connection) :
    Except ConfigError Config := do
  let config ← Config.ofEnvironment environment
  let config :=
    { config with
      storageApiUrl := connection.storageUrl.or config.storageApiUrl
      memberNode := connection.node.getD config.memberNode
      network := connection.network.or config.network }
  config.validate
  pure config

/-- Reads provenance fields; an empty document has none. -/
def readProvenance (path : String) (content : Except FileError Bytes) :
    Except Failure Yaml.Mapping :=
  match content with
  | .error error => .error (.provenanceFile path error)
  | .ok bytes =>
    match Utf8.decode bytes with
    | .error _ => .error (.provenanceFile path .notText)
    | .ok text =>
      match Yaml.parse (String.ofList text) with
      | .error fault => .error (.provenanceSyntax fault)
      | .ok (.map entries) => .ok entries
      | .ok .null => .ok []
      | .ok _ => .error (.provenanceForm path)

/-! ### Output -/

/-- The report of a publication as a record. -/
def reportRecord (report : PublishReport) : Json :=
  .obj
    [("package_url", .str report.packageUrl),
     ("resource_map_pid", .str report.resourceMapPid.text),
     ("metadata_pid", .str report.metadataPid.text),
     ("object_pids", .arr (report.objectPids.map (.str ·.text))),
     ("degraded_steps", .arr (report.degradedSteps.map (.str ·.text))),
     ("failed_objects", .arr (report.failedObjects.map .str))]

/-- The report of a publication as lines. -/
def reportLines (report : PublishReport) : List String :=
  ["Published: " ++ report.packageUrl,
   "  Resource map: " ++ report.resourceMapPid.text,
   "  Metadata:     " ++ report.metadataPid.text,
   "  Objects:      " ++ toString report.objectPids.length] ++
    (if report.degradedSteps.isEmpty then []
     else ["  Skipped:      " ++ ", ".intercalate (report.degradedSteps.map (·.text))]) ++
    report.failedObjects.map ("  Not uploaded: " ++ ·)

/-- A classification as a record. -/
def classifiedRecord (network : Network) (c : Classified) : Json :=
  Json.object
    [("network", .str network.text),
     ("dataone", .arr (c.inNetwork.map .str)),
     ("remote", .arr (c.elsewhere.map .str)),
     ("local", .arr (c.storedIds.map .str))]

/-- A classification as lines. -/
def classifiedLines (network : Network) (c : Classified) : List String :=
  let group (label : String) (items : List String) : List String :=
    ("  " ++ label ++ ": " ++ toString items.length) :: items.map ("    " ++ ·)
  ("Classified " ++ toString c.size ++ " items (" ++ network.text ++ ")") ::
    (group "DataONE" c.inNetwork ++ group "Remote" c.elsewhere ++ group "Local" c.storedIds)

/-- The text of lines. -/
def linesText (lines : List String) : String := String.join (lines.map (· ++ "\n"))

/-! ### Commands -/

/-- What a command needs from outside: the environment, files by path, the servers, and
the machine. -/
structure Surroundings where
  environment : Environment
  file : String → Except FileError Bytes
  transport : Journal → Http.Transport
  machine : Machine
  /-- Whether the storage service inside the deployment can be reached. -/
  internal : Bool

/-- The request that the arguments of `publish` make. -/
def publishRequest (arguments : PublishArguments) (provenance : Yaml.Mapping) : PublishRequest where
  items := arguments.items
  taleId := arguments.taleId
  userId := arguments.userId
  licenseId := arguments.license
  repositoryToken := arguments.repositoryToken
  provenance := provenance

/-- Publishes a tale and prints the report. -/
def runPublish (s : Surroundings) (arguments : PublishArguments) : Except Failure String := do
  let config ← (configure s.environment arguments.connection).mapError .config
  let config :=
    { config with licenseDirectory := arguments.licenseDirectory.getD config.licenseDirectory }
  let provenance ←
    match arguments.provenanceFile with
    | some path => readProvenance path (s.file path)
    | none => .ok []
  let (result, session) := publishTale s.transport s.machine config (config.storageUrl s.internal)
    arguments.connection.storageToken (publishRequest arguments provenance) .start
  let report ← result.mapError .publish
  let printed :=
    if arguments.json then (reportRecord report).pretty ++ "\n" else linesText (reportLines report)
  .ok (printed ++ if arguments.metrics then Registry.text (some session.log) else "")

/-- Classifies items and prints where they are. -/
def runClassify (s : Surroundings) (arguments : ClassifyArguments) : Except Failure String := do
  let config ← (configure s.environment arguments.connection).mapError .config
  let storage := StorageService.ofUrl (config.storageUrl s.internal) arguments.connection.storageToken
  let node := MemberNode.withoutToken config.memberNode config.userAgent
  let world := World.ofServices storage node s.transport s.machine
  let network := config.effectiveNetwork
  let classified ← (world.classify network arguments.items .start).1.mapError .classification
  .ok <|
    if arguments.json then (classifiedRecord network classified).pretty ++ "\n"
    else linesText (classifiedLines network classified)

/-- Follows a command: what it prints, or why it failed. -/
def run (s : Surroundings) : Command → Except Failure String
  | .publish arguments => runPublish s arguments
  | .classify arguments => runClassify s arguments

end Deposit.CommandLine
