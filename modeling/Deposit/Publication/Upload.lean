import Deposit.GeneratedFile
import Deposit.Publication.World
import Deposit.ResourceMap

/-!
Uploads: one create call for each object, measured whether it is accepted or not.
-/

namespace Deposit

/-- The kind of an object in measurements, by its format and its file name. -/
def SystemMetadata.kind (metadata : SystemMetadata) : String :=
  if metadata.formatId = ResourceMap.formatId then "resource_map"
  else if metadata.formatId = DescriptiveRecord.formatId then "descriptive_record"
  else
    match GeneratedFile.ofFileName? metadata.fileName with
    | some file => file.kind
    | none => "object"

namespace World

/-- Gives an object to the repository, once. -/
def upload (w : World) (pid : Pid) (content : Bytes) (metadata : SystemMetadata) :
    Act UploadError Pid := do
  match ← (w.create ⟨pid, content, metadata⟩).attempt with
  | .ok () =>
    .measure (.upload metadata.kind true content.length)
    pure pid
  | .error e =>
    .measure (.upload metadata.kind false 0)
    .fail e

/-- Gives the resource map over the objects that there are to the repository. -/
def uploadResourceMap (w : World) (network : Network) (pid metadataPid : Pid)
    (objects : List (Option Pid)) (rightsHolder : String) : Act PublishError ResourceMap := do
  let map := ResourceMap.ofObjects pid metadataPid objects
  let document := map.toXml network
  let metadata :=
    SystemMetadata.ofContent document pid ResourceMap.formatId "" rightsHolder none
  let _ ← (w.upload pid document metadata).rename (.upload .resourceMap)
  pure map

end World

end Deposit
