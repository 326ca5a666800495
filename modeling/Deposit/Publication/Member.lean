import Deposit.License
import Deposit.Publication.Lookup
import Deposit.Publication.Upload

/-!
Members of a package as they get into the repository: files of the storage, and the
files that are made for the package.
-/

namespace Deposit

/-- A member in the repository: its identifier, and the number of its bytes. -/
structure Member where
  pid : Pid
  size : Nat
  deriving DecidableEq, Repr

namespace World

/-- Gives a file that was made for the package to the repository. -/
def uploadGenerated (w : World) (step : Step) (file : GeneratedFile) (pid : Pid)
    (content : Bytes) (rightsHolder : String) : Act PublishError Member := do
  let metadata :=
    SystemMetadata.ofContent content pid file.uploadFormat file.fileName rightsHolder none
  let pid ← (w.upload pid content metadata).rename (.upload step)
  pure ⟨pid, content.length⟩

/-- Downloads a file of the storage, takes its digest over chunks, and gives it to the
repository with the size that the storage has on record. -/
def uploadStored (w : World) (file : FileObject) (rightsHolder : String) :
    Act PublishError Pid := do
  w.scratch.rename (.io .localObjects)
  let scratch ← (w.download file.id).rename (.storage .localObjects)
  let pid ← w.drawPid
  (Act.ofExcept scratch.opened).rename (.io .localObjects)
  let digest ← (Act.ofExcept scratch.digest).rename (.metadata .localObjects ∘ .checksum)
  let metadata :=
    SystemMetadata.ofDigest digest pid file.mimeType file.name rightsHolder (some file.size)
  let content ← (Act.ofExcept scratch.read).rename (.upload .localObjects ∘ .content pid)
  (w.upload pid content metadata).rename (.upload .localObjects)

/-- Gives the text of a license to the repository. -/
def uploadLicense (w : World) (directory licenseId rightsHolder : String) :
    Act PublishError Member := do
  let license ← .ofExcept <|
    match License.find? licenseId with
    | some license => .ok license
    | none => .error (.config (.unsupportedLicense licenseId))
  let content ← (w.licenseText (license.pathIn directory)).rename (.io .license)
  let pid ← w.drawPid
  w.uploadGenerated .license .license pid content rightsHolder

/-- Fetches the archive of a tale's environment and gives it to the repository. -/
def uploadEnvironment (w : World) (tale : Tale) (rightsHolder : String) :
    Act PublishError Member := do
  let url ← (w.archiveUrl tale).rename (.storage .environment)
  w.scratch.rename (.io .environment)
  let scratch ← (w.fetch url).rename (.fetch .environment)
  let pid ← w.drawPid
  let content ← (Act.ofExcept scratch.read).rename (.upload .environment ∘ .content pid)
  w.uploadGenerated .environment .environment pid content rightsHolder

end World

end Deposit
