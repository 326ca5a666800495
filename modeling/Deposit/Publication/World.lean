import Deposit.Publication.Act

/-!
The world that a publication takes place in: how services and files answer.

Every answer of a service may depend on all calls before it, and every answer of the
machine on all that has happened, so a world may answer the same question differently
from one time to the next.
-/

namespace Deposit

/-- The machine that a publication runs on: its files, its supply of identifiers, and
its clock. -/
structure Machine where
  /-- The content of a license's file. -/
  licenseFile : Session → String → Except FileError Bytes
  /-- Whether there is room for a scratch file. -/
  scratchFile : Session → Except FileError Unit
  /-- An identifier for the next object. -/
  nextPid : Session → Pid
  /-- The seconds that the publication took. -/
  elapsed : Session → Binary64

/-- How the services answer, in view of the calls so far, and the machine. -/
structure World extends Machine where
  /-- Whether the repository is there. -/
  pingAnswer : Journal → Except AuthError Unit
  /-- The document at a path of the storage. -/
  documentAnswer : Journal → String → Except StorageError Json
  /-- The file of an item, if it has one. -/
  fileAnswer : Journal → String → Except StorageError (Option FileObject)
  /-- The content of a file of the storage. -/
  downloadAnswer : Journal → String → Except StorageError Scratch
  /-- The content at a web address. -/
  fetchAnswer : Journal → String → Except FetchError Scratch
  /-- Whether the repository takes an object. -/
  createAnswer : Journal → CreateCall → Except UploadError Unit

namespace World

/-- Asks whether the repository is there. -/
def ping (w : World) : Act AuthError Unit := .call w.pingAnswer .pinged

/-- Reads the document at a path of the storage. -/
def document (w : World) (path : String) : Act StorageError Json :=
  .call (w.documentAnswer · path) (.read path)

/-- Looks up the file of an item. -/
def file? (w : World) (item : String) : Act StorageError (Option FileObject) :=
  .call (w.fileAnswer · item) (.lookedUp item)

/-- Downloads the content of a file. -/
def download (w : World) (file : String) : Act StorageError Scratch :=
  .call (w.downloadAnswer · file) (.downloaded file)

/-- Fetches the content at a web address. -/
def fetch (w : World) (url : String) : Act FetchError Scratch :=
  .call (w.fetchAnswer · url) (.fetched url)

/-- Gives an object to the repository. -/
def create (w : World) (call : CreateCall) : Act UploadError Unit :=
  .call (w.createAnswer · call) (.created call)

/-- Makes a scratch file. -/
def scratch (w : World) : Act FileError Unit := .ask w.scratchFile .scratchMade

/-- Reads the file of a license. -/
def licenseText (w : World) (path : String) : Act FileError Bytes :=
  .ask (w.licenseFile · path) (.licenseRead path)

/-- Draws an identifier for the next object. -/
def drawPid {ε : Type} (w : World) : Act ε Pid := fun s =>
  let pid := w.nextPid s
  (.ok pid, s.extend [.drawn pid])

end World

end Deposit
