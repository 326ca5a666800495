import Deposit.Error
import Deposit.Storage.Record
import Deposit.SystemMetadata

/-!
The journal of a session: every call to a service, with what it answered.

Three services take part: the storage that keeps the items, the web that some of
them are linked to, and the repository that takes the objects.
-/

namespace Deposit

/-! ### Scratch files -/

/-- What a download left in its scratch file: the content, and what goes wrong when
the file is opened, read in chunks, or read as a whole. -/
structure Scratch where
  content : Bytes
  openFault : Option FileError
  chunkFault : Option FileError
  readFault : Option FileError
  deriving DecidableEq, Repr

namespace Scratch

/-- A file in good order. -/
def holding (content : Bytes) : Scratch := ⟨content, none, none, none⟩

/-- A file that is not there any more. -/
def removed : Scratch := ⟨[], some .notFound, none, some .notFound⟩

/-- Opens the file. -/
def opened (scratch : Scratch) : Except FileError Unit :=
  match scratch.openFault with
  | some error => .error error
  | none => .ok ()

/-- The digest of the open file, taken over chunks. -/
def digest (scratch : Scratch) : Except FileError StreamDigest :=
  match scratch.chunkFault with
  | some error => .error error
  | none => (OpenFile.digest scratch.content).toExcept

/-- The bytes of the file. -/
def read (scratch : Scratch) : Except FileError Bytes :=
  match scratch.readFault with
  | some error => .error error
  | none => .ok scratch.content

end Scratch

/-! ### Calls -/

/-- An object for the repository: its identifier, its bytes, and its record. -/
structure CreateCall where
  pid : Pid
  content : Bytes
  metadata : SystemMetadata
  deriving DecidableEq, Repr

/-- A call with its answer. -/
inductive Event where
  /-- The repository was asked whether it is there. -/
  | pinged (answer : Except AuthError Unit)
  /-- The storage was asked for the document at a path. -/
  | read (path : String) (answer : Except StorageError Json)
  /-- The storage was asked for the file of an item. -/
  | lookedUp (item : String) (answer : Except StorageError (Option FileObject))
  /-- The storage was asked for the content of a file. -/
  | downloaded (file : String) (answer : Except StorageError Scratch)
  /-- The web was asked for the content at an address. -/
  | fetched (url : String) (answer : Except FetchError Scratch)
  /-- The repository was given an object. -/
  | created (call : CreateCall) (answer : Except UploadError Unit)

/-- Calls with their answers, in the order they were made. -/
abbrev Journal := List Event

namespace Journal

/-- The objects that the repository was given. -/
def creations (journal : Journal) : List CreateCall :=
  journal.filterMap fun
    | .created call _ => some call
    | _ => none

/-- The objects that the repository took. -/
def accepted (journal : Journal) : List CreateCall :=
  journal.filterMap fun
    | .created call (.ok ()) => some call
    | _ => none

/-- The identifiers of the objects that the repository took. -/
def acceptedPids (journal : Journal) : List Pid := journal.accepted.map (·.pid)

end Journal

end Deposit
