import Deposit.PackageInfo
import Deposit.Publication.Lookup

/-!
What the package-info document says about the items: the place of each in storage,
and address and checksum of those whose content is elsewhere.
-/

namespace Deposit.World

/-- The name and the path of an item. -/
def pathEntry (w : World) (id : String) : Act StorageError (String × String) := do
  let item ← w.item id
  let path ← w.itemPath id
  pure (item.name, path)

/-- The paths of items, by name. -/
def collectPaths (w : World) (items : List String) : Act StorageError (Dictionary String) := do
  let entries ← Act.each w.pathEntry items
  pure (.ofList entries)

/-- Puts a failure to fetch a file in terms of its name and its address. -/
def downloadFailure (name url : String) (error : FetchError) : FetchError :=
  .download name url error.message

/-- Fetches the content of a linked file and takes its digest. -/
def externalFile (w : World) (name url : String) : Act FetchError ExternalFile := do
  w.scratch.rename .io
  let scratch ← (w.fetch url).rename (downloadFailure name url)
  let digest ← (Act.ofExcept (scratch.opened.bind fun _ => scratch.digest)).rename .io
  pure ⟨url, digest.hex⟩

/-- The file of an item, if it has one with a link. -/
def externalEntry (w : World) (id : String) : Act FetchError (Option (String × ExternalFile)) := do
  let file? ← (w.file? id).rename .storage
  match file?.bind fun file => file.externalUrl.map fun url => (file.name, url) with
  | some (name, url) =>
    let external ← w.externalFile name url
    pure (some (name, external))
  | none => pure none

/-- The linked files of items, by name. -/
def collectExternalFiles (w : World) (items : List String) :
    Act FetchError (Dictionary ExternalFile) := do
  let entries ← Act.each w.externalEntry items
  pure (.ofList (entries.filterMap id))

end Deposit.World
