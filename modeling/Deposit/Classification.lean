import Deposit.Network
import Deposit.Storage.Record

/-!
Items by the place where their content is.

A file without a link is kept by the storage service itself; a linked one is in
the network or elsewhere. A `Classified` list keeps the order of the items.
-/

namespace Deposit

/-- Where the content of a file is. -/
inductive Location where
  /-- With the storage service. -/
  | stored
  /-- In the network that is published into. -/
  | inNetwork
  /-- At any other address. -/
  | elsewhere
  deriving DecidableEq, Repr

namespace Location

/-- The word for a location. -/
def text : Location → String
  | .stored => "local"
  | .inNetwork => "data_one_remote"
  | .elsewhere => "other_remote"

/-- The location of a file, for a network. -/
def of (file : FileObject) (network : Network) : Location :=
  match file.externalUrl with
  | some url => if network.hosts url then .inNetwork else .elsewhere
  | none => .stored

end Location

/-- An item with its file. -/
structure FoundItem where
  item : String
  file : FileObject
  deriving DecidableEq, Repr

/-- Items by location, each list in the order of the items. -/
structure Classified where
  inNetwork : List String
  elsewhere : List String
  stored : List FoundItem
  deriving DecidableEq, Repr

namespace Classified

/-- No items. -/
def empty : Classified := ⟨[], [], []⟩

/-- Adds an item with its file at the end of the list for its location. -/
def add (c : Classified) (network : Network) (item : String) (file : FileObject) : Classified :=
  match Location.of file network with
  | .inNetwork => { c with inNetwork := c.inNetwork ++ [item] }
  | .elsewhere => { c with elsewhere := c.elsewhere ++ [item] }
  | .stored => { c with stored := c.stored ++ [⟨item, file⟩] }

/-- Items with their files, by location. -/
def ofFound (network : Network) (found : List FoundItem) : Classified :=
  found.foldl (fun c f => c.add network f.item f.file) empty

/-- The ids of the items that the storage service keeps. -/
def storedIds (c : Classified) : List String := c.stored.map (·.item)

/-- The number of items. -/
def size (c : Classified) : Nat := c.inNetwork.length + c.elsewhere.length + c.stored.length

/-- The items whose content is not with the storage service: those elsewhere, then
those in the network. -/
def external (c : Classified) : List String := c.elsewhere ++ c.inNetwork

/-- All items in the order of the descriptive record: in the network, stored,
elsewhere. -/
def described (c : Classified) : List String := c.inNetwork ++ c.storedIds ++ c.elsewhere

end Classified

end Deposit
