import Deposit.Classification
import Deposit.Publication.World

/-!
Items by location, as the storage shows them.

Each item is looked up once, in order; the first one without a file ends the
classification.
-/

namespace Deposit

/-- The failure to look up an item. -/
def ClassificationError.ofLookup (item : String) : StorageError → ClassificationError
  | .notFound _ => .notFound item
  | error => .storage item error

namespace World

/-- Looks up the file of an item, which has to have one. -/
def locate (w : World) (item : String) : Act ClassificationError FoundItem := do
  match ← (w.file? item).rename (.ofLookup item) with
  | some file => pure ⟨item, file⟩
  | none => .fail (.notFound item)

/-- Looks up all items and sorts them by location. -/
def classify (w : World) (network : Network) (items : List String) :
    Act ClassificationError Classified := do
  let found ← Act.each w.locate items
  pure (.ofFound network found)

end World

end Deposit
