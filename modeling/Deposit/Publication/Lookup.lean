import Deposit.Publication.World

/-!
Records of the storage, by their paths.
-/

namespace Deposit.World

/-- A document as a record. -/
def decoded {α : Type} (read : Json → Except Json.Mismatch α) (document : Json) :
    Except StorageError α :=
  match read document with
  | .ok record => .ok record
  | .error mismatch => .error (.parseError mismatch.message)

/-- Reads the record at a path. -/
def record {α : Type} (w : World) (read : Json → Except Json.Mismatch α) (path : String) :
    Act StorageError α := do
  let document ← w.document path
  .ofExcept (decoded read document)

/-- Reads an item. -/
def item (w : World) (id : String) : Act StorageError Item := w.record Item.ofJson ("item/" ++ id)

/-- Reads a tale. -/
def tale (w : World) (id : String) : Act StorageError Tale := w.record Tale.ofJson ("tale/" ++ id)

/-- Reads a user. -/
def user (w : World) (id : String) : Act StorageError User := w.record User.ofJson ("user/" ++ id)

/-- Reads an image. -/
def image (w : World) (id : String) : Act StorageError Image :=
  w.record Image.ofJson ("image/" ++ id)

/-- Reads a recipe. -/
def recipe (w : World) (id : String) : Act StorageError Recipe :=
  w.record Recipe.ofJson ("recipe/" ++ id)

/-- A document as the path of an item. -/
def pathOf (id : String) : Json → Except StorageError String
  | .str path => .ok path
  | other =>
    .error (.parseError ("expected a path string for item " ++ id ++ ", got " ++ other.compact))

/-- Reads the path of an item. -/
def itemPath (w : World) (id : String) : Act StorageError String := do
  let document ← w.document ("resource/" ++ id ++ "/path?type=item")
  .ofExcept (pathOf id document)

/-- The address of the archive of a tale's environment: the tale names its image, the
image its recipe, and the recipe a repository at a commit. -/
def archiveUrl (w : World) (tale : Tale) : Act StorageError String := do
  let imageId ← .ofExcept <|
    match tale.imageId with
    | some id => .ok id
    | none => .error (.notFound ("image of tale " ++ tale.id))
  let image ← w.image imageId
  let recipe ← w.recipe image.recipeId
  pure recipe.tarballUrl

end Deposit.World
