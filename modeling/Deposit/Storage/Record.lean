import Deposit.Json.Record
import Deposit.Text.Blank

/-!
The records that the storage service keeps: items with their files, tales, their
publishers, and the images that tales run in.
-/

namespace Deposit

/-- A file of an item. -/
structure FileObject where
  id : String
  name : String
  size : Nat
  mimeType : String
  /-- The address of the content, if it is hosted elsewhere. -/
  linkUrl : Option String
  deriving DecidableEq, Repr

namespace FileObject

/-- The format of files whose format is not recorded. -/
def defaultMimeType : String := "application/octet-stream"

/-- The address of the content, if it is hosted elsewhere; a blank one counts
as none. -/
def externalUrl (f : FileObject) : Option String := f.linkUrl.bind Blank.present?

/-- The fields of a file. -/
def fields : List (Json.Field FileObject) :=
  [.of "_id" true Json.asString fun v f => { f with id := v },
   .of "name" true Json.asString fun v f => { f with name := v },
   .of "size" false Json.asSize fun v f => { f with size := v },
   .of "mimeType" false Json.asString fun v f => { f with mimeType := v },
   .of "linkUrl" false Json.asOptionalString fun v f => { f with linkUrl := v }]

/-- Reads a file. -/
def ofJson (j : Json) : Except Json.Mismatch FileObject :=
  Json.asRecord "FileObject" fields ⟨"", "", 0, defaultMimeType, none⟩ j

/-- The record of a file. -/
def toJson (f : FileObject) : Json :=
  Json.object ([("_id", .str f.id), ("name", .str f.name), ("size", .ofNat f.size),
    ("mimeType", .str f.mimeType)] ++
    match f.linkUrl with
    | some url => [("linkUrl", .str url)]
    | none => [])

end FileObject

/-- An item: a named place for a file. -/
structure Item where
  id : String
  name : String
  size : Nat
  description : Option String
  deriving DecidableEq, Repr

namespace Item

/-- The fields of an item. -/
def fields : List (Json.Field Item) :=
  [.of "_id" true Json.asString fun v i => { i with id := v },
   .of "name" true Json.asString fun v i => { i with name := v },
   .of "size" false Json.asSize fun v i => { i with size := v },
   .of "description" false Json.asOptionalString fun v i => { i with description := v }]

/-- Reads an item. -/
def ofJson (j : Json) : Except Json.Mismatch Item :=
  Json.asRecord "Item" fields ⟨"", "", 0, none⟩ j

/-- The record of an item. -/
def toJson (i : Item) : Json :=
  Json.object [("_id", .str i.id), ("name", .str i.name), ("size", .ofNat i.size),
    ("description", Json.ofOptionalString i.description)]

end Item

/-- A tale: the work that is published. -/
structure Tale where
  id : String
  title : String
  description : Option String
  category : Option String
  format : Option Json
  config : Option Json
  imageId : Option String
  deriving Repr

namespace Tale

/-- The fields of a tale. -/
def fields : List (Json.Field Tale) :=
  [.of "_id" true Json.asString fun v t => { t with id := v },
   .of "title" false Json.asString fun v t => { t with title := v },
   .of "description" false Json.asOptionalString fun v t => { t with description := v },
   .of "category" false Json.asOptionalString fun v t => { t with category := v },
   .of "format" false Json.asOptional fun v t => { t with format := v },
   .of "config" false Json.asOptional fun v t => { t with config := v },
   .of "imageId" false Json.asOptionalString fun v t => { t with imageId := v }]

/-- Reads a tale. -/
def ofJson (j : Json) : Except Json.Mismatch Tale :=
  Json.asRecord "Tale" fields ⟨"", "", none, none, none, none, none⟩ j

/-- The record of a tale. -/
def toJson (t : Tale) : Json :=
  Json.object [("_id", .str t.id), ("title", .str t.title),
    ("description", Json.ofOptionalString t.description),
    ("category", Json.ofOptionalString t.category),
    ("format", t.format.getD .null), ("config", t.config.getD .null),
    ("imageId", Json.ofOptionalString t.imageId)]

end Tale

/-- The publisher of a tale. -/
structure User where
  id : String
  firstName : Option String
  lastName : Option String
  email : Option String
  deriving DecidableEq, Repr

namespace User

/-- The fields of a publisher. -/
def fields : List (Json.Field User) :=
  [.of "_id" false Json.asString fun v u => { u with id := v },
   .of "firstName" false Json.asOptionalString fun v u => { u with firstName := v },
   .of "lastName" false Json.asOptionalString fun v u => { u with lastName := v },
   .of "email" false Json.asOptionalString fun v u => { u with email := v }]

/-- Reads a publisher. -/
def ofJson (j : Json) : Except Json.Mismatch User :=
  Json.asRecord "User" fields ⟨"", none, none, none⟩ j

/-- The record of a publisher. -/
def toJson (u : User) : Json :=
  Json.object [("_id", .str u.id), ("firstName", Json.ofOptionalString u.firstName),
    ("lastName", Json.ofOptionalString u.lastName), ("email", Json.ofOptionalString u.email)]

end User

/-- An image that tales run in. -/
structure Image where
  id : String
  recipeId : String
  deriving DecidableEq, Repr

namespace Image

/-- The fields of an image. -/
def fields : List (Json.Field Image) :=
  [.of "_id" true Json.asString fun v i => { i with id := v },
   .of "recipeId" true Json.asString fun v i => { i with recipeId := v }]

/-- Reads an image. -/
def ofJson (j : Json) : Except Json.Mismatch Image := Json.asRecord "Image" fields ⟨"", ""⟩ j

/-- The record of an image. -/
def toJson (i : Image) : Json :=
  Json.object [("_id", .str i.id), ("recipeId", .str i.recipeId)]

end Image

/-- What an image is built from: a source repository at a commit. -/
structure Recipe where
  id : String
  url : String
  commitId : String
  deriving DecidableEq, Repr

namespace Recipe

/-- The fields of a recipe. -/
def fields : List (Json.Field Recipe) :=
  [.of "_id" true Json.asString fun v r => { r with id := v },
   .of "url" true Json.asString fun v r => { r with url := v },
   .of "commitId" true Json.asString fun v r => { r with commitId := v }]

/-- Reads a recipe. -/
def ofJson (j : Json) : Except Json.Mismatch Recipe :=
  Json.asRecord "Recipe" fields ⟨"", "", ""⟩ j

/-- The record of a recipe. -/
def toJson (r : Recipe) : Json :=
  Json.object [("_id", .str r.id), ("url", .str r.url), ("commitId", .str r.commitId)]

/-- The address of the repository's archive at the commit. -/
def tarballUrl (r : Recipe) : String :=
  Blank.dropTrailing '/' r.url ++ "/tarball/" ++ r.commitId

end Recipe

end Deposit
