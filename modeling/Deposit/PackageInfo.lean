import Deposit.DescriptiveRecord
import Deposit.Yaml.Printer

/-!
The package-info document: what is needed to build the tale again.

It holds the tale's category, format and settings, the place of each item in
storage, and address and checksum of the items that are not in the package. What
the publisher says about provenance is merged over it.
-/

namespace Deposit

/-- An item that is referred to by its address. -/
structure ExternalFile where
  url : String
  md5 : String
  deriving DecidableEq, Repr

/-- What the document holds. -/
structure PackageInfo where
  identifier : String
  category : String
  format : String
  config : String
  /-- The places of items in storage, by name. -/
  paths : Dictionary String
  /-- Left out of the document if there are none. -/
  externalFiles : Dictionary ExternalFile
  provenance : Yaml.Mapping

namespace PackageInfo

/-- The version of the document's layout. -/
def version : String := "2.1"

/-- What stands for a field that is not set. -/
def unset : String := "None"

/-- The text of a field that may hold any value: a text is its own, any other
value has its JSON text. -/
def fieldText : Option Json → String
  | none => unset
  | some .null => unset
  | some (.str s) => s
  | some value => value.compact

/-- The document of a tale, with items and provenance. -/
def ofTale (tale : Tale) (paths : Dictionary String) (externalFiles : Dictionary ExternalFile)
    (provenance : Yaml.Mapping) : PackageInfo where
  identifier := tale.id
  category := tale.category.getD unset
  format := fieldText tale.format
  config := fieldText tale.config
  paths := paths
  externalFiles := externalFiles
  provenance := provenance

/-- The value of an external file. -/
def externalValue (file : ExternalFile) : Yaml :=
  Yaml.ofTexts [("url", file.url), ("md5", file.md5)]

/-- The section of external files, if there are any. -/
def externalEntries (files : Dictionary ExternalFile) : Yaml.Mapping :=
  if files.isEmpty then []
  else
    [(.str "external files", .map (files.map fun (name, file) => (.str name, externalValue file)))]

/-- The entries that every document has, in their order. -/
def fixedEntries (info : PackageInfo) : Yaml.Mapping :=
  [(.str "version", .str version),
   (.str "identifier", .str info.identifier),
   (.str "metadata", .str ("Metadata: " ++ DescriptiveRecord.fileName)),
   (.str "category", .str info.category),
   (.str "format", .str info.format),
   (.str "config", .str info.config),
   (.str "paths", Yaml.ofTexts info.paths)] ++
    externalEntries info.externalFiles

/-- All entries: provenance replaces what it has a key for, and follows with the
rest. -/
def entries (info : PackageInfo) : Yaml.Mapping :=
  Yaml.insertAll info.provenance info.fixedEntries

/-- The text of the document, if provenance can be written. -/
def text (info : PackageInfo) : Except Yaml.Unwritable String := Yaml.document info.entries

end PackageInfo

end Deposit
