import Deposit.GeneratedFile
import Deposit.Identity
import Deposit.License
import Deposit.Pid
import Deposit.Storage.Record
import Deposit.Text.Tags
import Deposit.Xml.Element
import Deposit.Xml.Reader

/-!
The descriptive record of a package: who publishes what, and every object by name.

The schema is one of positions: title, creator, abstract, rights, contact, then
the objects. The record of a package is written with `document` and its entries
are read back with `readEntries`.
-/

namespace Deposit

/-- What the record says about one object. -/
structure ObjectEntry where
  name : String
  description : String
  size : Nat
  format : String
  deriving DecidableEq, Repr, Inhabited

/-- The entry of a generated file. -/
def ObjectEntry.ofGenerated (file : GeneratedFile) (size : Nat) : ObjectEntry :=
  ⟨file.fileName, file.description, size, file.recordFormat⟩

/-- The sizes of the generated files; zero stands for a file that is left out. -/
structure FileSizes where
  packageInfo : Nat
  license : Nat
  environment : Nat
  deriving DecidableEq, Repr

/-- A name or address that a publisher has to have. -/
inductive IdentityField where
  | firstName
  | lastName
  | email
  deriving DecidableEq, Repr

/-- The name of a field. -/
def IdentityField.text : IdentityField → String
  | .firstName => "firstName"
  | .lastName => "lastName"
  | .email => "email"

/-- A person who can be named as creator and contact. -/
structure Publisher where
  firstName : String
  lastName : String
  email : String
  deriving DecidableEq, Repr

namespace Publisher

/-- The text of a field, unless it is absent or blank. -/
def present? (field : Option String) : Option String := field.bind Blank.present?

/-- The fields that a user lacks. -/
def missing (user : User) : List IdentityField :=
  (if (present? user.firstName).isNone then [.firstName] else []) ++
    (if (present? user.lastName).isNone then [.lastName] else []) ++
    (if (present? user.email).isNone then [.email] else [])

/-- The publisher that a user is, or the fields that are missing. -/
def ofUser (user : User) : Except (List IdentityField) Publisher :=
  match present? user.firstName, present? user.lastName, present? user.email with
  | some firstName, some lastName, some email => .ok ⟨firstName, lastName, email⟩
  | _, _, _ => .error (missing user)

/-- A publisher in a role. -/
def element (p : Publisher) (role userId : String) : Xml.Element :=
  .node role []
    [.node "individualName" []
      [.leaf "givenName" [] p.firstName,
       .leaf "surName" [] p.lastName],
     .leaf "electronicMailAddress" [] p.email,
     .leaf "userId" [⟨"directory", Identity.directory userId⟩] userId]

end Publisher

namespace DescriptiveRecord

/-- The format of descriptive records, and their name space. -/
def formatId : String := "eml://ecoinformatics.org/eml-2.1.1"

/-- The name of the record's file. -/
def fileName : String := "science_metadata.xml"

/-- The element of an entry. A description of tags alone is left out. -/
def entryElement (entry : ObjectEntry) : Xml.Element :=
  let description := Tags.stripText entry.description
  .node "otherEntity" []
    ([.leaf "entityName" [] entry.name] ++
      (if description.isEmpty then [] else [.leaf "entityDescription" [] description]) ++
      [.node "physical" []
        [.leaf "objectName" [] entry.name,
         .leaf "size" [⟨"unit", "bytes"⟩] (toString entry.size),
         .node "dataFormat" []
          [.node "externallyDefinedFormat" [] [.leaf "formatName" [] entry.format]]],
       .leaf "entityType" [] "dataTable"])

/-- The entries of the generated files that the package holds. -/
def generatedEntries (sizes : FileSizes) : List ObjectEntry :=
  [.ofGenerated .packageInfo sizes.packageInfo] ++
    (if 0 < sizes.license then [.ofGenerated .license sizes.license] else []) ++
    (if 0 < sizes.environment then [.ofGenerated .environment sizes.environment] else [])

/-- The abstract, unless the description is empty. -/
def abstractElements (description : Option String) : List Xml.Element :=
  match description with
  | none => []
  | some text =>
    if text.isEmpty then [] else [.node "abstract" [] [.leaf "para" [] (Tags.stripText text)]]

/-- The element of the rights. -/
def rightsElement (licenseId : String) : Xml.Element :=
  .node "intellectualRights" []
    [.node "section" []
      [.node "para" [] [.leaf "literalLayout" [] (License.rightsTextOf licenseId)]]]

/-- The attributes of the root element. -/
def rootAttributes (pid : Pid) : List Xml.Attribute :=
  [⟨"xmlns:eml", formatId⟩,
   ⟨"xsi:schemaLocation", "eml://ecoinformatics.org/eml-2.1.1 eml.xsd"⟩,
   ⟨"xmlns:stmml", "http://www.xml-cml.org/schema/stmml-1.1"⟩,
   ⟨"xmlns:xsi", "http://www.w3.org/2001/XMLSchema-instance"⟩,
   ⟨"scope", "system"⟩,
   ⟨"system", "knb"⟩,
   ⟨"packageId", pid.text⟩]

/-- The root element of the record of a publisher's package. -/
def element (tale : Tale) (publisher : Publisher) (items : List ObjectEntry) (pid : Pid)
    (sizes : FileSizes) (licenseId userId : String) : Xml.Element :=
  .node "eml:eml" (rootAttributes pid)
    [.node "dataset" []
      ([.leaf "title" [] tale.title,
        publisher.element "creator" userId] ++
        abstractElements tale.description ++
        [rightsElement licenseId,
         publisher.element "contact" userId] ++
        (items ++ generatedEntries sizes).map entryElement)]

/-- The document of a package's record; a user who lacks a name or an address
cannot publish. -/
def document (tale : Tale) (user : User) (items : List ObjectEntry) (pid : Pid)
    (sizes : FileSizes) (licenseId userId : String) : Except (List IdentityField) Bytes :=
  (Publisher.ofUser user).map fun publisher =>
    Xml.documentBytes (element tale publisher items pid sizes licenseId userId)

/-! ### Reading -/

/-- Why the entries of a record cannot be read. -/
inductive ReadFault where
  | document (fault : Xml.Fault)
  | text (fault : Xml.TextFault)
  | size (written : String)
  deriving DecidableEq, Repr

/-- The wording of a fault. -/
def ReadFault.message : ReadFault → String
  | .document fault => fault.message
  | .text fault => fault.message
  | .size written => "invalid size '" ++ written ++ "'"

/-- The state of reading: the entry that is open, and the tag that opened last if
nothing has been closed since. -/
structure Reading where
  entry : Option ObjectEntry
  tag : Bytes
  deriving DecidableEq

/-- A size of 64 bits, which may have a plus sign. -/
def size? (text : String) : Option Nat :=
  let digits :=
    match text.toList with
    | '+' :: rest => rest
    | cs => cs
  if digits.isEmpty then none
  else
    match Xml.readNumber 10 64 0 digits with
    | .ok n => some n
    | .error _ => none

/-- Puts the text of a tag into an entry. -/
def fill (tag : Bytes) (text : String) (entry : ObjectEntry) : Except ReadFault ObjectEntry :=
  if tag = Utf8.bytes "entityName" then .ok { entry with name := text }
  else if tag = Utf8.bytes "entityDescription" then .ok { entry with description := text }
  else if tag = Utf8.bytes "size" then
    match size? text with
    | some n => .ok { entry with size := n }
    | none => .error (.size text)
  else if tag = Utf8.bytes "formatName" then .ok { entry with format := text }
  else .ok entry

/-- One event: the new state, and the entry that it completes. -/
def step (state : Reading) : Xml.Event → Except ReadFault (Reading × Option ObjectEntry)
  | .start name _ =>
    if name = Utf8.bytes "otherEntity" then .ok (⟨some ⟨"", "", 0, ""⟩, name⟩, none)
    else .ok (⟨state.entry, name⟩, none)
  | .text content =>
    match state.entry with
    | none => .ok (state, none)
    | some entry =>
      match Xml.readText content with
      | .error fault => .error (.text fault)
      | .ok text =>
        match fill state.tag text entry with
        | .error fault => .error fault
        | .ok entry => .ok (⟨some entry, state.tag⟩, none)
  | .close name =>
    if name = Utf8.bytes "otherEntity" then .ok (⟨none, []⟩, state.entry)
    else .ok (⟨state.entry, []⟩, none)
  | .empty .. => .ok (state, none)
  | .other => .ok (state, none)

/-- The entries that events complete. -/
def entriesOf (state : Reading) : List Xml.Event → Except ReadFault (List ObjectEntry)
  | [] => .ok []
  | event :: rest =>
    match step state event with
    | .error fault => .error fault
    | .ok (state, completed) =>
      match entriesOf state rest with
      | .error fault => .error fault
      | .ok entries => .ok (completed.toList ++ entries)

/-- The entries of a record, in the order of the document. -/
def readEntries (document : Bytes) : Except ReadFault (List ObjectEntry) :=
  let (events, fault) := Xml.events document
  match entriesOf ⟨none, []⟩ events, fault with
  | .error fault, _ => .error fault
  | .ok _, some fault => .error (.document fault)
  | .ok entries, none => .ok entries

end DescriptiveRecord

end Deposit
