import Deposit.Proofs.DescriptiveRecord
import Deposit.Proofs.Xml.Markup

/-!
The markup of descriptive records is fixed.

What decides on the markup of a record is its *shape*: whether there is an abstract, which
entries have descriptions, and which generated files are there (`RecordShape`). Titles, names,
descriptions and ids come from others and can be any texts, but they stand where texts and
values belong, and come back from there as they are (`recordContents`).

* `Publisher.ofUser_eq`: who lacks a name or an address is told which, and is no publisher.
* `tags_element`: the markup of a record is that of its shape.
* `contents_element`: its texts and values are those that it was written with.
* `document_markup`: what is read from the bytes of a record, and from two records.
-/

namespace Deposit

/-! ### Fields that are lacking -/

/-- What a user has in a field. -/
def IdentityField.of (user : User) : IdentityField → Option String
  | .firstName => user.firstName
  | .lastName => user.lastName
  | .email => user.email

/-- Whether nothing is in a field, or blanks alone. -/
def IdentityField.isLacking (user : User) (field : IdentityField) : Bool :=
  match field.of user with
  | none => true
  | some text => Blank.isBlankText text

/-- The fields that a user lacks, in the order of names and address. -/
def IdentityField.lacking (user : User) : List IdentityField :=
  [.firstName, .lastName, .email].filter (isLacking user)

/-- The text in a field, without the blanks around it. -/
def IdentityField.trimmed (user : User) (field : IdentityField) : String :=
  Blank.trim ((field.of user).getD "")

namespace Publisher

open IdentityField (isLacking lacking trimmed)

theorem present?_of (user : User) (field : IdentityField) :
    present? (field.of user) =
      if field.isLacking user then none else some (field.trimmed user) := by
  rw [IdentityField.isLacking, IdentityField.trimmed]
  cases field.of user with
  | none => rfl
  | some text =>
      cases blank : Blank.isBlankText text with
      | true => simp [present?, blank, Blank.present?_eq_none blank]
      | false => simp [present?, blank, Blank.present?_eq_some blank]

theorem missing_eq (user : User) : missing user = lacking user := by
  have first := present?_of user .firstName
  have last := present?_of user .lastName
  have email := present?_of user .email
  simp only [IdentityField.of] at first last email
  rw [missing, lacking, first, last, email]
  cases hasFirst : isLacking user .firstName <;> cases hasLast : isLacking user .lastName <;>
    cases hasEmail : isLacking user .email <;> simp [hasFirst, hasLast, hasEmail]

/-- Who lacks nothing is a publisher with names and address as they are without the blanks
around them, and who lacks something is none. -/
theorem ofUser_eq (user : User) :
    ofUser user = if lacking user = [] then
        .ok ⟨trimmed user .firstName, trimmed user .lastName, trimmed user .email⟩
      else .error (lacking user) := by
  have first := present?_of user .firstName
  have last := present?_of user .lastName
  have email := present?_of user .email
  simp only [IdentityField.of] at first last email
  rw [ofUser, missing_eq, first, last, email, lacking]
  cases hasFirst : isLacking user .firstName <;> cases hasLast : isLacking user .lastName <;>
    cases hasEmail : isLacking user .email <;> simp [hasFirst, hasLast, hasEmail]

end Publisher

namespace DescriptiveRecord

open Xml

/-! ### Shapes -/

/-- All that the markup of a record depends on. -/
structure RecordShape where
  hasAbstract : Bool
  /-- For each item, whether its entry has a description. -/
  described : List Bool
  hasLicense : Bool
  hasEnvironment : Bool
  deriving DecidableEq, Repr

/-- The shape of the record of a package: there is an abstract if the tale has a description,
an entry has a description if anything is left of it without its tags, and a file is there if
it has a size. -/
def RecordShape.of (tale : Tale) (items : List ObjectEntry) (sizes : FileSizes) :
    RecordShape where
  hasAbstract := tale.description.any (!·.isEmpty)
  described := items.map fun entry => !(Tags.stripText entry.description).isEmpty
  hasLicense := 0 < sizes.license
  hasEnvironment := 0 < sizes.environment

/-- A start tag, what stands behind it, and the end tag. -/
def within (name : String) (keys : List String) (inside : List (Tag String)) :
    List (Tag String) :=
  .opening name keys :: (inside ++ [.closing name])

/-- The markup of a publisher in a role. -/
def partyTags (role : String) : List (Tag String) :=
  within role []
    (within "individualName" [] (within "givenName" [] [] ++ within "surName" [] []) ++
      within "electronicMailAddress" [] [] ++ within "userId" ["directory"] [])

/-- The markup of an entry. -/
def entryTags (described : Bool) : List (Tag String) :=
  within "otherEntity" []
    (within "entityName" [] [] ++
      (if described then within "entityDescription" [] [] else []) ++
      within "physical" []
        (within "objectName" [] [] ++ within "size" ["unit"] [] ++
          within "dataFormat" []
            (within "externallyDefinedFormat" [] (within "formatName" [] []))) ++
      within "entityType" [] [])

namespace RecordShape

variable (shape : RecordShape)

/-- For each entry, whether it has a description: those of the generated files have. -/
def entries : List Bool :=
  shape.described ++ [true] ++ (if shape.hasLicense then [true] else []) ++
    (if shape.hasEnvironment then [true] else [])

/-- The markup of a record, behind the first line. -/
def tags : List (Tag String) :=
  within "eml:eml"
    ["xmlns:eml", "xsi:schemaLocation", "xmlns:stmml", "xmlns:xsi", "scope", "system", "packageId"]
    (within "dataset" []
      (within "title" [] [] ++ partyTags "creator" ++
        (if shape.hasAbstract then within "abstract" [] (within "para" [] []) else []) ++
        within "intellectualRights" []
          (within "section" [] (within "para" [] (within "literalLayout" [] []))) ++
        partyTags "contact" ++ shape.entries.flatMap entryTags))

/-- The names of the parts of a record, in their order. -/
def parts : List String :=
  ["title", "creator"] ++ (if shape.hasAbstract then ["abstract"] else []) ++
    ["intellectualRights", "contact"] ++ List.replicate shape.entries.length "otherEntity"

end RecordShape

/-! ### The markup of records -/

theorem tags_leaf (name : String) (attributes : List Attribute) (text : String) :
    (Element.leaf name attributes text).tags = within name (keysOf attributes) [] :=
  rfl

theorem tags_node (name : String) (attributes : List Attribute) (children : List Element) :
    (Element.node name attributes children).tags =
      within name (keysOf attributes) (tagsOfAll children) :=
  rfl

theorem tagsOfAll_map {α : Type} (f : α → Element) (l : List α) :
    tagsOfAll (l.map f) = l.flatMap fun a => (f a).tags := by
  induction l with
  | nil => rfl
  | cons a rest ih => rw [List.map_cons, tagsOfAll, ih, List.flatMap_cons]

theorem tags_entryElement (entry : ObjectEntry) :
    (entryElement entry).tags = entryTags (!(Tags.stripText entry.description).isEmpty) := by
  rw [entryElement]
  cases (Tags.stripText entry.description).isEmpty <;> rfl

theorem tags_publisher (publisher : Publisher) (role userId : String) :
    (publisher.element role userId).tags = partyTags role := by
  rfl

theorem tagsOfAll_abstract (description : Option String) :
    tagsOfAll (abstractElements description) =
      if description.any (!·.isEmpty) then within "abstract" [] (within "para" [] []) else [] := by
  cases description with
  | none => rfl
  | some text =>
      rw [abstractElements, Option.any_some]
      cases text.isEmpty <;> rfl

/-- The entries of generated files have descriptions. -/
theorem described_ofGenerated (file : GeneratedFile) (size : Nat) :
    (!(Tags.stripText (ObjectEntry.ofGenerated file size).description).isEmpty) = true := by
  rw [ObjectEntry.ofGenerated, Tags.stripText_eq_self (generated_texts file).1]
  cases file <;> decide +kernel

theorem described_entries (tale : Tale) (items : List ObjectEntry) (sizes : FileSizes) :
    (items ++ generatedEntries sizes).map
        (fun entry => !(Tags.stripText entry.description).isEmpty) =
      (RecordShape.of tale items sizes).entries := by
  simp only [RecordShape.entries, RecordShape.of, generatedEntries, List.map_append,
    List.map_cons, List.map_nil, described_ofGenerated, apply_ite (List.map _),
    decide_eq_true_eq, List.append_assoc]

section Records

variable (tale : Tale) (publisher : Publisher) (items : List ObjectEntry) (pid : Pid)
  (sizes : FileSizes) (licenseId userId : String)

/-- The markup of a record is that of its shape, whoever publishes what. -/
theorem tags_element :
    (element tale publisher items pid sizes licenseId userId).tags =
      (RecordShape.of tale items sizes).tags := by
  have entries : tagsOfAll ((items ++ generatedEntries sizes).map entryElement) =
      (RecordShape.of tale items sizes).entries.flatMap entryTags := by
    rw [tagsOfAll_map, ← described_entries tale items sizes, List.flatMap_map]
    simp only [tags_entryElement]
  have front : tagsOfAll (preamble tale publisher licenseId userId) =
      within "title" [] [] ++ partyTags "creator" ++
        (if (RecordShape.of tale items sizes).hasAbstract then
          within "abstract" [] (within "para" [] []) else []) ++
        within "intellectualRights" []
          (within "section" [] (within "para" [] (within "literalLayout" [] []))) ++
        partyTags "contact" := by
    simp only [preamble, tagsOfAll_append, tagsOfAll_abstract, tagsOfAll, tags_leaf, tags_node,
      tags_publisher, rightsElement, RecordShape.of, keysOf, List.map_nil, List.append_nil,
      List.append_assoc]
    rfl
  rw [element_eq, tags_node, tagsOfAll, tagsOfAll, List.append_nil, tags_node, tagsOfAll_append,
    front, entries, RecordShape.tags]
  rfl

/-- The names of the parts of a record are those of its shape. -/
theorem names_children :
    (preamble tale publisher licenseId userId ++
        (items ++ generatedEntries sizes).map entryElement).map Element.name =
      (RecordShape.of tale items sizes).parts := by
  have abstract : (abstractElements tale.description).map Element.name =
      if (RecordShape.of tale items sizes).hasAbstract then ["abstract"] else [] := by
    rw [RecordShape.of]
    cases tale.description with
    | none => rfl
    | some text =>
        rw [abstractElements, Option.any_some]
        cases text.isEmpty <;> rfl
  have entries : ((items ++ generatedEntries sizes).map entryElement).map Element.name =
      List.replicate (RecordShape.of tale items sizes).entries.length "otherEntity" := by
    rw [← described_entries, List.length_map, List.map_map]
    exact List.map_const'
  rw [RecordShape.parts, ← abstract, ← entries, preamble]
  simp only [List.map_append, List.append_assoc]
  rfl

/-- What opens in a record: the root, in it the data set, and in this the parts. -/
theorem openedIn_element :
    openedIn [] [] (written (element tale publisher items pid sizes licenseId userId).tags) =
        [Utf8.bytes "eml:eml"] ∧
      openedIn [Utf8.bytes "eml:eml"] []
          (written (element tale publisher items pid sizes licenseId userId).tags) =
        [Utf8.bytes "dataset"] ∧
      openedIn [Utf8.bytes "dataset", Utf8.bytes "eml:eml"] []
          (written (element tale publisher items pid sizes licenseId userId).tags) =
        (RecordShape.of tale items sizes).parts.map Utf8.bytes := by
  have root := openedIn_here (element tale publisher items pid sizes licenseId userId) [] []
  rw [List.append_nil] at root
  -- Where something is open, it is the root with the data set in it.
  have inside : ∀ path ≠ [], openedIn path []
      (written (element tale publisher items pid sizes licenseId userId).tags) =
        openedIn path [Utf8.bytes "eml:eml"] (written (Element.node "dataset" []
          (preamble tale publisher licenseId userId ++
            (items ++ generatedEntries sizes).map entryElement)).tags ++
              [.closing (Utf8.bytes "eml:eml")]) := by
    intro path some
    rw [element_eq, ← List.append_nil (written _), openedIn_node some.symm, tagsOfAll, tagsOfAll,
      List.append_nil]
  refine ⟨root, ?_, ?_⟩
  · rw [inside _ (by simp), openedIn_here]
    rfl
  · rw [inside _ (by simp), openedIn_node (by simp), openedIn_all,
      ← names_children tale publisher items sizes licenseId userId, List.map_map]
    simp [openedIn, Function.comp_def]

end Records

/-! ### The content of records -/

/-- The texts and values of a publisher in a role. -/
def partyContents (publisher : Publisher) (userId : String) : List (Place String × String) :=
  [(.text "givenName", publisher.firstName), (.text "surName", publisher.lastName),
   (.text "electronicMailAddress", publisher.email),
   (.value "userId" "directory", Identity.directory userId), (.text "userId", userId)]

/-- The texts and values of an entry. -/
def entryContents (entry : ObjectEntry) : List (Place String × String) :=
  let description := Tags.stripText entry.description
  [(.text "entityName", entry.name)] ++
    (if description.isEmpty then [] else [(.text "entityDescription", description)]) ++
    [(.text "objectName", entry.name), (.value "size" "unit", "bytes"),
     (.text "size", toString entry.size), (.text "formatName", entry.format),
     (.text "entityType", "dataTable")]

/-- The text of the abstract, without its tags. -/
def abstractContents (description : Option String) : List (Place String × String) :=
  match description with
  | none => []
  | some text => if text.isEmpty then [] else [(.text "para", Tags.stripText text)]

/-- The texts and values of a record, in their places. -/
def recordContents (tale : Tale) (publisher : Publisher) (items : List ObjectEntry) (pid : Pid)
    (sizes : FileSizes) (licenseId userId : String) : List (Place String × String) :=
  [(.value "eml:eml" "xmlns:eml", "eml://ecoinformatics.org/eml-2.1.1"),
   (.value "eml:eml" "xsi:schemaLocation", "eml://ecoinformatics.org/eml-2.1.1 eml.xsd"),
   (.value "eml:eml" "xmlns:stmml", "http://www.xml-cml.org/schema/stmml-1.1"),
   (.value "eml:eml" "xmlns:xsi", "http://www.w3.org/2001/XMLSchema-instance"),
   (.value "eml:eml" "scope", "system"), (.value "eml:eml" "system", "knb"),
   (.value "eml:eml" "packageId", pid.text)] ++
    [(.text "title", tale.title)] ++ partyContents publisher userId ++
    abstractContents tale.description ++ [(.text "literalLayout", License.rightsTextOf licenseId)] ++
    partyContents publisher userId ++ items.flatMap entryContents ++
    entryContents (.ofGenerated .packageInfo sizes.packageInfo) ++
    (if 0 < sizes.license then entryContents (.ofGenerated .license sizes.license) else []) ++
    (if 0 < sizes.environment then entryContents (.ofGenerated .environment sizes.environment)
      else [])

/-- Texts and values as they stand in a document. -/
def escaped (contents : List (Place String × String)) : List (Place String × Bytes) :=
  contents.map fun (place, text) => (place, valueBytes text)

@[simp] theorem escaped_append (contents others : List (Place String × String)) :
    escaped (contents ++ others) = escaped contents ++ escaped others :=
  List.map_append

theorem contents_entryElement (entry : ObjectEntry) (depth : Nat) :
    (entryElement entry).contents depth = escaped (entryContents entry) := by
  rw [entryElement, entryContents]
  cases (Tags.stripText entry.description).isEmpty <;> rfl

theorem contents_publisher (publisher : Publisher) (role userId : String) (depth : Nat) :
    (publisher.element role userId).contents depth =
      escaped (partyContents publisher userId) := by
  rfl

theorem contentsOfAll_entries (entries : List ObjectEntry) (depth : Nat) :
    contentsOfAll depth (entries.map entryElement) =
      escaped (entries.flatMap entryContents) := by
  induction entries with
  | nil => rfl
  | cons entry rest ih =>
      rw [List.map_cons, contentsOfAll, ih, contents_entryElement, List.flatMap_cons,
        escaped_append]

theorem contentsOfAll_abstract (description : Option String) (depth : Nat) :
    contentsOfAll depth (abstractElements description) =
      escaped (abstractContents description) := by
  cases description with
  | none => rfl
  | some text =>
      rw [abstractElements, abstractContents]
      cases text.isEmpty <;> rfl

section Records

variable (tale : Tale) (publisher : Publisher) (items : List ObjectEntry) (pid : Pid)
  (sizes : FileSizes) (licenseId userId : String)

/-- The texts and values of a record stand in it as they were given. -/
theorem contents_element :
    (element tale publisher items pid sizes licenseId userId).contents 0 =
      escaped (recordContents tale publisher items pid sizes licenseId userId) := by
  have front : contentsOfAll 2 (preamble tale publisher licenseId userId) =
      escaped ([(.text "title", tale.title)] ++ partyContents publisher userId ++
        abstractContents tale.description ++
        [(.text "literalLayout", License.rightsTextOf licenseId)] ++
        partyContents publisher userId) := by
    rw [preamble, contentsOfAll_append, contentsOfAll_append, contentsOfAll_abstract]
    simp only [contentsOfAll, contents_publisher, escaped_append, List.append_nil,
      List.append_assoc]
    rfl
  have back : (items ++ generatedEntries sizes).flatMap entryContents =
      items.flatMap entryContents ++
        entryContents (.ofGenerated .packageInfo sizes.packageInfo) ++
        (if 0 < sizes.license then entryContents (.ofGenerated .license sizes.license) else []) ++
        (if 0 < sizes.environment then
          entryContents (.ofGenerated .environment sizes.environment) else []) := by
    simp only [generatedEntries, List.flatMap_append, List.flatMap_singleton,
      apply_ite (List.flatMap entryContents), List.flatMap_nil, List.append_assoc]
  rw [element_eq, Element.contents, contentsOfAll, contentsOfAll, Element.contents,
    contentsOfAll_append, front, contentsOfAll_entries, back, recordContents]
  simp only [escaped_append, List.append_assoc, List.append_nil]
  rfl

end Records

/-- What is read from a text or a value that was escaped is the text or the value. -/
theorem map_readText_escaped (contents : List (Place String × String)) :
    (placed (escaped contents)).map (fun (place, raw) => (place, readText raw)) =
      contents.map fun (place, text) => (place.map Utf8.bytes, .ok text) := by
  simp [placed, escaped, readText_valueBytes, Function.comp_def]

/-- A record that can be written is read as the markup of its shape and its contents. -/
theorem document_read {tale : Tale} {user : User} {items : List ObjectEntry} {pid : Pid}
    {sizes : FileSizes} {licenseId userId : String} {xml : Bytes}
    (made : document tale user items pid sizes licenseId userId = .ok xml) :
    ∃ publisher row, Publisher.ofUser user = .ok publisher ∧ pieces? xml = some row ∧
      row.map (·.tag) = .other :: written (RecordShape.of tale items sizes).tags ∧
      isNested [] (row.map (·.tag)) = true ∧
      contentsFrom none row =
        placed (escaped (recordContents tale publisher items pid sizes licenseId userId)) := by
  rw [document] at made
  cases named : Publisher.ofUser user with
  | error fields =>
      rw [named] at made
      cases made
  | ok publisher =>
      rw [named] at made
      cases made
      have tags := tags_element tale publisher items pid sizes licenseId userId
      obtain ⟨row, read, markup, nested, contents⟩ := document_pieces
        (writable_element tale publisher items pid sizes licenseId userId)
      rw [tags] at markup
      rw [contents_element] at contents
      exact ⟨publisher, row, rfl, read, markup, nested, contents⟩

/-- **The markup of records is fixed.** A record cannot be written if and only if its publisher
lacks a name or an address, and then all that is lacking is told. Otherwise its markup is that
of its shape, properly nested, with the root, the data set and its parts in their order; each
text and each value is read as the one that was given, and there is nothing else. So two records
of one shape have the same markup, whatever their texts and values are. -/
theorem document_markup (tale : Tale) (user : User) (items : List ObjectEntry) (pid : Pid)
    (sizes : FileSizes) (licenseId userId : String) :
    (∀ fields, document tale user items pid sizes licenseId userId = .error fields ↔
      IdentityField.lacking user ≠ [] ∧ fields = IdentityField.lacking user) ∧
    (IdentityField.lacking user = [] → ∃ xml row,
      document tale user items pid sizes licenseId userId = .ok xml ∧
      pieces? xml = some row ∧
      row.map (·.tag) = .other :: written (RecordShape.of tale items sizes).tags ∧
      isNested [] (row.map (·.tag)) = true ∧
      openedIn [] [] (row.map (·.tag)) = [Utf8.bytes "eml:eml"] ∧
      openedIn [Utf8.bytes "eml:eml"] [] (row.map (·.tag)) = [Utf8.bytes "dataset"] ∧
      openedIn [Utf8.bytes "dataset", Utf8.bytes "eml:eml"] [] (row.map (·.tag)) =
        (RecordShape.of tale items sizes).parts.map Utf8.bytes ∧
      (contentsFrom none row).map (fun (place, raw) => (place, readText raw)) =
        (recordContents tale
          ⟨IdentityField.trimmed user .firstName, IdentityField.trimmed user .lastName,
            IdentityField.trimmed user .email⟩ items pid sizes licenseId userId).map
          fun (place, text) => (place.map Utf8.bytes, .ok text)) ∧
    (∀ tale' user' items' pid' sizes' licenseId' userId' xml xml',
      document tale user items pid sizes licenseId userId = .ok xml →
      document tale' user' items' pid' sizes' licenseId' userId' = .ok xml' →
      RecordShape.of tale items sizes = RecordShape.of tale' items' sizes' →
      markup? xml = markup? xml') := by
  refine ⟨?_, ?_, ?_⟩
  · intro fields
    rw [document, Publisher.ofUser_eq]
    by_cases complete : IdentityField.lacking user = []
    · simp [complete, Except.map]
    · simp [complete, Except.map, eq_comm]
  · intro complete
    have named := Publisher.ofUser_eq user
    rw [if_pos complete] at named
    obtain ⟨xml, made⟩ : ∃ xml, document tale user items pid sizes licenseId userId = .ok xml := by
      rw [document, named]
      exact ⟨_, rfl⟩
    obtain ⟨publisher, row, same, read, markup, nested, contents⟩ := document_read made
    have opened := openedIn_element tale publisher items pid sizes licenseId userId
    rw [tags_element] at opened
    cases named.symm.trans same
    refine ⟨xml, row, made, read, markup, nested, ?_, ?_, ?_, ?_⟩
    · rw [markup]
      exact opened.1
    · rw [markup]
      exact opened.2.1
    · rw [markup]
      exact opened.2.2
    · rw [contents, map_readText_escaped]
  · intro tale' user' items' pid' sizes' licenseId' userId' xml xml' made made' same
    obtain ⟨_, row, _, read, markup, _⟩ := document_read made
    obtain ⟨_, row', _, read', markup', _⟩ := document_read made'
    rw [markup?, markup?, read, read', Option.map_some, Option.map_some, markup, markup', same]

/-- The parts of the record of one item and a license, with an abstract. -/
example : (⟨true, [false], true, false⟩ : RecordShape).parts =
    ["title", "creator", "abstract", "intellectualRights", "contact", "otherEntity",
      "otherEntity", "otherEntity"] := by
  decide

end DescriptiveRecord

end Deposit
