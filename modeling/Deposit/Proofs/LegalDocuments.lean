import Deposit.Proofs.RecordMarkup
import Deposit.Proofs.ResourceMap
import Deposit.Proofs.SystemMetadata
import Deposit.Proofs.Text.Percent

/-!
When the documents of a package are well-formed XML.

All three are written by one layer, which escapes but does not look at characters. So they are
nested and escaped whatever they are made of, but a character that no document may hold goes
through if it is given: a document is well formed if and only if all strings that come from
elsewhere (`givenTexts`) are of allowed characters (`isWellFormed_document_iff`,
`isWellFormed_toXml_iff` for the other two). What is added to them is allowed: numbers, names,
licenses, and addresses, which are percent-encoded.
-/

namespace Deposit

open Xml

/-! ### Texts that are always legal -/

/-- Letters and digits are legal. -/
theorem isLegal_of_isAlphanum {c : Char} (h : c.isAlphanum = true) : isLegal c = true := by
  have bounds : 0x20 ≤ c.toNat ∧ c.toNat ≤ 0xD7FF := by
    have range := Percent.toNat_of_isAlphanum h
    omega
  exact List.any_eq_true.mpr ⟨(0x20, 0xD7FF), by decide, by simpa using bounds⟩

theorem isLegalText_toString (n : Nat) : isLegalText (toString n) = true := by
  have chars : (toString n).toList = Nat.toDigits 10 n := Nat.toList_repr
  refine List.all_eq_true.mpr fun c mem => isLegal_of_isAlphanum ?_
  rw [chars] at mem
  have digit := Nat.isDigit_of_mem_toDigits (by decide) (by decide) mem
  simp [Char.isAlphanum, digit]

theorem isLegalText_segment (text : String) : isLegalText (Percent.segment text) = true := by
  refine List.all_eq_true.mpr fun c mem => ?_
  rcases Percent.segment_plain text c mem with kept | rfl
  · simp only [Percent.isUnreserved, Bool.or_eq_true, beq_iff_eq, or_assoc] at kept
    rcases kept with letter | rfl | rfl | rfl | rfl
    · exact isLegal_of_isAlphanum letter
    all_goals decide
  · decide

/-- The address of an identifier is legal, whatever the identifier is. -/
theorem isLegalText_resolveUri (network : Network) (pid : Pid) :
    isLegalText (network.resolveUri pid) = true := by
  have base : isLegalText network.coordinatingNode = true := by cases network <;> decide
  have path : isLegalText "/v2/resolve/" = true := by decide
  rw [Network.resolveUri, isLegalText_append, isLegalText_append, base, path, isLegalText_segment]
  rfl

/-- The texts on rights are legal. -/
theorem isLegalText_rightsTextOf (licenseId : String) :
    isLegalText (License.rightsTextOf licenseId) = true := by
  have each : ∀ l ∈ License.supported, isLegalText l.rightsText = true := by
    simp only [License.supported, License.cc0, License.ccBy3, License.ccBy4, List.forall_mem_cons,
      List.not_mem_nil, false_implies, implies_true, and_true, isLegalText_append,
      Bool.and_eq_true]
    and_intros
    all_goals exact (isLegalText_ofList _).trans (by decide)
  rw [License.rightsTextOf, License.find?]
  cases found : License.supported.find? (·.id == licenseId) with
  | none => decide
  | some license => exact each license (List.mem_of_find?_eq_some found)

theorem isLegalText_directory (userId : String) :
    isLegalText (Identity.directory userId) = true := by
  rw [Identity.directory]
  split <;> decide

/-! ### System metadata -/

namespace SystemMetadata

/-- The texts that a record is made of. -/
def givenTexts (m : SystemMetadata) : List String :=
  [m.pid.text, m.formatId, m.checksum.algorithm, m.checksum.value, m.rightsHolder, m.fileName] ++
    m.accessPolicy.flatMap (·.subjects)

theorem legal_ruleElement_iff (rule : AccessRule) :
    (∀ s ∈ (ruleElement rule).strings, isLegalText s = true) ↔
      ∀ s ∈ rule.subjects, isLegalText s = true := by
  have permissions : ∀ p : Permission, isLegalText p.text = true := by
    intro p
    cases p
    decide
  rw [ruleElement, Element.strings, stringsOfAll_append, stringsOfAll_map, stringsOfAll_map]
  simp only [Element.strings, List.map_nil, List.nil_append, List.forall_mem_append,
    List.forall_mem_flatMap, List.forall_mem_singleton, permissions, implies_true, and_true]

/-- The document of a record is well formed if and only if the texts in the record are legal. -/
theorem isWellFormed_toXml_iff (m : SystemMetadata) :
    IsWellFormed m.toXml ↔ ∀ s ∈ m.givenTexts, isLegalText s = true := by
  have fixed : isLegalText "1" = true ∧
      isLegalText "http://ns.dataone.org/service/types/v2.0" = true := by
    decide
  have name : (∀ s ∈ stringsOfAll
        (if m.fileName.isEmpty then [] else [.leaf "fileName" [] m.fileName]),
      isLegalText s = true) ↔ isLegalText m.fileName = true := by
    cases empty : m.fileName.isEmpty with
    | true =>
        have nothing : m.fileName = "" := String.isEmpty_iff.mp empty
        rw [nothing]
        decide
    | false => simp [stringsOfAll, Element.strings]
  have rules : (∀ s ∈ stringsOfAll (m.accessPolicy.map ruleElement), isLegalText s = true) ↔
      ∀ s ∈ m.accessPolicy.flatMap (·.subjects), isLegalText s = true := by
    rw [stringsOfAll_map, List.forall_mem_flatMap, List.forall_mem_flatMap]
    simp only [legal_ruleElement_iff]
  rw [toXml, isWellFormed_documentBytes_iff (named_element m), element, givenTexts]
  simp only [Element.strings, stringsOfAll_append, stringsOfAll, List.map_cons, List.map_nil,
    List.nil_append, List.append_nil, List.forall_mem_append, List.forall_mem_cons, name, rules,
    fixed, isLegalText_toString]
  tauto

end SystemMetadata

/-! ### Resource maps -/

namespace ResourceMap

/-- The texts that a map is made of. -/
def givenTexts (m : ResourceMap) : List String :=
  (m.pid :: m.metadataPid :: m.objectPids).map (·.text)

/-- The document of a map is well formed if and only if its identifiers are legal. -/
theorem isWellFormed_toXml_iff (m : ResourceMap) (network : Network) :
    IsWellFormed (m.toXml network) ↔ ∀ s ∈ m.givenTexts, isLegalText s = true := by
  have spaces : ∀ a ∈ namespaces, isLegalText a.value = true := by decide
  have fixed : isLegalText oreNamespace = true ∧ isLegalText "ResourceMap" = true ∧
      isLegalText "Aggregation" = true ∧ isLegalText "#aggregation" = true := by
    decide
  rw [toXml, isWellFormed_documentBytes_iff (named_element m network), element, givenTexts]
  simp only [Element.strings, description, identifier, relation, stringsOfAll_append, stringsOfAll,
    stringsOfAll_map, List.map_cons, List.map_nil, List.nil_append, List.append_nil,
    List.forall_mem_append, List.forall_mem_cons, List.forall_mem_flatMap, List.forall_mem_map,
    isLegalText_append, isLegalText_resolveUri, fixed, List.not_mem_nil, false_implies,
    implies_true, Bool.and_true, and_true, true_and]
  rw [and_iff_right spaces, and_assoc]

end ResourceMap

/-! ### Descriptive records -/

namespace DescriptiveRecord

/-- The texts that a record is made of: those of its publisher without the blanks around them,
and descriptions without their tags. -/
def givenTexts (tale : Tale) (user : User) (items : List ObjectEntry) (pid : Pid)
    (userId : String) : List String :=
  [pid.text, tale.title, IdentityField.trimmed user .firstName,
    IdentityField.trimmed user .lastName, IdentityField.trimmed user .email, userId] ++
    (tale.description.map Tags.stripText).toList ++
    items.flatMap fun entry => [entry.name, Tags.stripText entry.description, entry.format]

theorem legal_publisher_iff (publisher : Publisher) (role userId : String) :
    (∀ s ∈ (publisher.element role userId).strings, isLegalText s = true) ↔
      isLegalText publisher.firstName = true ∧ isLegalText publisher.lastName = true ∧
        isLegalText publisher.email = true ∧ isLegalText userId = true := by
  simp only [Publisher.element, Element.strings, stringsOfAll, List.map_cons, List.map_nil,
    List.nil_append, List.append_nil, List.cons_append, List.forall_mem_cons,
    List.not_mem_nil, false_implies, implies_true, and_true, isLegalText_directory, true_and]

theorem legal_abstract_iff (description : Option String) :
    (∀ s ∈ stringsOfAll (abstractElements description), isLegalText s = true) ↔
      ∀ s ∈ (description.map Tags.stripText).toList, isLegalText s = true := by
  cases description with
  | none => rfl
  | some text =>
      rw [abstractElements]
      cases empty : text.isEmpty with
      | true =>
          have nothing : text = "" := String.isEmpty_iff.mp empty
          have stripped : Tags.stripText "" = "" := by simp [Tags.stripText]
          simp [nothing, stripped, stringsOfAll]
          decide
      | false => simp [stringsOfAll, Element.strings]

theorem legal_entryElement_iff (entry : ObjectEntry) :
    (∀ s ∈ (entryElement entry).strings, isLegalText s = true) ↔
      ∀ s ∈ [entry.name, Tags.stripText entry.description, entry.format],
        isLegalText s = true := by
  have fixed : isLegalText "bytes" = true ∧ isLegalText "dataTable" = true := by decide
  have description : (∀ s ∈ stringsOfAll (if (Tags.stripText entry.description).isEmpty then []
        else [.leaf "entityDescription" [] (Tags.stripText entry.description)]),
      isLegalText s = true) ↔ isLegalText (Tags.stripText entry.description) = true := by
    cases empty : (Tags.stripText entry.description).isEmpty with
    | true =>
        rw [String.isEmpty_iff.mp empty]
        decide
    | false => simp [stringsOfAll, Element.strings]
  simp only [entryElement, Element.strings, stringsOfAll_append, stringsOfAll, List.map_cons,
    List.map_nil, List.nil_append, List.append_nil, List.forall_mem_append, List.forall_mem_cons,
    description, fixed, isLegalText_toString]
  tauto

/-- The entries of generated files are legal. -/
theorem legal_ofGenerated (file : GeneratedFile) (size : Nat) :
    ∀ s ∈ (entryElement (.ofGenerated file size)).strings, isLegalText s = true := by
  have texts : isLegalText file.fileName = true ∧ isLegalText file.description = true ∧
      isLegalText file.recordFormat = true := by
    unfold GeneratedFile.description
    cases file
    all_goals
      simp only [isLegalText_append, Bool.and_eq_true]
      and_intros
    all_goals exact (isLegalText_ofList _).trans (by decide)
  rw [legal_entryElement_iff]
  simp only [ObjectEntry.ofGenerated, Tags.stripText_eq_self (generated_texts file).1,
    List.forall_mem_cons, texts, List.not_mem_nil, false_implies, implies_true, and_true]

section Records

variable (tale : Tale) (user : User) (publisher : Publisher) (items : List ObjectEntry) (pid : Pid)
  (sizes : FileSizes) (licenseId userId : String)

theorem legal_entries_iff :
    (∀ s ∈ stringsOfAll ((items ++ generatedEntries sizes).map entryElement),
        isLegalText s = true) ↔
      ∀ s ∈ items.flatMap fun entry =>
          [entry.name, Tags.stripText entry.description, entry.format],
        isLegalText s = true := by
  have generated : ∀ entry ∈ generatedEntries sizes, ∀ s ∈ (entryElement entry).strings,
      isLegalText s = true := by
    intro entry mem
    obtain ⟨file, size, rfl⟩ : ∃ file size, entry = .ofGenerated file size := by
      simp only [generatedEntries, List.mem_append, List.mem_singleton, List.mem_ite_nil_right]
        at mem
      rcases mem with (rfl | ⟨-, rfl⟩) | ⟨-, rfl⟩
      all_goals exact ⟨_, _, rfl⟩
    exact legal_ofGenerated file size
  rw [stringsOfAll_map, List.forall_mem_flatMap, List.forall_mem_append, and_iff_left generated,
    List.forall_mem_flatMap]
  simp only [legal_entryElement_iff]

theorem legal_element_iff :
    (∀ s ∈ (element tale publisher items pid sizes licenseId userId).strings,
        isLegalText s = true) ↔
      isLegalText pid.text = true ∧ isLegalText tale.title = true ∧
        (isLegalText publisher.firstName = true ∧ isLegalText publisher.lastName = true ∧
          isLegalText publisher.email = true ∧ isLegalText userId = true) ∧
        (∀ s ∈ (tale.description.map Tags.stripText).toList, isLegalText s = true) ∧
        ∀ s ∈ items.flatMap fun entry =>
          [entry.name, Tags.stripText entry.description, entry.format], isLegalText s = true := by
  have root : (∀ s ∈ (rootAttributes pid).map (·.value), isLegalText s = true) ↔
      isLegalText pid.text = true := by
    have fixed : ∀ s ∈ ["eml://ecoinformatics.org/eml-2.1.1",
        "eml://ecoinformatics.org/eml-2.1.1 eml.xsd", "http://www.xml-cml.org/schema/stmml-1.1",
        "http://www.w3.org/2001/XMLSchema-instance", "system", "knb"],
          isLegalText s = true := by
      decide
    have values : (rootAttributes pid).map (·.value) =
        ["eml://ecoinformatics.org/eml-2.1.1", "eml://ecoinformatics.org/eml-2.1.1 eml.xsd",
          "http://www.xml-cml.org/schema/stmml-1.1", "http://www.w3.org/2001/XMLSchema-instance",
          "system", "knb"] ++ [pid.text] :=
      rfl
    rw [values, List.forall_mem_append, and_iff_right fixed, List.forall_mem_singleton]
  have rights : ∀ s ∈ (rightsElement licenseId).strings, isLegalText s = true := by
    simp only [rightsElement, Element.strings, stringsOfAll, List.map_nil, List.nil_append,
      List.append_nil, List.forall_mem_singleton, isLegalText_rightsTextOf]
  rw [element_eq, Element.strings, stringsOfAll, stringsOfAll, Element.strings, preamble,
    List.forall_mem_append, root]
  simp only [stringsOfAll_append, stringsOfAll, Element.strings, List.map_nil, List.nil_append,
    List.append_nil, List.forall_mem_append, List.forall_mem_singleton, legal_publisher_iff,
    legal_abstract_iff, legal_entries_iff, and_iff_right rights]
  tauto

/-- A record of a publisher is well formed if and only if the texts that it is made of are
legal. -/
theorem isWellFormed_document_iff {xml : Bytes}
    (made : document tale user items pid sizes licenseId userId = .ok xml) :
    IsNestedDocument xml ∧
      (IsWellFormed xml ↔ ∀ s ∈ givenTexts tale user items pid userId, isLegalText s = true) := by
  rw [document] at made
  cases named : Publisher.ofUser user with
  | error fields =>
      rw [named] at made
      cases made
  | ok publisher =>
      rw [named] at made
      cases made
      refine ⟨isNestedDocument_documentBytes (named_element ..), ?_⟩
      rw [Publisher.ofUser_eq] at named
      split at named
      · cases named
        rw [isWellFormed_documentBytes_iff (named_element ..), legal_element_iff, givenTexts]
        simp only [List.forall_mem_append, List.forall_mem_cons, List.not_mem_nil, false_implies,
          implies_true, and_true, and_assoc]
      · cases named

end Records

end DescriptiveRecord

/-! ### The documents of a package -/

/-- **Which documents are well-formed XML.** The documents of a package are always nested and
escaped. But no string is refused for its characters: a descriptive record is written for every
publisher who lacks nothing, and the others always. So each of the three documents is well-formed
XML if and only if all the strings that it is made of are of characters that XML 1.0 allows. -/
theorem documents_wellFormed_iff (tale : Tale) (user : User) (items : List ObjectEntry) (pid : Pid)
    (sizes : FileSizes) (licenseId userId : String) (metadata : SystemMetadata) (map : ResourceMap)
    (network : Network) :
    (((∃ xml, DescriptiveRecord.document tale user items pid sizes licenseId userId = .ok xml) ↔
        IdentityField.lacking user = []) ∧
      ∀ xml, DescriptiveRecord.document tale user items pid sizes licenseId userId = .ok xml →
        IsNestedDocument xml ∧
          (IsWellFormed xml ↔
            ∀ s ∈ DescriptiveRecord.givenTexts tale user items pid userId,
              isLegalText s = true)) ∧
    (IsNestedDocument metadata.toXml ∧
      (IsWellFormed metadata.toXml ↔ ∀ s ∈ metadata.givenTexts, isLegalText s = true)) ∧
    IsNestedDocument (map.toXml network) ∧
      (IsWellFormed (map.toXml network) ↔ ∀ s ∈ map.givenTexts, isLegalText s = true) := by
  refine ⟨⟨?_, fun xml made => ?_⟩, ⟨?_, metadata.isWellFormed_toXml_iff⟩,
    ?_, map.isWellFormed_toXml_iff network⟩
  · rw [DescriptiveRecord.document, Publisher.ofUser_eq]
    split
    · next complete => simp [complete, Except.map]
    · next lacking => simp [lacking, Except.map]
  · exact DescriptiveRecord.isWellFormed_document_iff tale user items pid sizes licenseId userId
      made
  · exact isNestedDocument_documentBytes metadata.named_element
  · exact isNestedDocument_documentBytes (map.named_element network)

/-- A control character in a title or in an identifier is written as it is. -/
theorem control_characters_written :
    (∃ xml, DescriptiveRecord.document ⟨"t", "a\x01b", none, none, none, none, none⟩
        ⟨"u", some "Ada", some "Lovelace", some "ada@example.org"⟩ [] ⟨"p"⟩ ⟨1, 0, 0⟩ "CC0-1.0"
        "ada" = .ok xml ∧ ¬ IsWellFormed xml) ∧
    ¬ IsWellFormed (SystemMetadata.ofContent [] ⟨"a\x01b"⟩ "text/plain" "a.txt" "ada" none).toXml ∧
    ¬ IsWellFormed ((ResourceMap.mk ⟨"a\x01b"⟩ ⟨"p"⟩ []).toXml .production) := by
  have control : isLegalText "a\x01b" ≠ true := by decide
  refine ⟨⟨_, rfl, fun legal => control ?_⟩, fun legal => control ?_, fun legal => control ?_⟩
  · have titled : "a\x01b" ∈ DescriptiveRecord.givenTexts
        ⟨"t", "a\x01b", none, none, none, none, none⟩
        ⟨"u", some "Ada", some "Lovelace", some "ada@example.org"⟩ [] ⟨"p"⟩ "ada" :=
      .tail _ (.head _)
    exact (DescriptiveRecord.isWellFormed_document_iff _ _ _ _ ⟨1, 0, 0⟩ "CC0-1.0" _ rfl).2.mp
      legal _ titled
  · exact (SystemMetadata.isWellFormed_toXml_iff _).mp legal _ (.head _)
  · exact (ResourceMap.isWellFormed_toXml_iff _ _).mp legal _ (.head _)

end Deposit
