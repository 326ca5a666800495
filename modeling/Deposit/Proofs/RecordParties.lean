import Deposit.Proofs.DescriptiveRecord
import Deposit.Proofs.Xml.Tree

/-!
Who has a role in a descriptive record. Creator and contact are known by the id that the record was
written for, with the directory that issued it (`partyIds_document`).
-/

namespace Deposit.DescriptiveRecord

open Xml

/-! ### Reading -/

/-- The elements with a name in an element. -/
def partsNamed (name : String) : Element → List Element
  | .node _ _ children => children.filter (·.name == name)
  | .leaf .. => []
  | .empty .. => []

/-- The id in an element, with each directory that is named for it. -/
def idsIn : Element → List (String × String)
  | .leaf _ attributes id =>
    (attributes.filter (·.name == "directory")).map fun directory => (directory.value, id)
  | .node .. => []
  | .empty .. => []

/-- The ids of who has a role in a record, each with its directory. -/
def partyIds (role : String) (record : Bytes) : List (String × String) :=
  (root? record).toList.flatMap fun root =>
    (partsNamed "dataset" root).flatMap fun dataset =>
      (partsNamed role dataset).flatMap fun party =>
        (partsNamed "userId" party).flatMap idsIn

/-! ### Records -/

theorem filled_entryElement (entry : ObjectEntry) : (entryElement entry).isFilled = true := by
  rw [entryElement]
  cases (Tags.stripText entry.description).isEmpty <;> rfl

theorem filled_preamble (tale : Tale) (publisher : Publisher) (licenseId userId : String) :
    areFilled (preamble tale publisher licenseId userId) = true := by
  unfold preamble abstractElements
  split
  · rfl
  · split <;> rfl

/-- No node in a record is without elements, so it is read as it was written. -/
theorem filled_element (tale : Tale) (publisher : Publisher) (items : List ObjectEntry) (pid : Pid)
    (sizes : FileSizes) (licenseId userId : String) :
    (element tale publisher items pid sizes licenseId userId).isFilled = true := by
  have parts : areFilled (preamble tale publisher licenseId userId ++
      (items ++ generatedEntries sizes).map entryElement) = true := by
    rw [areFilled_iff]
    intro e mem
    rcases List.mem_append.mp mem with front | back
    · exact areFilled_iff.mp (filled_preamble tale publisher licenseId userId) e front
    · obtain ⟨entry, -, rfl⟩ := List.mem_map.mp back
      exact filled_entryElement entry
  rw [element_eq]
  simp only [Element.isFilled, areFilled, parts]
  rfl

theorem eq_of_mem_abstractElements {description : Option String} {e : Element}
    (mem : e ∈ abstractElements description) :
    ∃ text, e = .node "abstract" [] [.leaf "para" [] text] := by
  unfold abstractElements at mem
  split at mem
  · cases mem
  · split_ifs at mem
    · cases mem
    · exact ⟨_, List.mem_singleton.mp mem⟩

/-- One party has each role. -/
theorem partsNamed_role {role : String} (given : role = "creator" ∨ role = "contact")
    (tale : Tale) (publisher : Publisher) (entries : List ObjectEntry) (licenseId userId : String) :
    partsNamed role (.node "dataset" [] (preamble tale publisher licenseId userId ++
      entries.map entryElement)) = [publisher.element role userId] := by
  have others : "otherEntity" ≠ role ∧ "abstract" ≠ role := by
    rcases given with rfl | rfl <;> decide
  have entries_none : (entries.map entryElement).filter (·.name == role) = [] := by
    rw [List.filter_eq_nil_iff]
    intro e mem
    obtain ⟨entry, -, rfl⟩ := List.mem_map.mp mem
    exact fun same => others.1 (beq_iff_eq.mp same)
  have abstract_none : (abstractElements tale.description).filter (·.name == role) = [] := by
    rw [List.filter_eq_nil_iff]
    intro e mem
    obtain ⟨text, rfl⟩ := eq_of_mem_abstractElements mem
    exact fun same => others.2 (beq_iff_eq.mp same)
  rw [partsNamed, preamble, List.filter_append, List.filter_append, List.filter_append,
    entries_none, abstract_none]
  rcases given with rfl | rfl <;> rfl

/-- Creator and contact of a record are known by the id that it was written for, in the directory
that issued it. -/
theorem partyIds_document {tale : Tale} {user : User} {items : List ObjectEntry} {pid : Pid}
    {sizes : FileSizes} {licenseId userId : String} {xml : Bytes}
    (made : document tale user items pid sizes licenseId userId = .ok xml) {role : String}
    (given : role = "creator" ∨ role = "contact") :
    partyIds role xml = [(Identity.directory userId, userId)] := by
  rw [document] at made
  cases named : Publisher.ofUser user with
  | error fields =>
      rw [named] at made
      cases made
  | ok publisher =>
      rw [named] at made
      cases made
      have writable := writable_element tale publisher items pid sizes licenseId userId
      have filled := filled_element tale publisher items pid sizes licenseId userId
      rw [partyIds, root?_documentBytes writable, seen_eq_self _ _ filled, element_eq]
      have dataset (parts : List Element) : partsNamed "dataset"
          (.node "eml:eml" (rootAttributes pid) [.node "dataset" [] parts]) =
            [.node "dataset" [] parts] := rfl
      simp only [Option.toList_some, List.flatMap_singleton, dataset, partsNamed_role given]
      rfl

end Deposit.DescriptiveRecord
