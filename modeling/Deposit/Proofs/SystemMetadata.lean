import Deposit.Proofs.Xml.Grammar
import Deposit.Proofs.Xml.Tree
import Deposit.SystemMetadata

/-!
The wire form of system metadata says all there is to a record.

A reader takes the elements of a document in their order (`read?`). What it reads from the
document of a record is the record, whatever texts it holds and however many rules, subjects and
permissions there are (`read?_toXml`). So records with the same document are the same
(`toXml_determines`).
-/

namespace Deposit.SystemMetadata

open Xml

/-! ### Reading -/

/-- The text of a leaf with a name. -/
def textIn? (name : String) : Element → Option String
  | .leaf found _ text => if found = name then some text else none
  | .node .. => none
  | .empty .. => none

/-- The elements in an element. -/
def elementsIn : Element → List Element
  | .node _ _ children => children
  | .leaf .. => []
  | .empty .. => []

/-- The permission with a word. -/
def permission? (word : String) : Option Permission := if word = "read" then some .read else none

/-- The rule of an element: its subjects and its permissions. -/
def ruleOf (e : Element) : AccessRule where
  subjects := (elementsIn e).filterMap (textIn? "subject")
  permissions := (elementsIn e).filterMap fun part =>
    (textIn? "permission" part).bind permission?

/-- The digest of an element with the algorithm that it names. -/
def checksum? : Element → Option ChecksumValue
  | .leaf "checksum" [⟨"algorithm", algorithm⟩] value => some ⟨algorithm, value⟩
  | _ => none

/-- The name in what follows the rules; nothing there is the empty name. -/
def fileName? : List Element → Option String
  | [] => some ""
  | [e] => textIn? "fileName" e
  | _ => none

/-- The record of a root element, from its elements in their order. -/
def ofElement? (root : Element) : Option SystemMetadata :=
  match elementsIn root with
  | _ :: pid :: formatId :: size :: checksum :: rightsHolder :: policy :: rest => do
    pure {
      pid := ⟨← textIn? "identifier" pid⟩
      formatId := ← textIn? "formatId" formatId
      size := Nat.ofDigitChars 10 (← textIn? "size" size).toList 0
      checksum := ← checksum? checksum
      fileName := ← fileName? rest
      rightsHolder := ← textIn? "rightsHolder" rightsHolder
      accessPolicy := (elementsIn policy).map ruleOf }
  | _ => none

/-- The record of a document. -/
def read? (document : Bytes) : Option SystemMetadata := (root? document).bind ofElement?

/-! ### Rules -/

theorem elementsIn_seen (name : String) (attributes : List Attribute) (children : List Element)
    (depth : Nat) :
    elementsIn ((Element.node name attributes children).seen depth) =
      seenAll (depth + 1) children := by
  cases children with
  | nil => rfl
  | cons e others => rfl

theorem permission?_text (permission : Permission) :
    permission? permission.text = some permission := by
  cases permission
  rfl

/-- The parts of a rule. -/
def ruleParts (rule : AccessRule) : List Element :=
  rule.subjects.map (.leaf "subject" [] ·) ++
    rule.permissions.map fun p => .leaf "permission" [] p.text

theorem ruleParts_filled (rule : AccessRule) : areFilled (ruleParts rule) = true := by
  rw [areFilled_iff]
  intro e mem
  rcases List.mem_append.mp mem with mem | mem
  all_goals
    obtain ⟨_, -, rfl⟩ := List.mem_map.mp mem
    rfl

/-- A rule is read as it is, with any subjects and permissions. -/
theorem ruleOf_seen (rule : AccessRule) (depth : Nat) :
    ruleOf ((ruleElement rule).seen depth) = rule := by
  have parts : elementsIn ((ruleElement rule).seen depth) = ruleParts rule := by
    rw [ruleElement, elementsIn_seen]
    exact seenAll_eq_self _ _ (ruleParts_filled rule)
  have subjects : (ruleParts rule).filterMap (textIn? "subject") = rule.subjects := by
    simp [ruleParts, List.filterMap_map, textIn?, Function.comp_def]
  have permissions : ((ruleParts rule).filterMap fun part =>
      (textIn? "permission" part).bind permission?) = rule.permissions := by
    simp [ruleParts, List.filterMap_map, textIn?, permission?_text]
  rw [ruleOf, parts, subjects, permissions]

/-- Rules are read as they are, in their order. -/
theorem map_ruleOf_seen (rules : List AccessRule) (depth : Nat) :
    (elementsIn ((Element.node "accessPolicy" [] (rules.map ruleElement)).seen depth)).map ruleOf =
      rules := by
  rw [elementsIn_seen, seenAll_eq_map, List.map_map, List.map_map]
  simp [Function.comp_def, ruleOf_seen]

/-! ### Records -/

theorem named_ruleElement (rule : AccessRule) :
    (ruleElement rule).tags.all Tag.isNamed = true := by
  refine named_node (by decide) rfl fun e mem => ?_
  rcases List.mem_append.mp mem with mem | mem
  all_goals
    obtain ⟨_, -, rfl⟩ := List.mem_map.mp mem
    exact named_leaf (by decide) rfl _

/-- Names stand in the tags of a record's document. -/
theorem named_element (m : SystemMetadata) : m.element.tags.all Tag.isNamed = true := by
  refine named_node (by decide) (by decide) fun e mem => ?_
  simp only [List.mem_append, List.mem_cons, List.not_mem_nil, or_false,
    List.mem_ite_nil_left] at mem
  rcases mem with (rfl | rfl | rfl | rfl | rfl | rfl | rfl) | ⟨-, rfl⟩
  case inl.inr.inr.inr.inr.inl =>
    have keys : areNames ["algorithm"] = true := by decide
    refine named_leaf (by decide) ?_ _
    exact keys
  case inl.inr.inr.inr.inr.inr.inr =>
    refine named_node (by decide) rfl fun e mem => ?_
    obtain ⟨rule, -, rfl⟩ := List.mem_map.mp mem
    exact named_ruleElement rule
  all_goals exact named_leaf (by decide) rfl _

/-- The names in the document of a record can stand in tags. -/
theorem writable_element (m : SystemMetadata) : m.element.tags.all Tag.isWritable = true :=
  writable_of_named (named_element m)

theorem fileName?_seen (name : String) (depth : Nat) :
    fileName? (seenAll depth (if name.isEmpty then [] else [.leaf "fileName" [] name])) =
      some name := by
  cases empty : name.isEmpty with
  | true =>
      have nothing : name = "" := String.isEmpty_iff.mp empty
      simp [nothing, seenAll, fileName?]
  | false => simp [seenAll, Element.seen, fileName?, textIn?]

/-- **What is read from the document of a record is the record.** -/
theorem read?_toXml (m : SystemMetadata) : read? m.toXml = some m := by
  rw [read?, toXml, root?_documentBytes (writable_element m), Option.bind_some]
  have rules := map_ruleOf_seen m.accessPolicy 1
  have fileName := fileName?_seen m.fileName 1
  rw [element, ofElement?, elementsIn_seen]
  simp only [List.cons_append, List.nil_append, seenAll, rules, fileName]
  simp [Element.seen, textIn?, checksum?]

/-- **The wire form determines the record.** What is read from the document of a record, from its
elements in their order, is the record: all texts come back as they are, an absent name as the
empty one. So two records have the same document only if they are the same, whatever texts they
hold and however many rules, subjects and permissions there are. -/
theorem toXml_determines :
    (∀ m : SystemMetadata, read? m.toXml = some m) ∧
      ∀ a b : SystemMetadata, a.toXml = b.toXml ↔ a = b := by
  refine ⟨read?_toXml, fun a b => ⟨fun same => ?_, fun same => same ▸ rfl⟩⟩
  have read := read?_toXml a
  rw [same, read?_toXml] at read
  exact (Option.some.inj read).symm

end Deposit.SystemMetadata
