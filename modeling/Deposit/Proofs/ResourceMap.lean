import Deposit.Proofs.Xml.Grammar
import Deposit.ResourceMap

/-!
What stands in the document of a resource map.

* `exists_descriptions`: a map is written as descriptions, each with relations and identifiers.
* `writable_element`: the names in it can stand in tags.
* `identifier_toXml`: a map states its own identifier first.
-/

namespace Deposit.ResourceMap

/-! ### What stands in a map -/

/-- The names of the relations in a map's document. -/
def relationNames : List String :=
  ["rdf:type", "ore:describes", "ore:isDescribedBy", "ore:aggregates", "ore:isAggregatedBy",
   "cito:documents", "cito:isDocumentedBy"]

/-- What can stand in a description. -/
inductive IsStatement : Xml.Element → Prop
  | relation {name : String} (known : name ∈ relationNames) (uri : String) :
      IsStatement (ResourceMap.relation name uri)
  | identifier (pid : Pid) : IsStatement (ResourceMap.identifier pid)

/-- A description that says something. -/
inductive IsDescription : Xml.Element → Prop
  | of (uri : String) {statements : List Xml.Element} (filled : statements ≠ [])
      (each : ∀ e ∈ statements, IsStatement e) : IsDescription (description uri statements)

/-- A map is written as descriptions. -/
theorem exists_descriptions (m : ResourceMap) (network : Network) :
    ∃ descriptions, m.element network = .node "rdf:RDF" namespaces descriptions ∧
      descriptions ≠ [] ∧ ∀ e ∈ descriptions, IsDescription e := by
  refine ⟨_, rfl, List.cons_ne_nil _ _, fun e mem => ?_⟩
  simp only [List.cons_append, List.nil_append, List.mem_cons, List.mem_map] at mem
  rcases mem with rfl | rfl | rfl | ⟨pid, -, rfl⟩
  all_goals
    refine .of _ (List.cons_ne_nil _ _) fun e mem => ?_
    simp only [List.mem_append, List.mem_cons, List.mem_map, List.not_mem_nil, or_false] at mem
  · rcases mem with rfl | rfl | rfl
    exacts [.relation (by decide) _, .identifier _, .relation (by decide) _]
  · rcases mem with rfl | rfl | ⟨uri, -, rfl⟩ | rfl
    all_goals exact .relation (by decide) _
  · rcases mem with rfl | ⟨uri, -, rfl⟩ | rfl
    exacts [.identifier _, .relation (by decide) _, .relation (by decide) _]
  · rcases mem with rfl | rfl | rfl
    exacts [.identifier _, .relation (by decide) _, .relation (by decide) _]

theorem IsStatement.named {e : Xml.Element} (statement : IsStatement e) :
    e.tags.all Xml.Tag.isNamed = true := by
  cases statement with
  | relation known uri =>
      have each : ∀ name ∈ relationNames, Xml.isName name = true := by decide
      have keys : Xml.areNames ["rdf:resource"] = true := by decide
      exact Xml.named_empty (each _ known) keys
  | identifier pid => exact Xml.named_leaf (by decide) rfl _

/-- Names stand in the tags of a map's document. -/
theorem named_element (m : ResourceMap) (network : Network) :
    (m.element network).tags.all Xml.Tag.isNamed = true := by
  obtain ⟨descriptions, same, -, each⟩ := exists_descriptions m network
  rw [same]
  refine Xml.named_node (by decide) (by decide) fun e mem => ?_
  obtain ⟨uri, -, statements⟩ := each e mem
  have keys : Xml.areNames ["rdf:about"] = true := by decide
  exact Xml.named_node (by decide) keys fun e mem => (statements e mem).named

/-- The names that a map is written with can stand in tags. -/
theorem writable_element (m : ResourceMap) (network : Network) :
    (m.element network).tags.all Xml.Tag.isWritable = true :=
  Xml.writable_of_named (named_element m network)

/-! ### The identifier -/

/-- The document of a map states the identifier of the map first. -/
theorem identifier_toXml (m : ResourceMap) (network : Network) :
    Xml.textOf? "dcterms:identifier" (Xml.events (m.toXml network)).1 =
      some (.ok (Xml.trimmed m.pid.text)) := by
  rw [toXml, Xml.events_documentBytes (Xml.isPlain_of_writable _ (writable_element m network))]
  have root : Utf8.bytes "rdf:RDF" ≠ Utf8.bytes "dcterms:identifier" := by decide
  have described : Utf8.bytes "rdf:Description" ≠ Utf8.bytes "dcterms:identifier" := by decide
  simp only [element, description, relation, List.cons_append, List.nil_append,
    Xml.Element.events, Xml.eventsOfAll, Xml.textOf?, root, described, if_false]
  simp only [List.append_assoc]
  exact Xml.textOf?_leaf ..

end Deposit.ResourceMap
