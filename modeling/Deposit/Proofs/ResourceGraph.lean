import Deposit.Proofs.ResourceMap
import Deposit.Proofs.Text.Percent
import Deposit.Proofs.Xml.Tree

/-!
The graph that a resource map states.

The document of a map is read as descriptions of resources, and these as statements in the order of
the document (`statements?`): names are expanded by the name spaces of the root, values and texts
are what they stand for. What is read is the graph that is meant (`graph`), whatever characters the
identifiers hold (`statements?_toXml`).

* `aggregates_iff`, `documents_iff`, and what they are the inverse of: the statements of a relation.
* `resolveUri_inj`, `resolveUri_ne_aggregation`: identifiers keep their resources apart.
* `toXml_graph`: the statements of a document, the inverse relations, and the resources.
-/

namespace Deposit.ResourceMap

open Xml

/-! ### Statements -/

/-- What a statement ends at. -/
inductive Term where
  | resource (uri : String)
  | literal (text : String)
  deriving DecidableEq, Repr

/-- A statement about a resource. -/
structure Statement where
  subject : String
  predicate : String
  object : Term
  deriving DecidableEq, Repr

/-- A name of the framework that the graph is described in. -/
def rdf (name : String) : String := "http://www.w3.org/1999/02/22-rdf-syntax-ns#" ++ name

/-- A name of aggregations. -/
def ore (name : String) : String := "http://www.openarchives.org/ore/terms/" ++ name

/-- A name of general metadata. -/
def dcterms (name : String) : String := "http://purl.org/dc/terms/" ++ name

/-- A name of citations. -/
def cito (name : String) : String := "http://purl.org/spar/cito/" ++ name

/-- What is said of a resource, in order. -/
def about (subject : String) (facts : List (String × Term)) : List Statement :=
  facts.map fun (predicate, object) => ⟨subject, predicate, object⟩

/-- The resource that a map describes. -/
def aggregation (m : ResourceMap) (network : Network) : String :=
  network.resolveUri m.pid ++ "#aggregation"

section Facts

variable (m : ResourceMap) (network : Network)

/-- What is said of a map. -/
def mapFacts : List (String × Term) :=
  [(rdf "type", .resource (ore "ResourceMap")), (dcterms "identifier", .literal m.pid.text),
   (ore "describes", .resource (m.aggregation network))]

/-- What is said of the aggregation. -/
def aggregationFacts : List (String × Term) :=
  [(rdf "type", .resource (ore "Aggregation")),
   (ore "aggregates", .resource (network.resolveUri m.metadataPid))] ++
    m.objectPids.map (fun pid => (ore "aggregates", .resource (network.resolveUri pid))) ++
    [(ore "isDescribedBy", .resource (network.resolveUri m.pid))]

/-- What is said of the descriptive record. -/
def metadataFacts : List (String × Term) :=
  [(dcterms "identifier", .literal m.metadataPid.text)] ++
    m.objectPids.map (fun pid => (cito "documents", .resource (network.resolveUri pid))) ++
    [(ore "isAggregatedBy", .resource (m.aggregation network))]

/-- What is said of an object. -/
def objectFacts (pid : Pid) : List (String × Term) :=
  [(dcterms "identifier", .literal pid.text),
   (cito "isDocumentedBy", .resource (network.resolveUri m.metadataPid)),
   (ore "isAggregatedBy", .resource (m.aggregation network))]

/-- The statements that a map is to make, in order. -/
def graph : List Statement :=
  about (network.resolveUri m.pid) (m.mapFacts network) ++
    about (m.aggregation network) (m.aggregationFacts network) ++
    about (network.resolveUri m.metadataPid) (m.metadataFacts network) ++
    m.objectPids.flatMap fun pid => about (network.resolveUri pid) (m.objectFacts network pid)

end Facts

/-! ### Reading statements -/

/-- A name in front of which the name space stands that its first part is short for. -/
def expand? (namespaces : List Attribute) (name : String) : Option String :=
  (Split.first? ':' name.toList).bind fun (short, rest) =>
    (namespaces.find? (·.name = "xmlns:" ++ String.ofList short)).map
      (·.value ++ String.ofList rest)

/-- What an element in a description says. -/
def fact? (namespaces : List Attribute) : Element → Option (String × Term)
  | .empty name [⟨key, uri⟩] =>
    if expand? namespaces key = some (rdf "resource") then
      (expand? namespaces name).map (·, .resource uri)
    else none
  | .leaf name [] text => (expand? namespaces name).map (·, .literal text)
  | _ => none

/-- What a description says of its resource. -/
def description? (namespaces : List Attribute) : Element → Option (List Statement)
  | .node name [⟨key, uri⟩] children =>
    if expand? namespaces name = some (rdf "Description") ∧
        expand? namespaces key = some (rdf "about") then
      (children.mapM (fact? namespaces)).map (about uri)
    else none
  | _ => none

/-- The statements of a root element. -/
def ofRoot? : Element → Option (List Statement)
  | .node name namespaces descriptions =>
    if expand? namespaces name = some (rdf "RDF") then
      (descriptions.mapM (description? namespaces)).map List.flatten
    else none
  | _ => none

/-- The statements of a document, in its order. -/
def statements? (document : Bytes) : Option (List Statement) := (root? document).bind ofRoot?

theorem fact?_relation {name predicate : String}
    (expanded : expand? namespaces name = some predicate) (uri : String) :
    fact? namespaces (relation name uri) = some (predicate, .resource uri) := by
  have key : expand? namespaces "rdf:resource" = some (rdf "resource") := by decide
  simp [relation, fact?, key, expanded]

theorem fact?_identifier (pid : Pid) :
    fact? namespaces (identifier pid) = some (dcterms "identifier", .literal pid.text) := by
  have expanded : expand? namespaces "dcterms:identifier" = some (dcterms "identifier") := by
    decide
  simp [identifier, fact?, expanded]

theorem description?_description (uri : String) (elements : List Element) :
    description? namespaces (description uri elements) =
      (elements.mapM (fact? namespaces)).map (about uri) := by
  have name : expand? namespaces "rdf:Description" = some (rdf "Description") := by decide
  have key : expand? namespaces "rdf:about" = some (rdf "about") := by decide
  simp [description, description?, name, key]

theorem mapM_relation {name predicate : String}
    (expanded : expand? namespaces name = some predicate) (uris : List String) :
    (uris.map (relation name ·)).mapM (fact? namespaces) =
      some (uris.map fun uri => (predicate, .resource uri)) := by
  rw [List.mapM_map]
  simp only [Function.comp_def, fact?_relation expanded]
  exact List.mapM_pure

/-- The names in a map's document are expanded to these. -/
theorem expand?_names :
    expand? namespaces "rdf:type" = some (rdf "type") ∧
      expand? namespaces "ore:describes" = some (ore "describes") ∧
      expand? namespaces "ore:isDescribedBy" = some (ore "isDescribedBy") ∧
      expand? namespaces "ore:aggregates" = some (ore "aggregates") ∧
      expand? namespaces "ore:isAggregatedBy" = some (ore "isAggregatedBy") ∧
      expand? namespaces "cito:documents" = some (cito "documents") ∧
      expand? namespaces "cito:isDocumentedBy" = some (cito "isDocumentedBy") := by
  decide

theorem IsStatement.filled {e : Element} (statement : IsStatement e) : e.isFilled = true := by
  cases statement <;> rfl

/-- No node in a map's document is without elements. -/
theorem element_filled (m : ResourceMap) (network : Network) :
    (m.element network).isFilled = true := by
  obtain ⟨descriptions, same, some, each⟩ := exists_descriptions m network
  rw [same, Element.isFilled, Bool.and_eq_true]
  refine ⟨by simpa using some, areFilled_iff.mpr fun e mem => ?_⟩
  obtain ⟨uri, some, statements⟩ := each e mem
  rw [description, Element.isFilled, Bool.and_eq_true]
  exact ⟨by simpa using some, areFilled_iff.mpr fun e mem => (statements e mem).filled⟩

/-- What is read from the elements of a map is its graph. -/
theorem ofRoot?_element (m : ResourceMap) (network : Network) :
    ofRoot? (m.element network) = some (m.graph network) := by
  obtain ⟨type, describes, isDescribedBy, aggregates, isAggregatedBy, documents, isDocumentedBy⟩ :=
    expand?_names
  have root : expand? namespaces "rdf:RDF" = some (rdf "RDF") := by decide
  have ofObjects : (m.objectPids.map fun pid => description (network.resolveUri pid)
        [identifier pid, relation "cito:isDocumentedBy" (network.resolveUri m.metadataPid),
          relation "ore:isAggregatedBy" (m.aggregation network)]).mapM (description? namespaces) =
      some (m.objectPids.map fun pid => about (network.resolveUri pid)
        (m.objectFacts network pid)) := by
    simp only [List.mapM_map, Function.comp_def, description?_description, List.mapM_cons,
      List.mapM_nil, fact?_identifier, fact?_relation isDocumentedBy, fact?_relation isAggregatedBy]
    exact List.mapM_pure
  have types (name : String) : oreNamespace ++ name = ore name := rfl
  rw [element, ofRoot?, if_pos root, ← aggregation]
  simp only [List.mapM_append, ofObjects, List.mapM_cons, List.mapM_nil, description?_description,
    fact?_identifier, fact?_relation type, fact?_relation describes, fact?_relation isDescribedBy,
    fact?_relation aggregates, fact?_relation isAggregatedBy, mapM_relation aggregates,
    mapM_relation documents, types]
  simp [graph, mapFacts, aggregationFacts, metadataFacts, List.flatMap, Function.comp_def]

/-- What is read from the document of a map is its graph. -/
theorem statements?_toXml (m : ResourceMap) (network : Network) :
    statements? (m.toXml network) = some (m.graph network) := by
  rw [statements?, toXml, root?_documentBytes (writable_element m network), Option.bind_some,
    seen_eq_self _ 0 (element_filled m network), ofRoot?_element]

/-! ### Relations -/

section Relations

variable {m : ResourceMap} {network : Network}

theorem mem_about {uri : String} {facts : List (String × Term)} {s : Statement} :
    s ∈ about uri facts ↔ s.subject = uri ∧ (s.predicate, s.object) ∈ facts := by
  rw [about, List.mem_map]
  constructor
  · rintro ⟨fact, mem, rfl⟩
    exact ⟨rfl, mem⟩
  · rintro ⟨rfl, mem⟩
    exact ⟨_, mem, rfl⟩

theorem mem_graph {s : Statement} : s ∈ m.graph network ↔
    s.subject = network.resolveUri m.pid ∧ (s.predicate, s.object) ∈ m.mapFacts network ∨
    s.subject = m.aggregation network ∧
      (s.predicate, s.object) ∈ m.aggregationFacts network ∨
    s.subject = network.resolveUri m.metadataPid ∧
      (s.predicate, s.object) ∈ m.metadataFacts network ∨
    ∃ pid ∈ m.objectPids, s.subject = network.resolveUri pid ∧
      (s.predicate, s.object) ∈ m.objectFacts network pid := by
  simp only [graph, List.mem_append, List.mem_flatMap, mem_about, or_assoc]

/-- The aggregation holds the descriptive record and the objects, and nothing else holds any. -/
theorem aggregates_iff {s t : String} :
    ⟨s, ore "aggregates", .resource t⟩ ∈ m.graph network ↔ s = m.aggregation network ∧
      ∃ pid ∈ m.metadataPid :: m.objectPids, t = network.resolveUri pid := by
  simp +decide [mem_graph, mapFacts, aggregationFacts, metadataFacts, objectFacts, @eq_comm _ t]

theorem isAggregatedBy_iff {s t : String} :
    ⟨t, ore "isAggregatedBy", .resource s⟩ ∈ m.graph network ↔ s = m.aggregation network ∧
      ∃ pid ∈ m.metadataPid :: m.objectPids, t = network.resolveUri pid := by
  simp +decide [mem_graph, mapFacts, aggregationFacts, metadataFacts, objectFacts]
  grind

/-- The descriptive record documents the objects, and nothing else documents any. -/
theorem documents_iff {s t : String} :
    ⟨s, cito "documents", .resource t⟩ ∈ m.graph network ↔
      s = network.resolveUri m.metadataPid ∧ ∃ pid ∈ m.objectPids, t = network.resolveUri pid := by
  simp +decide [mem_graph, mapFacts, aggregationFacts, metadataFacts, objectFacts, @eq_comm _ t]

theorem isDocumentedBy_iff {s t : String} :
    ⟨t, cito "isDocumentedBy", .resource s⟩ ∈ m.graph network ↔
      s = network.resolveUri m.metadataPid ∧ ∃ pid ∈ m.objectPids, t = network.resolveUri pid := by
  simp +decide [mem_graph, mapFacts, aggregationFacts, metadataFacts, objectFacts]
  grind

/-- The resources of a map: its aggregation, and what its identifiers stand for. -/
def resources (m : ResourceMap) (network : Network) : List String :=
  m.aggregation network :: (m.pid :: m.metadataPid :: m.objectPids).map network.resolveUri

/-- All statements are about resources of the map. -/
theorem subject_mem {s : Statement} (mem : s ∈ m.graph network) :
    s.subject ∈ m.resources network := by
  simp only [resources, List.map_cons, List.mem_cons, List.mem_map]
  rcases mem_graph.mp mem with ⟨same, -⟩ | ⟨same, -⟩ | ⟨same, -⟩ | ⟨pid, mem, same, -⟩
  · exact .inr (.inl same)
  · exact .inl same
  · exact .inr (.inr (.inl same))
  · exact .inr (.inr (.inr ⟨pid, mem, same.symm⟩))

/-- All statements end at texts, at types, or at resources of the map. -/
theorem object_mem {s : Statement} {uri : String} (mem : s ∈ m.graph network)
    (ends : s.object = .resource uri) :
    s.predicate = rdf "type" ∨ uri ∈ m.resources network := by
  simp only [resources, List.map_cons, List.mem_cons, List.mem_map]
  rw [mem_graph, ends] at mem
  simp only [mapFacts, aggregationFacts, metadataFacts, objectFacts, List.mem_append,
    List.mem_cons, List.mem_map, List.not_mem_nil, Prod.mk.injEq, Term.resource.injEq, reduceCtorEq,
    and_false, or_false, false_or] at mem
  grind

end Relations

/-! ### Resources -/

section Resources

variable {network : Network} {pid other : Pid}

/-- Different identifiers stand for different resources. -/
theorem resolveUri_inj : network.resolveUri pid = network.resolveUri other ↔ pid = other := by
  cases pid
  cases other
  simp only [Network.resolveUri, String.append_right_inj, Percent.segment_inj, Pid.mk.injEq]

/-- No identifier stands for an aggregation: a fragment is no part of a segment. -/
theorem resolveUri_ne_aggregation (m : ResourceMap) :
    network.resolveUri pid ≠ m.aggregation network := by
  intro same
  have fragment : '#' ∈ (network.resolveUri pid).toList := by
    rw [same, aggregation, String.toList_append]
    exact List.mem_append_right _ (by decide)
  rw [Network.resolveUri, String.toList_append, List.mem_append] at fragment
  rcases fragment with inNode | inSegment
  · cases network <;> exact absurd inNode (by decide)
  · exact absurd (Percent.segment_plain _ _ inSegment) (by decide)

/-- An identifier is read back from the last segment of what it stands for. -/
theorem exists_segment (network : Network) (pid : Pid) :
    ∃ segment, network.resolveUri pid = network.coordinatingNode ++ "/v2/resolve/" ++ segment ∧
      (∀ c ∈ segment.toList, Percent.isUnreserved c = true ∨ c = '%') ∧
      Percent.decode segment.toList = Utf8.bytes pid.text :=
  ⟨_, rfl, Percent.segment_plain _, Percent.decode_segment _⟩

end Resources

/-! ### The document of a map -/

/-- The objects of a map are those given that are not blank, in their order. -/
theorem map_some_objectPids (pid metadataPid : Pid) (objects : List (Option Pid)) :
    (ofObjects pid metadataPid objects).objectPids.map some =
      objects.filter fun object => object.any (!·.isBlank) := by
  rw [ofObjects]
  induction objects with
  | nil => rfl
  | cons object objects ih =>
      cases object with
      | none => simpa using ih
      | some pid => cases blank : pid.isBlank <;> simpa [blank] using ih

/-- The document of a map over some objects states what is meant:
* the map is over the identifiers that are given, without those that are missing or blank;
* its tags are nested, and its statements are those of the graph, in order;
* the two directions of `aggregates` and of `documents` are inverse to each other;
* statements are about resources of the map, and end at texts, types, and such resources;
* an identifier stands for a resource under the coordinating node, with a segment that the
  identifier is read back from; no other one stands for this resource, and none does for the
  aggregation. -/
theorem toXml_graph (pid metadataPid : Pid) (objects : List (Option Pid)) (network : Network) :
    let m := ofObjects pid metadataPid objects
    (m.pid = pid ∧ m.metadataPid = metadataPid ∧
      m.objectPids.map some = objects.filter fun object => object.any (!·.isBlank)) ∧
    (∃ row, pieces? (m.toXml network) = some row ∧ isNested [] (row.map (·.tag)) = true) ∧
    statements? (m.toXml network) = some (m.graph network) ∧
    (∀ s t, ⟨s, ore "aggregates", .resource t⟩ ∈ m.graph network ↔
      ⟨t, ore "isAggregatedBy", .resource s⟩ ∈ m.graph network) ∧
    (∀ s t, ⟨s, cito "documents", .resource t⟩ ∈ m.graph network ↔
      ⟨t, cito "isDocumentedBy", .resource s⟩ ∈ m.graph network) ∧
    (∀ s ∈ m.graph network, s.subject ∈ m.resources network ∧
      ∀ uri, s.object = .resource uri →
        s.predicate = rdf "type" ∨ uri ∈ m.resources network) ∧
    (∀ p, ∃ segment,
      network.resolveUri p = network.coordinatingNode ++ "/v2/resolve/" ++ segment ∧
      (∀ c ∈ segment.toList, Percent.isUnreserved c = true ∨ c = '%') ∧
      Percent.decode segment.toList = Utf8.bytes p.text) ∧
    (∀ p q, network.resolveUri p = network.resolveUri q ↔ p = q) ∧
    ∀ p, network.resolveUri p ≠ m.aggregation network := by
  intro m
  obtain ⟨row, pieces, -, nested, -⟩ := document_pieces (writable_element m network)
  exact ⟨⟨rfl, rfl, map_some_objectPids pid metadataPid objects⟩,
    ⟨row, pieces, nested⟩,
    statements?_toXml m network,
    fun s t => aggregates_iff.trans isAggregatedBy_iff.symm,
    fun s t => documents_iff.trans isDocumentedBy_iff.symm,
    fun s mem => ⟨subject_mem mem, fun uri ends => object_mem mem ends⟩,
    exists_segment network,
    fun p q => resolveUri_inj,
    fun p => resolveUri_ne_aggregation m⟩

end Deposit.ResourceMap
