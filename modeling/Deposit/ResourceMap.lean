import Deposit.Network
import Deposit.Xml.Element

/-!
Resource maps: the graph that ties the objects of a package together.

A map describes an aggregation; the aggregation holds the descriptive record and
the objects, and the record documents each object. Every relation is stated from
both of its ends.
-/

namespace Deposit

/-- A package: its map, its descriptive record, and its objects. -/
structure ResourceMap where
  pid : Pid
  metadataPid : Pid
  objectPids : List Pid
  deriving DecidableEq, Repr

namespace ResourceMap

/-- The format of resource maps. -/
def formatId : String := "http://www.openarchives.org/ore/terms"

/-- The map over the objects that there are: a missing or blank identifier stands
for an object that was left out. -/
def ofObjects (pid metadataPid : Pid) (objects : List (Option Pid)) : ResourceMap :=
  ⟨pid, metadataPid, (objects.filterMap id).filter (!·.isBlank)⟩

/-- The name space of aggregations. -/
def oreNamespace : String := "http://www.openarchives.org/ore/terms/"

/-- The name spaces of a map's document. -/
def namespaces : List Xml.Attribute :=
  [⟨"xmlns:rdf", "http://www.w3.org/1999/02/22-rdf-syntax-ns#"⟩,
   ⟨"xmlns:ore", oreNamespace⟩,
   ⟨"xmlns:dcterms", "http://purl.org/dc/terms/"⟩,
   ⟨"xmlns:cito", "http://purl.org/spar/cito/"⟩]

/-- A statement about a resource that ends at another one. -/
def relation (name uri : String) : Xml.Element := .empty name [⟨"rdf:resource", uri⟩]

/-- The statement of an identifier. -/
def identifier (pid : Pid) : Xml.Element := .leaf "dcterms:identifier" [] pid.text

/-- The statements about one resource. -/
def description (uri : String) (statements : List Xml.Element) : Xml.Element :=
  .node "rdf:Description" [⟨"rdf:about", uri⟩] statements

/-- The root element of a map's document in a network. -/
def element (m : ResourceMap) (network : Network) : Xml.Element :=
  let mapUri := network.resolveUri m.pid
  let aggregation := mapUri ++ "#aggregation"
  let metadata := network.resolveUri m.metadataPid
  let objects := m.objectPids.map network.resolveUri
  .node "rdf:RDF" namespaces
    ([description mapUri
        [relation "rdf:type" (oreNamespace ++ "ResourceMap"),
         identifier m.pid,
         relation "ore:describes" aggregation],
      description aggregation
        ([relation "rdf:type" (oreNamespace ++ "Aggregation"),
          relation "ore:aggregates" metadata] ++
          objects.map (relation "ore:aggregates" ·) ++
          [relation "ore:isDescribedBy" mapUri]),
      description metadata
        ([identifier m.metadataPid] ++
          objects.map (relation "cito:documents" ·) ++
          [relation "ore:isAggregatedBy" aggregation])] ++
      m.objectPids.map fun pid =>
        description (network.resolveUri pid)
          [identifier pid,
           relation "cito:isDocumentedBy" metadata,
           relation "ore:isAggregatedBy" aggregation])

/-- The document of a map in a network. -/
def toXml (m : ResourceMap) (network : Network) : Bytes := Xml.documentBytes (m.element network)

end ResourceMap

end Deposit
