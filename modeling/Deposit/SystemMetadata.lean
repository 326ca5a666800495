import Deposit.Checksum.Source
import Deposit.Pid
import Deposit.Xml.Element

/-!
System metadata: the technical record that travels with each object.

The checksum is always an MD5 digest, and every object may be read by anyone:
there are no private packages. The document of a record has its elements in the
order of the schema.
-/

namespace Deposit

/-- A digest with the name of its algorithm. -/
structure ChecksumValue where
  algorithm : String
  value : String
  deriving DecidableEq, Repr

/-- What a rule allows. -/
inductive Permission where
  | read
  deriving DecidableEq, Repr

/-- The word for a permission. -/
def Permission.text : Permission → String
  | .read => "read"

/-- Permissions that some subjects are given. -/
structure AccessRule where
  subjects : List String
  permissions : List Permission
  deriving DecidableEq, Repr

/-- The technical record of one object. -/
structure SystemMetadata where
  pid : Pid
  formatId : String
  size : Nat
  checksum : ChecksumValue
  /-- Empty for an object without a name, such as a resource map. -/
  fileName : String
  rightsHolder : String
  accessPolicy : List AccessRule
  deriving DecidableEq, Repr

/-- The one checksum algorithm in use. -/
def checksumAlgorithm : String := "MD5"

/-- Anyone may read. -/
def publicRead : List AccessRule := [⟨["public"], [.read]⟩]

namespace SystemMetadata

/-- The record of an object with a known digest and measured length. A given
size takes the place of the measured one. -/
def ofDigest (digest : StreamDigest) (pid : Pid) (formatId fileName rightsHolder : String)
    (size : Option Nat) : SystemMetadata :=
  { pid, formatId, size := size.getD digest.bytesRead,
    checksum := ⟨checksumAlgorithm, digest.hex⟩, fileName, rightsHolder,
    accessPolicy := publicRead }

/-- The record of an object that is held in memory. -/
def ofContent (content : Bytes) (pid : Pid) (formatId fileName rightsHolder : String)
    (size : Option Nat) : SystemMetadata :=
  ofDigest ⟨Md5.hex content, content.length⟩ pid formatId fileName rightsHolder size

/-- The element of a rule: its subjects, then its permissions. -/
def ruleElement (rule : AccessRule) : Xml.Element :=
  .node "allow" []
    (rule.subjects.map (.leaf "subject" [] ·) ++
      rule.permissions.map fun p => .leaf "permission" [] p.text)

/-- The root element of a record's document. -/
def element (m : SystemMetadata) : Xml.Element :=
  .node "d1:systemMetadata" [⟨"xmlns:d1", "http://ns.dataone.org/service/types/v2.0"⟩]
    ([.leaf "serialVersion" [] "1",
      .leaf "identifier" [] m.pid.text,
      .leaf "formatId" [] m.formatId,
      .leaf "size" [] (toString m.size),
      .leaf "checksum" [⟨"algorithm", m.checksum.algorithm⟩] m.checksum.value,
      .leaf "rightsHolder" [] m.rightsHolder,
      .node "accessPolicy" [] (m.accessPolicy.map ruleElement)] ++
      if m.fileName.isEmpty then [] else [.leaf "fileName" [] m.fileName])

/-- The document of a record. -/
def toXml (m : SystemMetadata) : Bytes := Xml.documentBytes m.element

end SystemMetadata

end Deposit
