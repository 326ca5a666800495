import Deposit.Xml.Escape

/-!
Elements and the documents they make.

The repository validates documents by position, so an element is written with
its parts exactly in the order given. Each element begins on a line of its own,
two spaces further in than its parent; one that holds a text or nothing stays on
that line.
-/

namespace Deposit.Xml

/-- A name with its value. -/
structure Attribute where
  name : String
  value : String
  deriving DecidableEq, Repr

/-- An element with a text, with elements, or closed at once. -/
inductive Element where
  | leaf (name : String) (attributes : List Attribute) (text : String)
  | node (name : String) (attributes : List Attribute) (children : List Element)
  | empty (name : String) (attributes : List Attribute)
  deriving Repr

/-- The name of an element. -/
def Element.name : Element → String
  | .leaf name .. => name
  | .node name .. => name
  | .empty name .. => name

/-- The start of a line at a depth. -/
def newLine (depth : Nat) : List Char := '\n' :: List.replicate (2 * depth) ' '

/-- The attributes of a tag. -/
def renderAttributes (attributes : List Attribute) : List Char :=
  attributes.flatMap fun a =>
    ' ' :: a.name.toList ++ ['=', '"'] ++ escape a.value.toList ++ ['"']

/-- A start tag. -/
def startTag (name : String) (attributes : List Attribute) : List Char :=
  '<' :: name.toList ++ renderAttributes attributes ++ ['>']

/-- An end tag. -/
def endTag (name : String) : List Char := '<' :: '/' :: name.toList ++ ['>']

/-- A tag that is closed at once. -/
def emptyTag (name : String) (attributes : List Attribute) : List Char :=
  '<' :: name.toList ++ renderAttributes attributes ++ ['/', '>']

mutual
/-- The lines of an element at a depth. -/
def Element.render (depth : Nat) : Element → List Char
  | .leaf name attributes text =>
    newLine depth ++ startTag name attributes ++ escape text.toList ++ endTag name
  | .node name attributes children =>
    newLine depth ++ startTag name attributes ++ renderAll (depth + 1) children ++
      newLine depth ++ endTag name
  | .empty name attributes => newLine depth ++ emptyTag name attributes

/-- The lines of several elements at a depth. -/
def renderAll (depth : Nat) : List Element → List Char
  | [] => []
  | e :: rest => e.render depth ++ renderAll depth rest
end

/-- The first line of a document. -/
def declaration : List Char := "<?xml version=\"1.0\" encoding=\"UTF-8\"?>".toList

/-- The text of a document with a root element. -/
def document (root : Element) : List Char := declaration ++ root.render 0

/-- The bytes of a document with a root element. -/
def documentBytes (root : Element) : Bytes := Utf8.encode (document root)

end Deposit.Xml
