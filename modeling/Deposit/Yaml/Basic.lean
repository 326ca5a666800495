import Deposit.Json.Basic

/-!
YAML values.

A mapping keeps the order in which its keys were first put in. A key that is put in
again keeps its place and gets the new value. A tag says what a value is meant as; it
is part of the value.
-/

namespace Deposit

/-- A fraction, or one of the values beyond all fractions. -/
inductive Yaml.Float where
  | finite (value : Binary64)
  | infinite (negative : Bool)
  | notANumber
  deriving DecidableEq, Repr

/-- A tag: some text, with its mark in front of it or without. -/
structure Yaml.Tag where
  text : String
  nonempty : text ≠ ""
  deriving DecidableEq, Repr

/-- A YAML value. -/
inductive Yaml where
  | null
  | bool (value : Bool)
  | int (value : Int)
  | float (value : Yaml.Float)
  | str (value : String)
  | seq (items : List Yaml)
  | map (entries : List (Yaml × Yaml))
  | tagged (tag : Yaml.Tag) (value : Yaml)
  deriving Repr, Inhabited

namespace Yaml

/-- Entries of a mapping, in order. -/
abbrev Mapping := List (Yaml × Yaml)

/-- Whether two fractions are one key: the two zeros are. -/
def Float.same : Float → Float → Bool
  | .finite x, .finite y => x.sameValue y
  | .infinite a, .infinite b => a == b
  | .notANumber, .notANumber => true
  | _, _ => false

/-- The text of a tag without its mark; a mark alone is a tag of that name. -/
def Tag.name (tag : Tag) : String :=
  match tag.text.toList with
  | '!' :: c :: rest => String.ofList (c :: rest)
  | _ => tag.text

/-- Whether two tags are the same. -/
def Tag.same (a b : Tag) : Bool := a.name == b.name

mutual
/-- Whether two values are one key. The order of a mapping does not count. -/
def same : Yaml → Yaml → Bool
  | .null, .null => true
  | .bool a, .bool b => a == b
  | .int a, .int b => a == b
  | .float a, .float b => a.same b
  | .str a, .str b => a == b
  | .seq a, .seq b => sameItems a b
  | .map a, .map b => a.length == b.length && sameEntries a b
  | .tagged t a, .tagged u b => t.same u && same a b
  | _, _ => false

/-- Whether two lists hold the same values. -/
def sameItems : List Yaml → List Yaml → Bool
  | [], [] => true
  | a :: as, b :: bs => same a b && sameItems as bs
  | _, _ => false

/-- Whether each entry of a mapping is one of another mapping. -/
def sameEntries : List (Yaml × Yaml) → List (Yaml × Yaml) → Bool
  | [], _ => true
  | (k, v) :: rest, b => b.any (fun (k', v') => same k k' && same v v') && sameEntries rest b
end

/-- Puts an entry into a mapping: in the place of its key, or at the end. -/
def insert (key value : Yaml) : Mapping → Mapping
  | [] => [(key, value)]
  | (k, v) :: rest =>
    if k.same key then (k, value) :: rest else (k, v) :: insert key value rest

/-- Puts entries into a mapping, one after the other. -/
def insertAll (entries : Mapping) (into : Mapping) : Mapping :=
  entries.foldl (fun m (key, value) => insert key value m) into

/-- A mapping from texts to texts. -/
def ofTexts (entries : List (String × String)) : Yaml :=
  .map (entries.map fun (key, value) => (.str key, .str value))

mutual
/-- The YAML value that a JSON value is. -/
def ofJson : Json → Yaml
  | .null => .null
  | .bool b => .bool b
  | .num (.int n) => .int n
  | .num (.float x) => .float (.finite x)
  | .str s => .str s
  | .arr items => .seq (ofItems items)
  | .obj members => .map (ofMembers members)

/-- The values of items. -/
def ofItems : List Json → List Yaml
  | [] => []
  | v :: rest => ofJson v :: ofItems rest

/-- The entries of members. -/
def ofMembers : List (String × Json) → Mapping
  | [] => []
  | (key, v) :: rest => (.str key, ofJson v) :: ofMembers rest
end

end Yaml

end Deposit
