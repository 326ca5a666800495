import Deposit.Json.Basic
import Deposit.Text.Visible

/-!
Records read from JSON values.

A record is read from an object, by the names of its fields, or from an array,
by their order. Unknown members are ignored. The first member that does not fit,
in the order of the keys, is reported; then the first field that is missing, in
the order of the record.
-/

namespace Deposit.Json

/-- Why a value does not fit. -/
inductive Mismatch where
  /-- A value of another type. -/
  | wrongType (found : Json) (expected : String)
  /-- A value of the type that is not allowed; `found` describes it. -/
  | wrongValue (found expected : String)
  /-- A field without a default that is not there. -/
  | missing (field : String)
  /-- An array of the wrong length. -/
  | wrongLength (length : Nat) (expected : String)
  /-- A word that is none of the two that are known. -/
  | unknownVariant (found first second : String)
  deriving Repr

/-- One character inside the quotes that a found string is shown in. -/
def shownChar (c : Char) : List Char :=
  if c == '"' then ['\\', '"']
  else if c == '\\' then ['\\', '\\']
  else if c == '\n' then ['\\', 'n']
  else if c == '\r' then ['\\', 'r']
  else if c == '\t' then ['\\', 't']
  else if c.toNat == 0 then ['\\', '0']
  else if Visible.isVisible c then [c]
  else "\\u\x7b".toList ++ (Nat.toDigits 16 c.toNat) ++ ['\x7d']

/-- What kind of value was found. -/
def found : Json → String
  | .null => "null"
  | .bool b => "boolean `" ++ toString b ++ "`"
  | .num (.int n) => "integer `" ++ toString n ++ "`"
  | .num (.float x) => "floating point `" ++ (Number.float x).text ++ "`"
  | .str s => "string \"" ++ String.ofList (s.toList.flatMap shownChar) ++ "\""
  | .arr _ => "sequence"
  | .obj _ => "map"

/-- The wording of a mismatch. -/
def Mismatch.message : Mismatch → String
  | .wrongType value expected => "invalid type: " ++ found value ++ ", expected " ++ expected
  | .wrongValue value expected => "invalid value: " ++ value ++ ", expected " ++ expected
  | .missing field => "missing field `" ++ field ++ "`"
  | .wrongLength n expected => "invalid length " ++ toString n ++ ", expected " ++ expected
  | .unknownVariant value first second =>
    "unknown variant `" ++ value ++ "`, expected `" ++ first ++ "` or `" ++ second ++ "`"

/-! ### Values of fields -/

/-- A string. -/
def asString : Json → Except Mismatch String
  | .str s => .ok s
  | v => .error (.wrongType v "a string")

/-- A string, or nothing for null. -/
def asOptionalString : Json → Except Mismatch (Option String)
  | .null => .ok none
  | v => (asString v).map some

/-- Any value, or nothing for null. -/
def asOptional : Json → Except Mismatch (Option Json)
  | .null => .ok none
  | v => .ok (some v)

/-- A number of 64 bits without a sign. -/
def asSize : Json → Except Mismatch Nat
  | .num (.int n) =>
    if 0 ≤ n then .ok n.toNat else .error (.wrongValue (found (.num (.int n))) "u64")
  | v => .error (.wrongType v "u64")

/-! ### Records -/

/-- A field of records `ρ`: its name, how a value is put into the record, and
whether a record without it is refused. -/
structure Field (ρ : Type) where
  name : String
  put : Json → ρ → Except Mismatch ρ
  required : Bool

/-- A field with a reader for its value. -/
def Field.of {ρ α : Type} (name : String) (required : Bool) (read : Json → Except Mismatch α)
    (set : α → ρ → ρ) : Field ρ :=
  ⟨name, fun v r => (read v).map (set · r), required⟩

/-- Puts the members of an object into a record. -/
def putMembers {ρ : Type} (fields : List (Field ρ)) :
    List (String × Json) → ρ → Except Mismatch ρ
  | [], r => .ok r
  | (key, v) :: rest, r =>
    match fields.find? (·.name == key) with
    | none => putMembers fields rest r
    | some field =>
      match field.put v r with
      | .ok r => putMembers fields rest r
      | .error e => .error e

/-- Puts the items of an array into a record, one for each field; `all` is the
number of items, `done` the number of fields filled. -/
def putItems {ρ : Type} (title : String) (all done : Nat) :
    List (Field ρ) → List Json → ρ → Except Mismatch ρ
  | [], [], r => .ok r
  | [], _ :: _, _ => .error (.wrongLength all "fewer elements in array")
  | field :: fields, [], r =>
    if field.required then .error (.wrongLength done title) else putItems title all done fields [] r
  | field :: fields, v :: rest, r =>
    match field.put v r with
    | .ok r => putItems title all (done + 1) fields rest r
    | .error e => .error e

/-- Reads a record named `title`, starting from its defaults. -/
def asRecord {ρ : Type} (title : String) (fields : List (Field ρ)) (defaults : ρ) :
    Json → Except Mismatch ρ
  | .obj members =>
    match putMembers fields members defaults with
    | .error e => .error e
    | .ok r =>
      match fields.find? fun f => f.required && (members.lookup f.name).isNone with
      | some f => .error (.missing f.name)
      | none => .ok r
  | .arr items =>
    putItems ("struct " ++ title ++ " with " ++ toString fields.length ++ " elements")
      items.length 0 fields items defaults
  | v => .error (.wrongType v ("struct " ++ title))

/-- The value of an optional text. -/
def ofOptionalString : Option String → Json
  | some s => .str s
  | none => .null

end Deposit.Json
