import Deposit.Number.Binary64
import Deposit.Text.Dictionary
import Deposit.Text.Hex

/-!
JSON values and their text.

An object lists its members by key, each key once; `Json.object` brings members
into that form, the last of several with one key counting. `compact` writes a
value without white space, `pretty` one item a line.
-/

namespace Deposit

/-- A number: an integer of 64 bits, signed or not, or a binary fraction. -/
inductive Json.Number where
  | int (value : Int)
  | float (value : Binary64)
  deriving DecidableEq, Repr

/-- A JSON value. -/
inductive Json where
  | null
  | bool (value : Bool)
  | num (value : Json.Number)
  | str (value : String)
  | arr (items : List Json)
  | obj (members : List (String × Json))
  deriving Repr, Inhabited

namespace Json

/-- The object with the given members; the last of several with one key counts. -/
def object (members : List (String × Json)) : Json := .obj (Dictionary.ofList members)

/-- The member of an object. -/
def get? (key : String) : Json → Option Json
  | .obj members => members.lookup key
  | _ => none

/-- The text of a string value. -/
def string? : Json → Option String
  | .str s => some s
  | _ => none

/-- An integer value. -/
def ofNat (n : Nat) : Json := .num (.int n)

/-! ### Text -/

/-- One character inside a quoted string: the quote, the backslash and the
control characters are escaped. -/
def escapeChar (c : Char) : List Char :=
  if c == '"' then ['\\', '"']
  else if c == '\\' then ['\\', '\\']
  else if c.toNat == 8 then ['\\', 'b']
  else if c.toNat == 9 then ['\\', 't']
  else if c.toNat == 10 then ['\\', 'n']
  else if c.toNat == 12 then ['\\', 'f']
  else if c.toNat == 13 then ['\\', 'r']
  else if c.toNat < 0x20 then
    ['\\', 'u', '0', '0', Hex.lowerDigit (c.toNat / 16), Hex.lowerDigit (c.toNat % 16)]
  else [c]

/-- A string in quotes. -/
def quoted (s : String) : String :=
  String.ofList ('"' :: s.toList.flatMap escapeChar ++ ['"'])

/-- Numbers have positional notation for first digits from `10⁻⁵` to `10¹⁵`; a
fraction that is whole keeps its point. -/
def numberStyle : Binary64.Style := ⟨some (-5, 15), true, "+"⟩

/-- The text of a number. -/
def Number.text : Number → String
  | .int n => toString n
  | .float x => x.text numberStyle

mutual
/-- The text of a value without white space. -/
def compact : Json → String
  | .null => "null"
  | .bool true => "true"
  | .bool false => "false"
  | .num n => n.text
  | .str s => quoted s
  | .arr items => "[" ++ compactItems items ++ "]"
  | .obj members => "\x7b" ++ compactMembers members ++ "\x7d"

/-- Items with commas between them. -/
def compactItems : List Json → String
  | [] => ""
  | [v] => compact v
  | v :: rest => compact v ++ "," ++ compactItems rest

/-- Members with commas between them. -/
def compactMembers : List (String × Json) → String
  | [] => ""
  | [(k, v)] => quoted k ++ ":" ++ compact v
  | (k, v) :: rest => quoted k ++ ":" ++ compact v ++ "," ++ compactMembers rest
end

/-- A new line at a depth of indentation. -/
def newLine (depth : Nat) : String := "\n".pushn ' ' (2 * depth)

mutual
/-- The text of a value with each item and member on a line of its own, two
spaces further in than its parent. -/
def prettyAt (depth : Nat) : Json → String
  | .arr [] => "[]"
  | .arr items => "[" ++ prettyItems (depth + 1) items ++ newLine depth ++ "]"
  | .obj [] => "\x7b\x7d"
  | .obj members => "\x7b" ++ prettyMembers (depth + 1) members ++ newLine depth ++ "\x7d"
  | other => compact other

/-- The lines of items. -/
def prettyItems (depth : Nat) : List Json → String
  | [] => ""
  | [v] => newLine depth ++ prettyAt depth v
  | v :: rest => newLine depth ++ prettyAt depth v ++ "," ++ prettyItems depth rest

/-- The lines of members. -/
def prettyMembers (depth : Nat) : List (String × Json) → String
  | [] => ""
  | [(k, v)] => newLine depth ++ quoted k ++ ": " ++ prettyAt depth v
  | (k, v) :: rest =>
    newLine depth ++ quoted k ++ ": " ++ prettyAt depth v ++ "," ++ prettyMembers depth rest
end

/-- The text of a value over several lines. -/
def pretty (value : Json) : String := prettyAt 0 value

end Json

end Deposit
