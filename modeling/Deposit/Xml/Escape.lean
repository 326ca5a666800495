import Deposit.Text.Utf8

/-!
Escaping of markup characters.

Texts and attribute values have the five characters that markup is made of
written as entities, so neither a tag nor the end of an attribute can stand in
them.
-/

namespace Deposit.Xml

/-- The name of the entity that stands for a markup character. -/
def entityOf (c : Char) : Option String :=
  match c with
  | '<' => some "lt"
  | '>' => some "gt"
  | '&' => some "amp"
  | '\'' => some "apos"
  | '"' => some "quot"
  | _ => none

/-- The character that a named entity stands for. -/
def entityValue? (name : String) : Option Char :=
  if name = "lt" then some '<'
  else if name = "gt" then some '>'
  else if name = "amp" then some '&'
  else if name = "apos" then some '\''
  else if name = "quot" then some '"'
  else none

/-- One character of a text. -/
def escapeChar (c : Char) : List Char :=
  match entityOf c with
  | some name => '&' :: name.toList ++ [';']
  | none => [c]

/-- A text with its markup characters written as entities. -/
def escape (text : List Char) : List Char := text.flatMap escapeChar

end Deposit.Xml
