import Deposit.Text.Blank
import Deposit.Text.Hex

/-!
Persistent identifiers: the names of objects in a repository.
-/

namespace Deposit

/-- The identifier of one object. Each upload has one of its own. -/
structure Pid where
  text : String
  deriving DecidableEq, Repr, Inhabited

namespace Pid

/-- Whether the identifier is blank; such a one names no uploaded object. -/
def isBlank (pid : Pid) : Bool := Blank.isBlankText pid.text

/-- A number as an identifier. -/
def ofInt (n : Int) : Pid := ⟨toString n⟩

/-- The order of identifiers: by code point. -/
def compare (a b : Pid) : Ordering := Ord.compare a.text b.text

/-- The digits of a UUID of four groups of hyphens, without them. -/
def hyphenated? (cs : List Char) : Option (List Char) :=
  if cs.length = 36 then
    let groups := [cs.take 8, (cs.drop 9).take 4, (cs.drop 14).take 4, (cs.drop 19).take 4, cs.drop 24]
    let hyphens := [cs.drop 8, cs.drop 13, cs.drop 18, cs.drop 23].map (·.take 1)
    if hyphens.all (· == ['-']) then some groups.flatten else none
  else none

/-- The digits of a UUID in one of its forms: with hyphens, also in braces or
behind `urn:uuid:`, or the digits alone. -/
def uuidDigits? (cs : List Char) : Option (List Char) :=
  if cs.length = 32 then some cs
  else if cs.take 1 == ['\x7b'] && cs.drop 37 == ['\x7d'] then hyphenated? ((cs.drop 1).take 36)
  else if cs.take 9 == "urn:uuid:".toList then hyphenated? (cs.drop 9)
  else hyphenated? cs

/-- The hyphens of a UUID between its digits, in lower case. -/
def ofUuidDigits (digits : List Nat) : Pid :=
  let cs := digits.map Hex.lowerDigit
  ⟨String.ofList (cs.take 8 ++ '-' :: (cs.drop 8).take 4 ++ '-' :: (cs.drop 12).take 4 ++
    '-' :: (cs.drop 16).take 4 ++ '-' :: cs.drop 20)⟩

/-- A UUID, in any of its forms, as an identifier. -/
def ofUuid? (text : String) : Option Pid := do
  let cs ← uuidDigits? text.toList
  let digits ← cs.mapM Hex.value?
  pure (ofUuidDigits digits)

end Pid

end Deposit
