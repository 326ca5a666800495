import Deposit.Text.Split
import Deposit.Xml.Unescape
import Deposit.Yaml.Basic

/-!
Plain scalars: what a text without quotes stands for.

`resolve` reads one; `looksTyped` says when a text has to be quoted because it
would be read as something else than a text.
-/

namespace Deposit.Yaml

/-- Whether a text is digits with a needless zero in front: such a text is no
number. -/
def isPaddedNumber (cs : List Char) : Bool :=
  let digits :=
    match cs with
    | c :: rest => if c == '-' || c == '+' then rest else cs
    | [] => []
  match digits with
  | '0' :: d :: rest => (d :: rest).all Char.isDigit
  | _ => false

/-- The value of digits in a base. -/
def digitsValue? (base : Nat) (cs : List Char) : Option Nat :=
  if cs.isEmpty then none
  else
    match Xml.readNumber base 128 0 cs with
    | .ok n => some n
    | .error _ => none

/-- A number behind one of the marks for a base. -/
def basedValue? (cs : List Char) : Option Nat :=
  match cs with
  | '0' :: 'x' :: rest => digitsValue? 16 rest
  | '0' :: 'o' :: rest => digitsValue? 8 rest
  | '0' :: 'b' :: rest => digitsValue? 2 rest
  | _ => none

/-- An integer of 128 bits, signed or not. -/
def integer? (cs : List Char) : Option Int :=
  match cs with
  | '-' :: rest =>
    match basedValue? rest with
    | some n => if n ≤ Nat.pow 2 127 then some (-n) else none
    | none =>
      if isPaddedNumber cs then none
      else
        match digitsValue? 10 rest with
        | some n => if n ≤ Nat.pow 2 127 then some (-n) else none
        | none => none
  | _ =>
    let unsigned := (Split.behind? ['+'] cs).getD cs
    match basedValue? unsigned with
    | some n => some n
    | none =>
      if isPaddedNumber cs then none else (digitsValue? 10 unsigned).map Int.ofNat

/-- The digits in front of a text, and the rest. -/
def leadingDigits (cs : List Char) : List Char × List Char :=
  let digits := cs.takeWhile Char.isDigit
  (digits, cs.drop digits.length)

/-- The value of decimal digits. -/
def decimalValue (cs : List Char) : Nat := cs.foldl (fun n c => 10 * n + (c.toNat - 0x30)) 0

/-- The exponent at the end of a fraction: none at all counts as 0. -/
def exponent? (cs : List Char) : Option Int :=
  match cs with
  | [] => some 0
  | e :: rest =>
    if e == 'e' || e == 'E' then
      let (negative, digits) :=
        match rest with
        | '-' :: rest => (true, rest)
        | '+' :: rest => (false, rest)
        | _ => (false, rest)
      if digits.isEmpty || !digits.all Char.isDigit then none
      else
        let n := decimalValue digits
        some (if negative then -n else n)
    else none

/-- A fraction in decimal notation, if it is finite. -/
def decimal? (cs : List Char) : Option Binary64 :=
  let (negative, cs) :=
    match cs with
    | '-' :: rest => (true, rest)
    | '+' :: rest => (false, rest)
    | _ => (false, cs)
  let (whole, rest) := leadingDigits cs
  let (places, rest) :=
    match rest with
    | '.' :: rest => leadingDigits rest
    | _ => ([], rest)
  if whole.isEmpty && places.isEmpty then none
  else
    match exponent? rest with
    | none => none
    | some e => Binary64.ofDecimal negative (decimalValue (whole ++ places)) (e - places.length)

/-- A fraction, or one of the values beyond all fractions. -/
def float? (text : String) : Option Float :=
  if [".inf", ".Inf", ".INF", "+.inf", "+.Inf", "+.INF"].contains text then
    some (.infinite false)
  else if ["-.inf", "-.Inf", "-.INF"].contains text then some (.infinite true)
  else if [".nan", ".NaN", ".NAN"].contains text then some .notANumber
  else
    match text.toList with
    | '+' :: '+' :: _ => none
    | '+' :: '-' :: _ => none
    | cs => (decimal? cs).map .finite

/-- Whether a text is a word for null. -/
def isNull (text : String) : Bool := ["~", "null", "Null", "NULL"].contains text

/-- A truth value. -/
def bool? (text : String) : Option Bool :=
  if ["true", "True", "TRUE"].contains text then some true
  else if ["false", "False", "FALSE"].contains text then some false
  else none

/-- What a plain scalar stands for. -/
def resolve (text : String) : Yaml :=
  if text.isEmpty || isNull text then .null
  else
    match bool? text with
    | some b => .bool b
    | none =>
      match integer? text.toList with
      | some n => .int n
      | none =>
        if isPaddedNumber text.toList then .str text
        else
          match float? text with
          | some x => .float x
          | none => .str text

/-- Whether a text would not be read as a text if it stood without quotes. -/
def looksTyped (text : String) : Bool :=
  isPaddedNumber text.toList ||
    match resolve text with
    | .str _ => false
    | _ => true

end Deposit.Yaml
