import Deposit.Text.Hex
import Deposit.Xml.Escape

/-!
Reading escaped text: entities and character references are replaced by what they
stand for. Offsets in faults count bytes of the text.
-/

namespace Deposit.Xml

/-- Why the number of a character reference is none. -/
inductive NumberFault where
  | empty
  | digit
  | tooLarge
  deriving DecidableEq, Repr

/-- The wording of a number's fault. -/
def NumberFault.message : NumberFault → String
  | .empty => "cannot parse integer from empty string"
  | .digit => "invalid digit found in string"
  | .tooLarge => "number too large to fit in target type"

/-- Why an escaped text cannot be read. -/
inductive EscapeFault where
  /-- An `&` without a `;`, from its offset to the end of the text. -/
  | unterminated (start stop : Nat)
  /-- A name between two offsets that no entity has. -/
  | unknownEntity (start stop : Nat) (name : String)
  | sign
  | number (fault : NumberFault)
  /-- A number that no character has. -/
  | notACharacter (code : Nat)
  /-- The character 0. -/
  | null
  deriving DecidableEq, Repr

/-- The wording of a fault. -/
def EscapeFault.message : EscapeFault → String
  | .unterminated start stop =>
    "Error while escaping character at range " ++ toString start ++ ".." ++ toString stop ++
      ": Cannot find ';' after '&'"
  | .unknownEntity start stop name =>
    "at " ++ toString start ++ ".." ++ toString stop ++ ": unrecognized entity `" ++ name ++ "`"
  | .sign => "invalid character reference: unexpected number sign"
  | .number fault => "invalid character reference: " ++ fault.message
  | .notACharacter code =>
    "invalid character reference: `" ++ toString code ++ "` is not a valid codepoint"
  | .null => "invalid character reference: 0x0 character is not permitted in XML"

/-- The value of digits in a base, below `Nat.pow 2 bits`. -/
def readNumber (base bits : Nat) : Nat → List Char → Except NumberFault Nat
  | n, [] => .ok n
  | n, c :: rest =>
    match Hex.value? c with
    | some d =>
      if base ≤ d then .error .digit
      else if base * n + d < Nat.pow 2 bits then readNumber base bits (base * n + d) rest
      else .error .tooLarge
    | none => .error .digit

/-- The character of a reference, from what stands behind `#`. -/
def readReference (digits : List Char) : Except EscapeFault Char :=
  let (base, digits) :=
    match digits with
    | 'x' :: rest => (16, rest)
    | _ => (10, digits)
  match digits with
  | [] => .error (.number .empty)
  | c :: _ =>
    if c == '+' || c == '-' then .error .sign
    else
      match readNumber base 32 0 digits with
      | .error fault => .error (.number fault)
      | .ok 0 => .error .null
      | .ok n => if n.isValidChar then .ok (Char.ofNat n) else .error (.notACharacter n)

/-- What stands between `&` and `;` at an offset. -/
def readEntity (offset : Nat) (name : List Char) : Except EscapeFault Char :=
  match name with
  | '#' :: digits => readReference digits
  | _ =>
    match entityValue? (String.ofList name) with
    | some c => .ok c
    | none =>
      .error (.unknownEntity offset (offset + (Utf8.encode name).length) (String.ofList name))

/-- Whether a character ends the name of an entity. -/
def endsEntity (c : Char) : Bool := c == '&' || c == ';'

/-- Reads a text that begins at an offset. -/
def unescapeFrom (offset : Nat) : List Char → Except EscapeFault (List Char)
  | [] => .ok []
  | c :: rest =>
    if c = '&' then
      let name := rest.takeWhile (!endsEntity ·)
      match rest.drop name.length with
      | [] => .error (.unterminated offset (offset + 1 + (Utf8.encode rest).length))
      | d :: _ =>
        if d = '&' then .error (.unterminated offset (offset + 1 + (Utf8.encode rest).length))
        else
          match readEntity (offset + 1) name with
          | .error fault => .error fault
          | .ok e =>
            match unescapeFrom (offset + 2 + (Utf8.encode name).length) (rest.drop (name.length + 1)) with
            | .error fault => .error fault
            | .ok cs => .ok (e :: cs)
    else
      match unescapeFrom (offset + c.utf8Size) rest with
      | .error fault => .error fault
      | .ok cs => .ok (c :: cs)
termination_by s => s.length
decreasing_by all_goals simp; try omega

/-- Reads an escaped text. -/
def unescape (text : List Char) : Except EscapeFault (List Char) := unescapeFrom 0 text

end Deposit.Xml
