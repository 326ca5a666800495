import Deposit.Text.Hex

/-!
Percent-encoding: a byte outside the allowed set becomes `%` and two upper-case
hexadecimal digits. Decoding takes back every such triple and leaves a `%` that
no two digits follow as it is.
-/

namespace Deposit.Percent

/-- One byte as a percent triple. -/
def triple (b : UInt8) : List Char :=
  ['%', Hex.upperDigit (b.toNat / 16), Hex.upperDigit (b.toNat % 16)]

/-- Encodes the bytes of every character that is not `keep`. -/
def encode (keep : Char → Bool) (text : List Char) : List Char :=
  text.flatMap fun c => if keep c then [c] else (String.utf8EncodeChar c).flatMap triple

/-- The bytes that a percent-encoded text stands for. -/
def decode : List Char → Bytes
  | [] => []
  | '%' :: a :: b :: rest =>
    match Hex.value? a, Hex.value? b with
    | some x, some y => UInt8.ofNat (16 * x + y) :: decode rest
    | _, _ => 0x25 :: decode (a :: b :: rest)
  | c :: rest => String.utf8EncodeChar c ++ decode rest

/-- The characters that stand for themselves in every part of a URI: letters,
digits, hyphen, period, underscore and tilde. -/
def isUnreserved (c : Char) : Bool :=
  c.isAlphanum || c == '-' || c == '.' || c == '_' || c == '~'

/-- A text as one segment of a URI path. -/
def segment (s : String) : String := String.ofList (encode isUnreserved s.toList)

end Deposit.Percent
