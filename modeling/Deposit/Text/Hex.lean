import Deposit.Text.Utf8

/-!
Bytes as pairs of hexadecimal digits.
-/

namespace Deposit.Hex

/-- The digit of a value below sixteen, in lower case. -/
def lowerDigit (n : Nat) : Char :=
  if n < 10 then Char.ofNat (0x30 + n) else Char.ofNat (0x57 + n)

/-- The digit of a value below sixteen, in upper case. -/
def upperDigit (n : Nat) : Char :=
  if n < 10 then Char.ofNat (0x30 + n) else Char.ofNat (0x37 + n)

/-- The value of a digit of either case. -/
def value? (c : Char) : Option Nat :=
  let n := c.toNat
  if 0x30 ≤ n && n ≤ 0x39 then some (n - 0x30)
  else if 0x61 ≤ n && n ≤ 0x66 then some (n - 0x57)
  else if 0x41 ≤ n && n ≤ 0x46 then some (n - 0x37)
  else none

/-- Two digits for each byte, in lower case. -/
def lower (bytes : Bytes) : String :=
  String.ofList (bytes.flatMap fun b => [lowerDigit (b.toNat / 16), lowerDigit (b.toNat % 16)])

/-- The bytes of pairs of digits; `none` if a digit is missing or is none. -/
def read? : List Char → Option Bytes
  | [] => some []
  | [_] => none
  | a :: b :: rest =>
    match value? a, value? b, read? rest with
    | some x, some y, some bytes => some (UInt8.ofNat (16 * x + y) :: bytes)
    | _, _, _ => none

end Deposit.Hex
