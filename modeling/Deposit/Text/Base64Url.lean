import Deposit.Text.Utf8

/-!
Base64 with the alphabet that URLs may hold, without padding.

Four symbols hold three bytes; the bits that the last symbol has over must be zero,
so bytes have one form only.
-/

namespace Deposit.Base64Url

/-- Why symbols hold no bytes. -/
inductive Fault where
  /-- One symbol is left over. -/
  | length (count : Nat)
  /-- A byte that is no symbol, and where it stands. -/
  | symbol (byte : UInt8) (offset : Nat)
  /-- A last symbol with bits over, and where it stands. -/
  | lastSymbol (byte : UInt8) (offset : Nat)
  deriving DecidableEq, Repr

/-- The wording of a fault. -/
def Fault.message : Fault → String
  | .length count => "Invalid input length: " ++ toString count
  | .symbol byte offset => "Invalid symbol " ++ toString byte ++ ", offset " ++ toString offset ++ "."
  | .lastSymbol byte offset =>
    "Invalid last symbol " ++ toString byte ++ ", offset " ++ toString offset ++ "."

/-- The six bits of a symbol. -/
def value? (b : UInt8) : Option Nat :=
  let n := b.toNat
  if 0x41 ≤ n && n ≤ 0x5A then some (n - 0x41)
  else if 0x61 ≤ n && n ≤ 0x7A then some (n - 0x61 + 26)
  else if 0x30 ≤ n && n ≤ 0x39 then some (n - 0x30 + 52)
  else if n == 0x2D then some 62
  else if n == 0x5F then some 63
  else none

/-- The symbol of six bits. -/
def symbol (n : Nat) : UInt8 :=
  UInt8.ofNat
    (if n < 26 then 0x41 + n else if n < 52 then 0x61 + (n - 26)
    else if n < 62 then 0x30 + (n - 52) else if n = 62 then 0x2D else 0x5F)

/-- The symbols of bytes. -/
def encode : Bytes → Bytes
  | [] => []
  | [a] => [symbol (a.toNat / 4), symbol (a.toNat % 4 * 16)]
  | [a, b] =>
    [symbol (a.toNat / 4), symbol (a.toNat % 4 * 16 + b.toNat / 16), symbol (b.toNat % 16 * 4)]
  | a :: b :: c :: rest =>
    symbol (a.toNat / 4) :: symbol (a.toNat % 4 * 16 + b.toNat / 16) ::
      symbol (b.toNat % 16 * 4 + c.toNat / 64) :: symbol (c.toNat % 64) :: encode rest

/-- The six bits of the symbol at an offset. -/
def bits (b : UInt8) (offset : Nat) : Except Fault Nat :=
  match value? b with
  | some n => .ok n
  | none => .error (.symbol b offset)

/-- The bytes of symbols that begin at an offset. -/
def decodeFrom (offset : Nat) : Bytes → Except Fault Bytes
  | [] => .ok []
  | [a] => do
    let _ ← bits a offset
    .error (.length (offset + 1))
  | [a, b] => do
    let x ← bits a offset
    let y ← bits b (offset + 1)
    if y % 16 ≠ 0 then .error (.lastSymbol b (offset + 1))
    else .ok [UInt8.ofNat (4 * x + y / 16)]
  | [a, b, c] => do
    let x ← bits a offset
    let y ← bits b (offset + 1)
    let z ← bits c (offset + 2)
    if z % 4 ≠ 0 then .error (.lastSymbol c (offset + 2))
    else .ok [UInt8.ofNat (4 * x + y / 16), UInt8.ofNat (y % 16 * 16 + z / 4)]
  | a :: b :: c :: d :: rest => do
    let x ← bits a offset
    let y ← bits b (offset + 1)
    let z ← bits c (offset + 2)
    let w ← bits d (offset + 3)
    let bytes ← decodeFrom (offset + 4) rest
    .ok (UInt8.ofNat (4 * x + y / 16) :: UInt8.ofNat (y % 16 * 16 + z / 4) ::
      UInt8.ofNat (z % 4 * 64 + w) :: bytes)

/-- The bytes that symbols hold. Where one is left over at the end and is no
symbol, that is reported before any other fault. -/
def decode (symbols : Bytes) : Except Fault Bytes :=
  match symbols.getLast? with
  | some last =>
    if symbols.length % 4 = 1 ∧ value? last = none then
      .error (.symbol last (symbols.length - 1))
    else decodeFrom 0 symbols
  | none => .ok []

end Deposit.Base64Url
