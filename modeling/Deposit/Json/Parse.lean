import Deposit.Json.Basic
import Deposit.Text.Utf8

/-!
Reading JSON text.

The reader goes over the bytes once. Where it stops, the fault says what was
wrong and how many bytes were left; `Fault.message` turns that into a line and a
column. Arrays and objects may be nested 127 deep. A number without fraction and
exponent that fits into 64 bits is an integer, any other one the product or
quotient of its first digits and a power of ten.
-/

namespace Deposit.Json

/-- What can be wrong with a text. -/
inductive Problem where
  | endInList
  | endInObject
  | endInString
  | endInValue
  | expectedColon
  | expectedListEnd
  | expectedObjectEnd
  | expectedWord
  | expectedValue
  | invalidEscape
  | invalidNumber
  | numberOutOfRange
  | invalidCodePoint
  | controlCharacter
  | keyNotString
  | loneSurrogate
  | trailingComma
  | trailingCharacters
  | escapeCutOff
  | tooDeep
  deriving DecidableEq, Repr

/-- The wording of a problem. -/
def Problem.message : Problem → String
  | .endInList => "EOF while parsing a list"
  | .endInObject => "EOF while parsing an object"
  | .endInString => "EOF while parsing a string"
  | .endInValue => "EOF while parsing a value"
  | .expectedColon => "expected `:`"
  | .expectedListEnd => "expected `,` or `]`"
  | .expectedObjectEnd => "expected `,` or `\x7d`"
  | .expectedWord => "expected ident"
  | .expectedValue => "expected value"
  | .invalidEscape => "invalid escape"
  | .invalidNumber => "invalid number"
  | .numberOutOfRange => "number out of range"
  | .invalidCodePoint => "invalid unicode code point"
  | .controlCharacter => "control character (\\u0000-\\u001F) found while parsing a string"
  | .keyNotString => "key must be a string"
  | .loneSurrogate => "lone leading surrogate in hex escape"
  | .trailingComma => "trailing comma"
  | .trailingCharacters => "trailing characters"
  | .escapeCutOff => "unexpected end of hex escape"
  | .tooDeep => "recursion limit exceeded"

/-- Where the reader stopped: the problem, and the number of bytes left. -/
structure Fault where
  problem : Problem
  left : Nat
  deriving DecidableEq, Repr

/-- The problem with the line and the column of the last byte read. -/
def Fault.message (f : Fault) (input : Bytes) : String :=
  let before := input.take (input.length - f.left)
  let line := 1 + before.count 0x0A
  let column := (before.reverse.takeWhile (· != 0x0A)).length
  f.problem.message ++ " at line " ++ toString line ++ " column " ++ toString column

/-- A value read from the front of the bytes, with the bytes after it. -/
abbrev Reading (α : Type) := Except Fault (α × Bytes)

/-- Stops before the rest. -/
def stop {α : Type} (problem : Problem) (rest : Bytes) : Except Fault α :=
  .error ⟨problem, rest.length⟩

/-- Stops behind the first byte of the rest. -/
def stopBehind {α : Type} (problem : Problem) (rest : Bytes) : Except Fault α :=
  .error ⟨problem, rest.length - 1⟩

/-- The rest behind white space. -/
def skipBlank (s : Bytes) : Bytes :=
  s.dropWhile fun b => b == 0x20 || b == 0x0A || b == 0x09 || b == 0x0D

/-- Reads the remaining letters of a word. -/
def word (value : Json) : List Char → Bytes → Reading Json
  | [], s => .ok (value, s)
  | _ :: _, [] => stop .endInValue []
  | c :: cs, b :: s => if b.toNat == c.toNat then word value cs s else stop .expectedWord s

/-! ### Strings -/

/-- The value of four hexadecimal digits. -/
def hexValue? (a b c d : UInt8) : Option Nat := do
  let digit (x : UInt8) : Option Nat := Hex.value? (Char.ofNat x.toNat)
  pure (((← digit a) * 16 + (← digit b)) * 256 + ((← digit c) * 16 + (← digit d)))

/-- Reads four hexadecimal digits. -/
def hexFour (s : Bytes) : Except Fault (Nat × { rest : Bytes // rest.length ≤ s.length }) :=
  match s with
  | a :: b :: c :: d :: rest =>
    match hexValue? a b c d with
    | some n => .ok (n, ⟨rest, Nat.le_add_right rest.length 4⟩)
    | none => stop .invalidEscape rest
  | _ => stop .endInString []

/-- Reads the digits behind `\u`, and the second escape of a pair. -/
def unicodeEscape (s : Bytes) :
    Except Fault (Char × { rest : Bytes // rest.length ≤ s.length }) :=
  match hexFour s with
  | .error f => .error f
  | .ok (n, ⟨rest, shorter⟩) =>
    if 0xDC00 ≤ n ∧ n ≤ 0xDFFF then stop .loneSurrogate rest
    else if n < 0xD800 ∨ 0xDBFF < n then .ok (Char.ofNat n, ⟨rest, shorter⟩)
    else
      match rest, shorter with
      | [], _ => stop .endInString []
      | [b], _ => if b == 0x5C then stop .endInString [] else stop .escapeCutOff []
      | b :: u :: rest, shorter =>
        if b != 0x5C then stop .escapeCutOff (u :: rest)
        else if u != 0x75 then stop .escapeCutOff rest
        else
          match hexFour rest with
          | .error f => .error f
          | .ok (low, ⟨rest', shorter'⟩) =>
            if low < 0xDC00 ∨ 0xDFFF < low then stop .loneSurrogate rest'
            else
              .ok (Char.ofNat ((n - 0xD800) * 0x400 + (low - 0xDC00) + 0x10000),
                ⟨rest', by simp at shorter; omega⟩)

/-- Reads what follows a backslash. -/
def escape (s : Bytes) : Except Fault (Char × { rest : Bytes // rest.length ≤ s.length }) :=
  match s with
  | [] => stop .endInString []
  | b :: rest =>
    let simple (n : Nat) : Except Fault (Char × { r : Bytes // r.length ≤ (b :: rest).length }) :=
      .ok (Char.ofNat n, ⟨rest, by simp⟩)
    if b == 0x22 || b == 0x5C || b == 0x2F then simple b.toNat
    else if b == 0x62 then simple 8
    else if b == 0x66 then simple 12
    else if b == 0x6E then simple 10
    else if b == 0x72 then simple 13
    else if b == 0x74 then simple 9
    else if b == 0x75 then
      match unicodeEscape rest with
      | .error f => .error f
      | .ok (c, ⟨r, shorter⟩) => .ok (c, ⟨r, by simp; omega⟩)
    else stop .invalidEscape rest

/-- Reads a string behind its opening quote; `done` are the bytes read so far,
last one first. -/
def text (done : Bytes) (s : Bytes) : Reading String :=
  match s with
  | [] => stop .endInString []
  | b :: rest =>
    if b == 0x22 then
      match Utf8.decode done.reverse with
      | .ok chars => .ok (String.ofList chars, rest)
      | .error _ => stop .invalidCodePoint rest
    else if b == 0x5C then
      match escape rest with
      | .error f => .error f
      | .ok (c, ⟨rest', _⟩) => text ((String.utf8EncodeChar c).reverse ++ done) rest'
    else if b < 0x20 then stop .controlCharacter rest
    else text (b :: done) rest
termination_by s.length
decreasing_by all_goals simp_all; try omega

/-! ### Numbers -/

/-- Whether a byte is a digit. -/
def isDigit (b : UInt8) : Bool := 0x30 ≤ b && b ≤ 0x39

/-- Reads digits behind `n` as long as the value has 64 bits: the value, the
number of digits read, and the rest. -/
def digits (n count : Nat) : Bytes → Nat × Nat × Bytes
  | [] => (n, count, [])
  | b :: rest =>
    if isDigit b then
      let next := 10 * n + (b.toNat - 0x30)
      if next < Nat.pow 2 64 then digits next (count + 1) rest else (n, count, b :: rest)
    else (n, count, b :: rest)

/-- Whether the rest begins with `p`. -/
def nextIs (p : UInt8 → Bool) : Bytes → Bool
  | [] => false
  | b :: _ => p b

/-- The power of ten nearest to `10 ^ n`. -/
def powerOfTen (n : Nat) : Binary64 := (Binary64.ofDecimal false 1 n).getD .zero

/-- `x · 10 ^ exponent`, by one product, or by quotients of at most `10 ^ 308`
each; `none` where it exceeds the greatest number. Three quotients leave
nothing of a number of 64 bits. -/
def scale : Nat → Binary64 → Int → Option Binary64
  | 0, _, _ => some .zero
  | fuel + 1, x, exponent =>
    if exponent.natAbs ≤ 308 then
      if 0 ≤ exponent then x.mul (powerOfTen exponent.toNat)
      else x.div (powerOfTen (-exponent).toNat)
    else if x.isZero then some x
    else if 0 ≤ exponent then none
    else (x.div (powerOfTen 308)).bind fun x => scale fuel x (exponent + 308)

/-- The fraction with the given first digits and exponent. -/
def fraction (negative : Bool) (n : Nat) (exponent : Int) (rest : Bytes) : Reading Number :=
  match (Binary64.ofNat n).bind (scale 4 · exponent) with
  | some x => .ok (.float (if negative then x.neg else x), rest)
  | none => stop .numberOutOfRange rest

/-- The digits of an exponent: its value, or, when it leaves 32 bits, the rest
at that digit. -/
def exponentDigits (n : Nat) : Bytes → Except Bytes Nat × Bytes
  | [] => (.ok n, [])
  | b :: rest =>
    if isDigit b then
      let next := 10 * n + (b.toNat - 0x30)
      if next < Nat.pow 2 31 then exponentDigits next rest else (.error rest, rest.dropWhile isDigit)
    else (.ok n, b :: rest)

/-- Reads an exponent behind its `e`. -/
def exponentPart (negative : Bool) (n : Nat) (start : Int) (s : Bytes) : Reading Number :=
  let (down, s) :=
    match s with
    | b :: rest => if b == 0x2B then (false, rest) else if b == 0x2D then (true, rest) else (false, s)
    | [] => (false, s)
  match s with
  | [] => stop .endInValue []
  | b :: rest =>
    if isDigit b then
      match exponentDigits (b.toNat - 0x30) rest with
      | (.ok e, rest) => fraction negative n (if down then start - e else start + e) rest
      | (.error behind, rest) =>
        if n != 0 && !down then stop .numberOutOfRange behind
        else .ok (.float (if negative then Binary64.zero.neg else .zero), rest)
    else stop .invalidNumber rest

/-- Whether a byte begins an exponent. -/
def isExponentMark (b : UInt8) : Bool := b == 0x65 || b == 0x45

/-- Reads the exponent, if there is one, of a number that has a fraction. -/
def afterFraction (negative : Bool) (n : Nat) (exponent : Int) : Bytes → Reading Number
  | [] => fraction negative n exponent []
  | b :: rest =>
    if isExponentMark b then exponentPart negative n exponent rest
    else fraction negative n exponent (b :: rest)

/-- Reads the digits behind a decimal point. Digits beyond 64 bits do not count. -/
def fractionPart (negative : Bool) (n : Nat) (start : Int) (s : Bytes) : Reading Number :=
  let (n, count, rest) := digits n 0 s
  if nextIs isDigit rest then
    afterFraction negative n (start - count) (rest.dropWhile isDigit)
  else if count = 0 then
    if rest.isEmpty then stopBehind .endInValue rest else stopBehind .invalidNumber rest
  else afterFraction negative n (start - count) rest

/-- Reads what follows the whole part of a number; `start` is the number of its
digits that did not count. -/
def afterWhole (negative : Bool) (n : Nat) (start : Nat) (s : Bytes) : Reading Number :=
  let plain : Reading Number :=
    if start ≠ 0 then fraction negative n start s
    else if negative then
      if n = 0 ∨ Nat.pow 2 63 < n then fraction true n 0 s else .ok (.int (-n), s)
    else .ok (.int n, s)
  match s with
  | [] => plain
  | b :: rest =>
    if b == 0x2E then fractionPart negative n start rest
    else if isExponentMark b then exponentPart negative n start rest
    else plain

/-- Reads a number behind its sign. A zero in front stands alone. -/
def number (negative : Bool) : Bytes → Reading Number
  | [] => stop .endInValue []
  | b :: rest =>
    if b == 0x30 then
      if nextIs isDigit rest then stopBehind .invalidNumber rest else afterWhole negative 0 0 rest
    else if isDigit b then
      let (n, _, rest) := digits (b.toNat - 0x30) 0 rest
      if nextIs isDigit rest then
        let behind := rest.dropWhile isDigit
        afterWhole negative n (rest.length - behind.length) behind
      else afterWhole negative n 0 rest
    else stop .invalidNumber rest

/-- The value of a number. -/
def numeral (negative : Bool) (s : Bytes) : Reading Json :=
  match number negative s with
  | .ok (n, rest) => .ok (.num n, rest)
  | .error f => .error f

/-! ### Values -/

/-- What may come next inside an array or an object. -/
inductive Position where
  /-- Nothing has been read yet. -/
  | first
  /-- An item has been read: a comma or the end follows. -/
  | later
  deriving DecidableEq

mutual
/-- Reads one value; `depth` is the number of levels that may still be opened. -/
def value (fuel depth : Nat) (s : Bytes) : Reading Json :=
  match fuel with
  | 0 => stop .endInValue s
  | fuel + 1 =>
    match skipBlank s with
    | [] => stopBehind .endInValue []
    | b :: rest =>
      if b == 0x6E then word .null ['u', 'l', 'l'] rest
      else if b == 0x74 then word (.bool true) ['r', 'u', 'e'] rest
      else if b == 0x66 then word (.bool false) ['a', 'l', 's', 'e'] rest
      else if b == 0x2D then numeral true rest
      else if isDigit b then numeral false (b :: rest)
      else if b == 0x22 then
        match text [] rest with
        | .ok (t, rest) => .ok (.str t, rest)
        | .error f => .error f
      else if b == 0x5B then
        if depth ≤ 1 then stopBehind .tooDeep (b :: rest)
        else
          match items fuel (depth - 1) .first rest with
          | .ok (vs, rest) => .ok (.arr vs, rest)
          | .error f => .error f
      else if b == 0x7B then
        if depth ≤ 1 then stopBehind .tooDeep (b :: rest)
        else
          match members fuel (depth - 1) .first rest with
          | .ok (ms, rest) => .ok (object ms, rest)
          | .error f => .error f
      else stopBehind .expectedValue (b :: rest)

/-- Reads the items of an array and its end. -/
def items (fuel depth : Nat) (position : Position) (s : Bytes) : Reading (List Json) :=
  match fuel with
  | 0 => stop .endInList s
  | fuel + 1 =>
    let item (s : Bytes) : Reading (List Json) :=
      match value fuel depth s with
      | .error f => .error f
      | .ok (v, rest) =>
        match items fuel depth .later rest with
        | .error f => .error f
        | .ok (vs, rest) => .ok (v :: vs, rest)
    match skipBlank s with
    | [] => stopBehind .endInList []
    | b :: rest =>
      if b == 0x5D then .ok ([], rest)
      else if position = .first then item (b :: rest)
      else if b == 0x2C then
        match skipBlank rest with
        | [] => stopBehind .endInValue []
        | c :: rest =>
          if c == 0x5D then stopBehind .trailingComma (c :: rest) else item (c :: rest)
      else stopBehind .expectedListEnd (b :: rest)

/-- Reads the members of an object and its end. -/
def members (fuel depth : Nat) (position : Position) (s : Bytes) :
    Reading (List (String × Json)) :=
  match fuel with
  | 0 => stop .endInObject s
  | fuel + 1 =>
    let member (s : Bytes) : Reading (List (String × Json)) :=
      match text [] s with
      | .error f => .error f
      | .ok (key, rest) =>
        match skipBlank rest with
        | [] => stopBehind .endInObject []
        | c :: rest =>
          if c != 0x3A then stopBehind .expectedColon (c :: rest)
          else
            match value fuel depth rest with
            | .error f => .error f
            | .ok (v, rest) =>
              match members fuel depth .later rest with
              | .error f => .error f
              | .ok (ms, rest) => .ok ((key, v) :: ms, rest)
    match skipBlank s with
    | [] => stopBehind .endInObject []
    | b :: rest =>
      if b == 0x7D then .ok ([], rest)
      else if position = .first then
        if b == 0x22 then member rest else stopBehind .keyNotString (b :: rest)
      else if b == 0x2C then
        match skipBlank rest with
        | [] => stopBehind .endInValue []
        | c :: rest =>
          if c == 0x22 then member rest
          else if c == 0x7D then stopBehind .trailingComma (c :: rest)
          else stopBehind .keyNotString (c :: rest)
      else stopBehind .expectedObjectEnd (b :: rest)
end

/-- The number of levels that arrays and objects may be nested, plus one. -/
def depthLimit : Nat := 128

/-- Reads a text that holds one value. Each byte starts at most two readings,
so the fuel lasts. -/
def parse (input : Bytes) : Except Fault Json :=
  match value (2 * input.length + 2) depthLimit input with
  | .error f => .error f
  | .ok (v, rest) =>
    match skipBlank rest with
    | [] => .ok v
    | rest => stopBehind .trailingCharacters rest

/-- Reads a text that holds one value; the error is its message. -/
def ofBytes (input : Bytes) : Except String Json :=
  (parse input).mapError (·.message input)

end Deposit.Json
