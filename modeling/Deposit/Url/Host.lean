import Deposit.Text.Lowercase
import Deposit.Text.Percent
import Deposit.Text.Split
import Deposit.Url.Punycode

/-!
Hosts of URLs.

A host is the name of a domain in its ASCII form or a numeric address; a domain
whose last label is a number is an address and nothing else. Schemes that the web
does not define leave the host as it is, but for percent-encoding.

The characters of a domain are mapped by case, width and full stops, and by what is ignored or
refused. Other forms of compatibility, composition, and the rules for directions and joiners are
not known.
-/

namespace Deposit.Url

/-- Where a URL points to. -/
inductive Host where
  /-- Nothing stands between the slashes. -/
  | empty
  | domain (name : String)
  | ipv4 (address : Nat)
  /-- The eight pieces of an address. -/
  | ipv6 (pieces : List Nat)
  deriving DecidableEq, Repr

/-! ### Numeric addresses -/

/-- The value of digits in a base; `none` if one is none of the base. -/
def numeral? (base : Nat) : Nat → List Char → Option Nat
  | n, [] => some n
  | n, c :: rest =>
    match Hex.value? c with
    | some d => if d < base then numeral? base (base * n + d) rest else none
    | none => none

/-- A number in an IPv4 address: decimal, octal behind `0`, or hexadecimal
behind `0x`. -/
def ipv4Number? (label : List Char) : Option Nat :=
  match label with
  | [] => none
  | '0' :: 'x' :: digits => numeral? 16 0 digits
  | '0' :: 'X' :: digits => numeral? 16 0 digits
  | '0' :: d :: digits => numeral? 8 0 (d :: digits)
  | digits => numeral? 10 0 digits

/-- The labels of a domain, without an empty last one. -/
def labels (domain : List Char) : List (List Char) :=
  let all := Split.pieces '.' domain
  if 1 < all.length ∧ all.getLast? = some [] then all.dropLast else all

/-- Whether the last label is a number. -/
def endsInNumber (domain : List Char) : Bool :=
  match (labels domain).getLast? with
  | some last => !last.isEmpty && (last.all Char.isDigit || (ipv4Number? last).isSome)
  | none => false

/-- The address that up to four numbers make: the last one fills what the others
leave. -/
def ipv4? (domain : List Char) : Option Nat := do
  let parts := labels domain
  if 4 < parts.length then none
  else
    let numbers ← parts.mapM ipv4Number?
    let last ← numbers.getLast?
    let heads := numbers.dropLast
    if heads.any (255 < ·) || Nat.pow 256 (4 - heads.length) ≤ last then none
    else pure (heads.foldl (fun n part => 256 * n + part) 0 * Nat.pow 256 (4 - heads.length) + last)

/-- A byte in decimal digits, none of them a zero in front. -/
def plainByte? (digits : List Char) : Option Nat :=
  if digits.isEmpty || (1 < digits.length && digits.head? == some '0') then none
  else
    match numeral? 10 0 digits with
    | some n => if n < 256 then some n else none
    | none => none

/-- A piece of an IPv6 address: one to four hexadecimal digits. -/
def piece? (digits : List Char) : Option Nat :=
  if digits.isEmpty || 4 < digits.length then none else numeral? 16 0 digits

/-- The pieces between colons; the last one may be an IPv4 address, which makes
two. -/
def ipv6Pieces? : List (List Char) → Option (List Nat)
  | [] => some []
  | [last] =>
    if last.contains '.' then
      match (Split.pieces '.' last).mapM plainByte? with
      | some [a, b, c, d] => some [256 * a + b, 256 * c + d]
      | _ => none
    else (piece? last).map ([·])
  | digits :: rest =>
    match piece? digits, ipv6Pieces? rest with
    | some n, some others => some (n :: others)
    | _, _ => none

/-- What stands before and behind the first pair of colons. -/
def atDoubleColon? : List Char → Option (List Char × List Char)
  | ':' :: ':' :: rest => some ([], rest)
  | [] => none
  | c :: rest => (atDoubleColon? rest).map fun (before, behind) => (c :: before, behind)

/-- The pieces of one side of a pair of colons. -/
def ipv6Side? (side : List Char) : Option (List Nat) :=
  if side.isEmpty then some [] else ipv6Pieces? (Split.pieces ':' side)

/-- The eight pieces of an address; a pair of colons stands for the missing
zeros, one at least. -/
def ipv6? (text : List Char) : Option (List Nat) :=
  match atDoubleColon? text with
  | none =>
    match ipv6Pieces? (Split.pieces ':' text) with
    | some pieces => if pieces.length = 8 then some pieces else none
    | none => none
  | some (before, behind) =>
    if before.contains '.' then none
    else
      match ipv6Side? before, ipv6Side? behind with
      | some a, some b =>
        if a.length + b.length ≤ 7 then
          some (a ++ List.replicate (8 - a.length - b.length) 0 ++ b)
        else none
      | _, _ => none

/-- The length of the run of zeros in front. -/
def zeros (pieces : List Nat) : Nat := (pieces.takeWhile (· == 0)).length

/-- The index and the length of the first longest run of zeros from `index` on. -/
def longestZeros (index : Nat) : List Nat → Nat × Nat
  | [] => (index, 0)
  | p :: rest =>
    let here := zeros (p :: rest)
    let later := longestZeros (index + 1) rest
    if later.2 ≤ here then (index, here) else later

/-- Pieces with colons between them. -/
def piecesText (pieces : List Nat) : String :=
  ":".intercalate (pieces.map fun p => String.ofList (Nat.toDigits 16 p))

/-- The text of an IPv6 address: the first longest run of at least two zeros is
left out. -/
def ipv6Text (pieces : List Nat) : String :=
  let (start, length) := longestZeros 0 pieces
  if length < 2 then piecesText pieces
  else piecesText (pieces.take start) ++ "::" ++ piecesText (pieces.drop (start + length))

/-- The text of an IPv4 address. -/
def ipv4Text (n : Nat) : String :=
  ".".intercalate ([n / 0x1000000, n / 0x10000 % 256, n / 256 % 256, n % 256].map toString)

/-- The text of a host inside a URL. -/
def Host.text : Host → String
  | .empty => ""
  | .domain name => name
  | .ipv4 n => ipv4Text n
  | .ipv6 pieces => "[" ++ ipv6Text pieces ++ "]"

/-! ### Domains -/

/-- Whether an ASCII character may not stand in a domain. -/
def isForbiddenInDomain (c : Char) : Bool :=
  c.toNat ≤ 0x20 || c.toNat == 0x7F || "%#/:<>?@[\\]^|".toList.contains c

/-- Whether a character is left out of domains: the soft hyphen and other
characters without a look of their own. -/
def isIgnoredInDomain (c : Char) : Bool :=
  let n := c.toNat
  n == 0xAD || n == 0x34F || n == 0x200B || n == 0x2060 || n == 0x2064 || n == 0xFEFF ||
    (0x180B ≤ n && n ≤ 0x180D) || (0xFE00 ≤ n && n ≤ 0xFE0F) || (0xE0100 ≤ n && n ≤ 0xE01EF)

/-- Whether a character is a full stop of another script. -/
def isFullStop (c : Char) : Bool :=
  c.toNat == 0x3002 || c.toNat == 0xFF0E || c.toNat == 0xFF61

/-- Whether a character has no place in a domain: controls, blanks, private and
unassigned code points, and the replacement character. -/
def isDisallowedInDomain (c : Char) : Bool :=
  let n := c.toNat
  (0x80 ≤ n && n ≤ 0xA0) || n == 0x1680 || (0x2000 ≤ n && n ≤ 0x200F) || n == 0x2028 ||
    n == 0x2029 || (0x202A ≤ n && n ≤ 0x202F) || n == 0x205F || (0x2061 ≤ n && n ≤ 0x206F) ||
    n == 0x3000 || (0xE000 ≤ n && n ≤ 0xF8FF) || (0xFFF0 ≤ n && n ≤ 0xFFFF) ||
    (0xFDD0 ≤ n && n ≤ 0xFDEF) || 0xE0000 ≤ n

/-- The characters that a character of a domain is replaced by; `none` if it is
disallowed. -/
def mapInDomain (c : Char) : Option (List Char) :=
  let n := c.toNat
  if n < 0x80 then some [c.toLower]
  else if isIgnoredInDomain c then some []
  else if isFullStop c then some ['.']
  else if 0xFF01 ≤ n && n ≤ 0xFF5E then some [(Char.ofNat (n - 0xFEE0)).toLower]
  else if isDisallowedInDomain c then none
  else some (if n == 0x130 then ['i', Char.ofNat 0x307] else [Lowercase.lower c])

/-- Whether a label is in its ASCII form already. -/
def isAscii (label : List Char) : Bool := label.all fun c => c.toNat < 0x80

/-- The ASCII form of a label. A label that claims to be one has to stand for a
label that has it. -/
def asciiLabel? (label : List Char) : Option (List Char) :=
  if isAscii label then
    match Split.behind? "xn--".toList label with
    | none => some label
    | some code =>
      match Punycode.decode? code with
      | none => none
      | some decoded =>
        let mapped := decoded.mapM mapInDomain
        if !isAscii decoded && mapped.map List.flatten == some decoded &&
          Punycode.encode decoded == code then some label
        else none
  else if (Split.behind? "xn--".toList label).isSome then none
  else some ("xn--".toList ++ Punycode.encode label)

/-- The ASCII form of a domain. -/
def asciiDomain? (domain : List Char) : Option (List Char) := do
  let mapped ← domain.mapM mapInDomain
  let labels ← (Split.pieces '.' mapped.flatten).mapM asciiLabel?
  let ascii := List.intercalate ['.'] labels
  if ascii.any isForbiddenInDomain then none else pure ascii

/-- A host of a scheme of the web. -/
def Host.parse? (text : List Char) : Option Host :=
  match text with
  | '[' :: rest =>
    if rest.getLast? = some ']' then (ipv6? rest.dropLast).map .ipv6 else none
  | _ =>
    match Utf8.decode (Percent.decode text) with
    | .error _ => none
    | .ok decoded =>
      match asciiDomain? decoded with
      | none => none
      | some [] => none
      | some ascii =>
        if endsInNumber ascii then (ipv4? ascii).map .ipv4
        else some (.domain (String.ofList ascii))

/-- Whether a character stands for itself where only controls are encoded. -/
def isPrintableAscii (c : Char) : Bool := 0x20 ≤ c.toNat && c.toNat < 0x7F

/-- Whether a character may not stand in a host of another scheme. -/
def isForbiddenInHost (c : Char) : Bool :=
  c.toNat == 0 || c == '\t' || c == '\n' || c == '\r' || " #/:<>?@[\\]^|".toList.contains c

/-- A host of another scheme. -/
def Host.parsePlain? (text : List Char) : Option Host :=
  match text with
  | [] => some .empty
  | '[' :: rest =>
    if rest.getLast? = some ']' then (ipv6? rest.dropLast).map .ipv6 else none
  | _ =>
    if text.any isForbiddenInHost then none
    else some (.domain (String.ofList (Percent.encode isPrintableAscii text)))

end Deposit.Url
