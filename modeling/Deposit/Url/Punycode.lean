/-!
Punycode: the ASCII form of labels with other characters.

A label is written as its ASCII characters, a hyphen, and the other characters in
the order of their code points. Each is given by its distance from the one before
as a number with digits of base 36, whose length the distances so far foretell.
-/

namespace Deposit.Punycode

/-- The digit of a value below 36. -/
def digit (n : Nat) : Char :=
  if n < 26 then Char.ofNat (0x61 + n) else Char.ofNat (0x30 + (n - 26))

/-- The value of a digit, in either case. -/
def value? (c : Char) : Option Nat :=
  let n := c.toNat
  if 0x61 ≤ n && n ≤ 0x7A then some (n - 0x61)
  else if 0x41 ≤ n && n ≤ 0x5A then some (n - 0x41)
  else if 0x30 ≤ n && n ≤ 0x39 then some (n - 0x30 + 26)
  else none

/-- From which value on digit number `k / 36` is not the last one. -/
def threshold (k bias : Nat) : Nat := max 1 (min 26 (k - bias))

/-- Divides a distance by 35 until it is small, counting in steps of 36. -/
def damp (delta k : Nat) : Nat :=
  if 455 < delta then damp (delta / 35) (k + 36) else k + 36 * delta / (delta + 38)
termination_by delta
decreasing_by exact Nat.div_lt_self (by omega) (by omega)

/-- The bias behind a distance; `count` characters have been placed. -/
def adapt (delta count : Nat) (first : Bool) : Nat :=
  let delta := if first then delta / 700 else delta / 2
  damp (delta + delta / count) 0

/-- The digits of a distance, `fuel` at most. -/
def digits (bias : Nat) : Nat → Nat → Nat → List Char
  | 0, _, _ => []
  | fuel + 1, k, q =>
    let t := threshold k bias
    if q < t then [digit q]
    else digit (t + (q - t) % (36 - t)) :: digits bias fuel (k + 36) ((q - t) / (36 - t))

/-- How far an encoding has come. -/
structure Progress where
  delta : Nat
  bias : Nat
  /-- The number of characters placed. -/
  placed : Nat
  output : List Char

/-- Goes over the label for the code point `m`; `base` is the number of ASCII
characters. -/
def place (m base : Nat) : List Char → Progress → Progress
  | [], p => p
  | c :: rest, p =>
    if c.toNat < m then place m base rest { p with delta := p.delta + 1 }
    else if c.toNat = m then
      place m base rest
        ⟨0, adapt p.delta (p.placed + 1) (p.placed == base), p.placed + 1,
          p.output ++ digits p.bias 16 36 p.delta⟩
    else place m base rest p

/-- Goes over the label once for each of its other code points, in order. -/
def placeAll (label : List Char) (base : Nat) : Nat → List Nat → Progress → Progress
  | _, [], p => p
  | next, m :: rest, p =>
    let p := place m base label { p with delta := p.delta + (m - next) * (p.placed + 1) }
    placeAll label base (m + 1) rest { p with delta := p.delta + 1 }

/-- The ASCII form of a label, without the mark in front of it. -/
def encode (label : List Char) : List Char :=
  let basic := label.filter fun c => c.toNat < 0x80
  let others := ((label.filter fun c => 0x80 ≤ c.toNat).map Char.toNat).mergeSort.eraseDups
  let start := if basic.isEmpty then [] else basic ++ ['-']
  (placeAll label basic.length 0x80 others ⟨0, 72, basic.length, start⟩).output

/-- Reads a distance: the new index and the digits behind it. -/
def readDelta (bias : Nat) : Nat → Nat → Nat → List Char → Option (Nat × List Char)
  | _, _, _, [] => none
  | k, i, w, c :: rest =>
    match value? c with
    | none => none
    | some d =>
      let i := i + d * w
      let t := threshold k bias
      if d < t then some (i, rest) else readDelta bias (k + 36) i (w * (36 - t)) rest

/-- Puts characters into `output` as the digits say; each takes one at least. -/
def insertAll : Nat → Nat → Nat → Nat → List Char → List Char → Option (List Char)
  | _, _, _, _, output, [] => some output
  | 0, _, _, _, _, _ => none
  | fuel + 1, n, i, bias, output, code =>
    match readDelta bias 36 i 1 code with
    | none => none
    | some (index, rest) =>
      let count := output.length + 1
      let n := n + index / count
      if n < 0x110000 ∧ ¬ (0xD800 ≤ n ∧ n < 0xE000) then
        let position := index % count
        insertAll fuel n (position + 1) (adapt (index - i) count (i == 0))
          (output.take position ++ Char.ofNat n :: output.drop position) rest
      else none

/-- The label that an ASCII form stands for. -/
def decode? (code : List Char) : Option (List Char) :=
  let behind := code.reverse.takeWhile (· != '-')
  let basic := (code.take (code.length - behind.length - 1))
  if code.all (fun c => c.toNat < 0x80) then
    insertAll (code.length + 1) 0x80 0 72 basic behind.reverse
  else none

end Deposit.Punycode
