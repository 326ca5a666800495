/-!
Binary floating-point numbers of 64 bits, in exact arithmetic.

A number is `± significand · 2 ^ exponent`. Every operation computes the exact
result as a ratio and rounds it once, to the nearest number and, half way
between two, to the one with the even significand.
-/

namespace Deposit

/-- A finite number. The significand has 53 bits, fewer only at the least
exponent, so each number has one form; zero has significand 0. -/
structure Binary64 where
  negative : Bool
  significand : Nat
  exponent : Int
  deriving DecidableEq, Repr

namespace Binary64

/-- The exponent of the numbers nearest zero. -/
def leastExponent : Int := -1074

/-- The exponent of the greatest numbers. -/
def greatestExponent : Int := 971

/-- Zero. -/
def zero : Binary64 := ⟨false, 0, leastExponent⟩

instance : Inhabited Binary64 := ⟨zero⟩

/-- A ratio of two natural numbers, the second one positive. -/
structure Ratio where
  num : Nat
  den : Nat

/-- `n · 2 ^ binary · 10 ^ decimal`. -/
def Ratio.scaled (n : Nat) (binary decimal : Int) : Ratio :=
  ⟨n * Nat.pow 2 binary.toNat * Nat.pow 10 decimal.toNat,
    Nat.pow 2 (-binary).toNat * Nat.pow 10 (-decimal).toNat⟩

/-- The order of ratios, by the products across. -/
def Ratio.compare (a b : Ratio) : Ordering := Ord.compare (a.num * b.den) (b.num * a.den)

/-- The ratio divided by `2 ^ exponent`, rounded down, with the place of the
ratio's remainder in the unit: below, at or above the middle. -/
def Ratio.split (r : Ratio) (exponent : Int) : Nat × Ordering :=
  let num := r.num * Nat.pow 2 (-exponent).toNat
  let den := r.den * Nat.pow 2 exponent.toNat
  (num / den, Ord.compare (2 * (num % den)) den)

/-- Rounds half to even. -/
def roundUp (floor : Nat) : Ordering → Nat
  | .lt => floor
  | .eq => floor + floor % 2
  | .gt => floor + 1

/-- The number nearest to a ratio, as significand and exponent; `none` where
it would exceed the greatest number. -/
def nearest (r : Ratio) : Option (Nat × Int) :=
  if r.num = 0 then some (0, leastExponent)
  else
    let guess := max (r.num.log2 - r.den.log2 - 53 : Int) leastExponent
    let exponent := if (r.split guess).1 < Nat.pow 2 53 then guess else guess + 1
    let (floor, rest) := r.split exponent
    let rounded := roundUp floor rest
    let (significand, exponent) :=
      if rounded < Nat.pow 2 53 then (rounded, exponent) else (Nat.pow 2 52, exponent + 1)
    if exponent ≤ greatestExponent then some (significand, exponent) else none

/-- The number nearest to a ratio, with a sign. -/
def ofRatio (negative : Bool) (r : Ratio) : Option Binary64 :=
  (nearest r).map fun (significand, exponent) => ⟨negative, significand, exponent⟩

/-- The number nearest to a natural number. -/
def ofNat (n : Nat) : Option Binary64 := ofRatio false ⟨n, 1⟩

/-- The number nearest to an integer. -/
def ofInt (n : Int) : Option Binary64 := ofRatio (n < 0) ⟨n.natAbs, 1⟩

/-- The number nearest to `± n · 10 ^ exponent`. -/
def ofDecimal (negative : Bool) (n : Nat) (exponent : Int) : Option Binary64 :=
  if n = 0 then some ⟨negative, 0, leastExponent⟩
  else
    -- The first digit's place decides alone far from the range.
    let place := (Nat.toDigits 10 n).length + exponent
    if 310 < place then none
    else if place < -340 then some ⟨negative, 0, leastExponent⟩
    else ofRatio negative (.scaled n 0 exponent)

/-- Whether the number is zero, of either sign. -/
def isZero (x : Binary64) : Bool := x.significand == 0

/-- The number with the other sign. -/
def neg (x : Binary64) : Binary64 := { x with negative := !x.negative }

/-- The product; `none` where it exceeds the greatest number. -/
def mul (x y : Binary64) : Option Binary64 :=
  ofRatio (x.negative != y.negative)
    (.scaled (x.significand * y.significand) (x.exponent + y.exponent) 0)

/-- The quotient by a number that is not zero. -/
def div (x y : Binary64) : Option Binary64 :=
  let r := Ratio.scaled x.significand (x.exponent - y.exponent) 0
  ofRatio (x.negative != y.negative) ⟨r.num, r.den * y.significand⟩

/-- The number in units of the least positive one. -/
def units (x : Binary64) : Int :=
  let n : Int := (x.significand * Nat.pow 2 (x.exponent - leastExponent).toNat : Nat)
  if x.negative then -n else n

/-- The sum; `none` where it exceeds the greatest number. -/
def add (x y : Binary64) : Option Binary64 :=
  let sum := x.units + y.units
  let negative := if sum = 0 then x.negative && y.negative else decide (sum < 0)
  ofRatio negative (.scaled sum.natAbs leastExponent 0)

/-- Whether the number is at most a natural number. -/
def atMost (x : Binary64) (n : Nat) : Bool :=
  x.units ≤ (n * Nat.pow 2 (-leastExponent).toNat : Nat)

/-- Whether two numbers have the same value: the two zeros have. -/
def sameValue (x y : Binary64) : Bool := x == y || (x.isZero && y.isZero)

/-- The magnitude, as a ratio. -/
def magnitude (x : Binary64) : Ratio := .scaled x.significand x.exponent 0

/-! ### Shortest digits -/

/-- The digits that a number is written with: `digits · 10 ^ exponent`, the
last digit not 0. -/
structure Decimal where
  digits : Nat
  exponent : Int
  deriving DecidableEq, Repr

/-- The decimal exponent of the first digit of a positive ratio. -/
def Ratio.place (r : Ratio) : Int :=
  let guess := (r.num.log2 - r.den.log2 : Int) * 30103 / 100000
  -- The estimate is off by one at most, to either side.
  if (Ratio.scaled 1 0 (guess + 1)).compare r != .gt then guess + 1
  else if (Ratio.scaled 1 0 guess).compare r != .gt then guess
  else guess - 1

/-- Takes trailing zeros off a decimal, `fuel` at most. -/
def Decimal.strip : Nat → Decimal → Decimal
  | 0, d => d
  | fuel + 1, d =>
    if d.digits ≠ 0 ∧ d.digits % 10 = 0 then strip fuel ⟨d.digits / 10, d.exponent + 1⟩ else d

/-- Whether a decimal rounds to the number `x`: it lies between the middles to
the two neighbours of `x`, and may be a middle if the significand is even. -/
def readsAs (x : Binary64) (d : Decimal) : Bool :=
  let down := if x.significand = Nat.pow 2 52 ∧ leastExponent < x.exponent then 1 else 2
  let low := Ratio.scaled (4 * x.significand - down) (x.exponent - 2) 0
  let high := Ratio.scaled (4 * x.significand + 2) (x.exponent - 2) 0
  let value := Ratio.scaled d.digits 0 d.exponent
  if x.significand % 2 = 0 then low.compare value != .gt && value.compare high != .gt
  else low.compare value == .lt && value.compare high == .lt

/-- The decimals next to a positive number on the grid `10 ^ exponent` that
read as it, the nearer one first. -/
def neighbours (x : Binary64) (exponent : Int) : List Decimal :=
  let r := x.magnitude
  let num := r.num * Nat.pow 10 (-exponent).toNat
  let den := r.den * Nat.pow 10 exponent.toNat
  let below : Decimal := ⟨num / den, exponent⟩
  let above : Decimal := ⟨num / den + 1, exponent⟩
  let ordered :=
    match Ord.compare (2 * (num % den)) den with
    | .lt => [below, above]
    | .eq => if num / den % 2 = 0 then [below, above] else [above, below]
    | .gt => [above, below]
  ordered.filter (readsAs x)

/-- Looks for a decimal that reads as `x` on ever finer grids. -/
def search (x : Binary64) : Nat → Int → Option Decimal
  | 0, _ => none
  | fuel + 1, exponent =>
    match neighbours x exponent with
    | d :: _ => some d
    | [] => search x fuel (exponent - 1)

/-- The fewest digits that read back as `x`, and of those the nearest. -/
def shortest (x : Binary64) : Decimal :=
  if x.isZero then ⟨0, 0⟩
  else ((search x 17 x.magnitude.place).getD ⟨0, 0⟩).strip 17

/-! ### Texts -/

/-- How a number is written: where positional notation ends, whether a whole
number keeps a decimal point, and the sign of a positive exponent. -/
structure Style where
  /-- The least and the greatest exponent of a first digit that positional
  notation is used for; without them it is used for all. -/
  positional : Option (Int × Int)
  point : Bool
  exponentSign : String

/-- The digits of a decimal without an exponent. -/
def positionalText (style : Style) (d : Decimal) : String :=
  let digits := Nat.repr d.digits
  if 0 ≤ d.exponent then
    digits ++ "".pushn '0' d.exponent.toNat ++ (if style.point then ".0" else "")
  else
    let places := (-d.exponent).toNat
    let padded := "".pushn '0' (places + 1 - digits.length) ++ digits
    let whole := padded.length - places
    String.ofList (padded.toList.take whole) ++ "." ++ String.ofList (padded.toList.drop whole)

/-- The digits of a decimal with one digit before the point and an exponent. -/
def scientificText (style : Style) (d : Decimal) : String :=
  let digits := Nat.repr d.digits
  let place := d.exponent + (digits.length - 1 : Nat)
  let mantissa :=
    match digits.toList with
    | [] => ""
    | [c] => c.toString
    | c :: rest => c.toString ++ "." ++ String.ofList rest
  mantissa ++ "e" ++ (if place < 0 then "-" else style.exponentSign) ++ Nat.repr place.natAbs

/-- The text of a number in a style. -/
def text (style : Style) (x : Binary64) : String :=
  let d := x.shortest
  let place := d.exponent + ((Nat.repr d.digits).length - 1 : Nat)
  let body :=
    match style.positional with
    | none => positionalText style d
    | some (least, greatest) =>
      if least ≤ place && place ≤ greatest then positionalText style d
      else scientificText style d
  (if x.negative then "-" else "") ++ body

end Binary64

end Deposit
