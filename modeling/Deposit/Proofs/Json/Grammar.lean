import Deposit.Json.Parse

/-!
What a JSON text is, told without the reader.

A text spells a value: a word, a number, a string in quotes, or an array or object whose items
stand between commas, each with white space around it (`Spells`). The number of levels that are
nested is limited, and the members of an object come into the form of `object`, so the last of
several with one key counts. A number is whatever the number reader takes as a whole: the limits of
its numbers are its own.
-/

namespace Deposit.Json

/-! ### Leaves -/

/-- White space between the parts of a text. -/
def Spaces (text : List Char) : Prop := ∀ c ∈ text, c ∈ [' ', '\n', '\t', '\r']

/-- Four hexadecimal digits and their value. -/
inductive FourDigits : List Char → Nat → Prop where
  | mk {a b c d : Char} {x y z w : Nat} (first : Hex.value? a = some x)
    (second : Hex.value? b = some y) (third : Hex.value? c = some z)
    (fourth : Hex.value? d = some w) :
    FourDigits [a, b, c, d] ((x * 16 + y) * 256 + (z * 16 + w))

/-- The letters behind a backslash, with the characters that they stand for. -/
def letters : List (Char × Char) :=
  [('"', '"'), ('\\', '\\'), ('/', '/'), ('b', '\x08'), ('f', '\x0C'), ('n', '\n'), ('r', '\r'),
    ('t', '\t')]

/-- What stands behind a backslash, and the character it is for. A character beyond the first
65536 is a pair of surrogates, and none of them stands alone. -/
inductive Escape : List Char → Char → Prop where
  | letter {letter c : Char} (mem : (letter, c) ∈ letters) : Escape [letter] c
  | unit {digits : List Char} {n : Nat} (spelled : FourDigits digits n)
    (valid : n < 0xD800 ∨ 0xDFFF < n) : Escape ('u' :: digits) (Char.ofNat n)
  | pair {digits digits' : List Char} {high low : Nat} (spelled : FourDigits digits high)
    (spelled' : FourDigits digits' low) (first : 0xD800 ≤ high ∧ high ≤ 0xDBFF)
    (second : 0xDC00 ≤ low ∧ low ≤ 0xDFFF) :
    Escape ('u' :: (digits ++ '\\' :: 'u' :: digits'))
      (Char.ofNat ((high - 0xD800) * 0x400 + (low - 0xDC00) + 0x10000))

/-- What stands between the quotes of a string, and the string. -/
inductive Body : List Char → List Char → Prop where
  | nil : Body [] []
  | plain {c : Char} {body string : List Char} (quote : c ≠ '"') (backslash : c ≠ '\\')
    (printed : 0x20 ≤ c.toNat) (rest : Body body string) : Body (c :: body) (c :: string)
  | escape {behind : List Char} {c : Char} {body string : List Char} (escape : Escape behind c)
    (rest : Body body string) : Body ('\\' :: (behind ++ body)) (c :: string)

/-- The text of a number. -/
inductive Numeral : List Char → Number → Prop where
  | positive {text : List Char} {n : Number}
    (read : number false (Utf8.encode text) = .ok (n, [])) : Numeral text n
  | negative {text : List Char} {n : Number}
    (read : number true (Utf8.encode text) = .ok (n, [])) : Numeral ('-' :: text) n

/-- The words, with their values. -/
def words : List (List Char × Json) :=
  [("null".toList, .null), ("true".toList, .bool true), ("false".toList, .bool false)]

/-- The text of a value that holds no others. -/
inductive Scalar : List Char → Json → Prop where
  | word {text : List Char} {v : Json} (mem : (text, v) ∈ words) : Scalar text v
  | number {text : List Char} {n : Number} (numeral : Numeral text n) : Scalar text (.num n)
  | string {body : List Char} {s : String} (spelled : Body body s.toList) :
    Scalar ('"' :: body ++ ['"']) (.str s)

/-! ### Arrays and objects -/

section

variable {α : Type} (item : List Char → α → Prop)

/-- Items with commas between them and white space around each. -/
inductive Listed : List Char → List α → Prop where
  | one {before shown after : List Char} {a : α} (spaces : Spaces before) (spaces' : Spaces after)
    (spelled : item shown a) : Listed (before ++ shown ++ after) [a]
  | more {before shown after others : List Char} {a : α} {as : List α} (spaces : Spaces before)
    (spaces' : Spaces after) (spelled : item shown a) (rest : Listed others as) :
    Listed (before ++ shown ++ after ++ ',' :: others) (a :: as)

/-- Items between brackets, or white space where there is none. -/
inductive Enclosed (opening closing : Char) : List Char → List α → Prop where
  | empty {spaces : List Char} (blank : Spaces spaces) :
    Enclosed opening closing (opening :: spaces ++ [closing]) []
  | items {inner : List Char} {as : List α} (listed : Listed item inner as) :
    Enclosed opening closing (opening :: inner ++ [closing]) as

end

/-- A member of an object: its key, a colon and its value. -/
inductive Member (value : List Char → Json → Prop) : List Char → String × Json → Prop where
  | mk {body gap gap' shown : List Char} {key : String} {v : Json}
    (spelled : Body body key.toList) (spaces : Spaces gap) (spaces' : Spaces gap')
    (rest : value shown v) :
    Member value ('"' :: body ++ '"' :: gap ++ ':' :: gap' ++ shown) (key, v)

/-- The text of a value with arrays and objects nested `depth` deep at most. -/
def Spells : Nat → List Char → Json → Prop
  | 0, text, v => Scalar text v
  | depth + 1, text, v =>
    Scalar text v ∨ (∃ vs, Enclosed (Spells depth) '[' ']' text vs ∧ v = .arr vs) ∨
      ∃ ms, Enclosed (Member (Spells depth)) '\x7b' '\x7d' text ms ∧ v = object ms

/-- A text that holds one value, with white space around it. -/
inductive Document : List Char → Json → Prop where
  | mk {before shown after : List Char} {v : Json} (spaces : Spaces before)
    (spelled : Spells (depthLimit - 1) shown v) (spaces' : Spaces after) :
    Document (before ++ shown ++ after) v

/-- A text that holds an object, with its members as they are written. -/
inductive ObjectDocument : List Char → List (String × Json) → Prop where
  | mk {before shown after : List Char} {ms : List (String × Json)} (spaces : Spaces before)
    (enclosed : Enclosed (Member (Spells (depthLimit - 2))) '\x7b' '\x7d' shown ms)
    (spaces' : Spaces after) : ObjectDocument (before ++ shown ++ after) ms

end Deposit.Json
