/-!
White space, as the Unicode property White_Space has it, and trimming by it.

`trim` is what names, links and pids are cleaned with; `trimBy` is the same cut
for any class of characters, so that the four blanks of XML text share it.
-/

namespace Deposit.Blank

/-- The characters with the Unicode property White_Space. -/
def isBlank (c : Char) : Bool :=
  let n := c.toNat
  (0x09 ≤ n && n ≤ 0x0D) || n == 0x20 || n == 0x85 || n == 0xA0 || n == 0x1680 ||
    (0x2000 ≤ n && n ≤ 0x200A) || n == 0x2028 || n == 0x2029 || n == 0x202F ||
    n == 0x205F || n == 0x3000

/-- Drops the longest ends of `l` whose members satisfy `p`. -/
def trimBy {α : Type} (p : α → Bool) (l : List α) : List α :=
  ((l.dropWhile p).reverse.dropWhile p).reverse

/-- A string without the white space at its ends. -/
def trim (s : String) : String :=
  String.ofList (trimBy isBlank s.toList)

/-- Whether a string holds nothing but white space. -/
def isBlankText (s : String) : Bool := s.toList.all isBlank

/-- The trimmed string, or `none` when nothing is left of it. -/
def present? (s : String) : Option String :=
  let t := trim s
  if t.isEmpty then none else some t

/-- A string without the characters `c` at its end. -/
def dropTrailing (c : Char) (s : String) : String :=
  String.ofList (s.toList.reverse.dropWhile (· == c)).reverse

/-- A string without the characters `c` at its front. -/
def dropLeading (c : Char) (s : String) : String :=
  String.ofList (s.toList.dropWhile (· == c))

end Deposit.Blank
