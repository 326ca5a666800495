import Deposit.Text.Percent
import Deposit.Yaml.Scalar

/-!
The text of YAML values.

Mappings and sequences are written in blocks, indented by two. A text is written
plainly where it reads back as itself, as a literal block if it has several
lines, and in quotes otherwise. A key that has several lines, is long or is a
collection stands behind a question mark. A tag stands in front of its value, and a
block begins on the line behind its tag. A tag that stands directly on another one
cannot be written.
-/

namespace Deposit.Yaml

/-- Whether a character ends a line. -/
def isBreak (c : Char) : Bool :=
  let n := c.toNat
  n == 0x0A || n == 0x0D || n == 0x85 || n == 0x2028 || n == 0x2029

/-- Whether a character may stand as it is. -/
def isPrintable (c : Char) : Bool :=
  let n := c.toNat
  n == 0x0A || (0x20 ≤ n && n ≤ 0x7E) || (0xA0 ≤ n && n ≤ 0xD7FF) ||
    (0xE000 ≤ n && n ≤ 0xFFFD && n != 0xFEFF) || 0x10000 ≤ n

/-- Whether a character is a blank, a tab or ends a line. -/
def isSeparator (c : Char) : Bool := c == ' ' || c == '\t' || c.toNat == 0 || isBreak c

/-- Whether a text goes on with something else than a separator. -/
def continues : List Char → Bool
  | [] => false
  | c :: _ => !isSeparator c

/-! ### Which style a text may have -/

/-- Whether a first character, with those behind it, has a meaning of its own. -/
def isLeadingIndicator (c : Char) (rest : List Char) : Bool :=
  "#,[]\x7b\x7d&*!|>'\"%@\x60".toList.contains c ||
    ((c == '?' || c == ':' || c == '-') && !continues rest)

/-- Whether a mark of a mapping or a comment stands behind the first character;
`separated` tells whether a separator stands in front. -/
def hasInnerIndicator (separated : Bool) : List Char → Bool
  | [] => false
  | c :: rest =>
    (c == ':' && !continues rest) || (c == '#' && separated) ||
      hasInnerIndicator (isSeparator c) rest

/-- Whether a text has a mark that would not be read as part of it. -/
def hasIndicator (cs : List Char) : Bool :=
  match cs with
  | [] => false
  | c :: rest =>
    cs.take 3 == ['-', '-', '-'] || cs.take 3 == ['.', '.', '.'] ||
      isLeadingIndicator c rest || hasInnerIndicator (isSeparator c) rest

/-- Whether a character with the property `p` stands right before one with `q`. -/
def hasPair (p q : Char → Bool) : List Char → Bool
  | a :: b :: rest => (p a && q b) || hasPair p q (b :: rest)
  | _ => false

/-- Whether a character is a blank. -/
def isSpace (c : Char) : Bool := c == ' '

/-- Whether a blank or a line end stands at one of the ends. -/
def hasBlankEnd (cs : List Char) : Bool :=
  let blank (c : Option Char) := c.any fun c => isSpace c || isBreak c
  blank cs.head? || blank cs.getLast?

/-- Whether a text can only be written with escapes. -/
def needsEscapes (cs : List Char) : Bool :=
  cs.any (!isPrintable ·) || hasPair isSpace isBreak cs

/-- Whether a text may stand in a literal block. -/
def fitsLiteral (cs : List Char) : Bool :=
  !needsEscapes cs && cs.getLast? != some ' '

/-- Whether a text may stand without quotes. -/
def fitsPlain (cs : List Char) : Bool :=
  !needsEscapes cs && !cs.any isBreak && !hasBlankEnd cs && !hasIndicator cs

/-- Whether a text may stand in single quotes. -/
def fitsSingle (cs : List Char) : Bool := !needsEscapes cs && !hasPair isBreak isSpace cs

/-! ### Scalars -/

/-- A character of hexadecimal digits, upper case, of a width. -/
def hexDigits (width n : Nat) : List Char :=
  let digits := (Nat.toDigits 16 n).map Char.toUpper
  List.replicate (width - digits.length) '0' ++ digits

/-- The escape of a character. -/
def escaped (c : Char) : List Char :=
  let n := c.toNat
  '\\' ::
    if n == 0x00 then ['0'] else if n == 0x07 then ['a'] else if n == 0x08 then ['b']
    else if n == 0x09 then ['t'] else if n == 0x0A then ['n'] else if n == 0x0B then ['v']
    else if n == 0x0C then ['f'] else if n == 0x0D then ['r'] else if n == 0x1B then ['e']
    else if c == '"' || c == '\\' then [c]
    else if n == 0x85 then ['N'] else if n == 0x2028 then ['L'] else if n == 0x2029 then ['P']
    else if n ≤ 0xFF then 'x' :: hexDigits 2 n
    else if n ≤ 0xFFFF then 'u' :: hexDigits 4 n
    else 'U' :: hexDigits 8 n

/-- A text in double quotes. -/
def doubleQuoted (cs : List Char) : List Char :=
  '"' :: cs.flatMap (fun c =>
    if !isPrintable c || isBreak c || c == '"' || c == '\\' then escaped c else [c]) ++ ['"']

/-- The inside of single quotes: a quote is written twice, and a line begins with
the indentation. -/
def singleBody (indent : Nat) (atLine : Bool) : List Char → List Char
  | [] => if atLine then List.replicate indent ' ' else []
  | c :: rest =>
    if isBreak c then c :: singleBody indent true rest
    else
      (if atLine then List.replicate indent ' ' else []) ++
        (if c == '\'' then ['\'', '\''] else [c]) ++ singleBody indent false rest

/-- A text in single quotes. -/
def singleQuoted (indent : Nat) (cs : List Char) : List Char :=
  '\'' :: singleBody indent false cs ++ ['\'']

/-- The lines of a literal block, each with the indentation. -/
def literalBody (indent : Nat) (atLine : Bool) : List Char → List Char
  | [] => []
  | c :: rest =>
    if isBreak c then c :: literalBody indent true rest
    else (if atLine then List.replicate indent ' ' else []) ++ c :: literalBody indent false rest

/-- What is said about the line ends of a literal block: all count, or none. -/
def chomping (cs : List Char) : List Char :=
  match cs.reverse with
  | [] => ['-']
  | [c] => if isBreak c then ['+'] else ['-']
  | c :: d :: _ => if !isBreak c then ['-'] else if isBreak d then ['+'] else []

/-- A text as a literal block. -/
def literal (indent : Nat) (cs : List Char) : List Char :=
  let hint := if cs.head?.any fun c => isSpace c || isBreak c then ['2'] else []
  '|' :: hint ++ chomping cs ++ '\n' :: literalBody indent true cs

/-- A text, in the style that it may have; `indent` is that of its lines. -/
def textScalar (indent : Nat) (s : String) : List Char :=
  let cs := s.toList
  if cs.contains '\n' then
    if fitsLiteral cs then literal indent cs else doubleQuoted cs
  else if !looksTyped s && fitsPlain cs then cs
  else if fitsSingle cs then singleQuoted indent cs
  else doubleQuoted cs

/-- Fractions have positional notation for first digits from `10⁻⁵` to `10¹⁵`. -/
def floatStyle : Binary64.Style := ⟨some (-5, 15), true, ""⟩

/-- The text of a fraction. -/
def Float.text : Float → String
  | .finite x => x.text floatStyle
  | .infinite false => ".inf"
  | .infinite true => "-.inf"
  | .notANumber => ".nan"

/-- A tag with its mark in front. -/
def Tag.marked (tag : Tag) : List Char :=
  match tag.name.toList with
  | '!' :: rest => '!' :: rest
  | name => '!' :: name

/-- Whether a character stands for itself in a tag. -/
def isTagSign (c : Char) : Bool :=
  c.isAlphanum || "-_;/?:@&=+$,.~*'()[]".toList.contains c

/-- The text of a tag. A mark alone stands in brackets. -/
def Tag.written (tag : Tag) : List Char :=
  match tag.marked with
  | ['!'] => '!' :: '<' :: Percent.encode isTagSign ['!'] ++ ['>']
  | marked => '!' :: Percent.encode isTagSign (marked.drop 1)

/-- The text of a value that is no collection, and of an empty collection, with the tag
in front of it; `none` for the others. -/
def scalar? (indent : Nat) : Yaml → Option (List Char)
  | .null => some "null".toList
  | .bool true => some "true".toList
  | .bool false => some "false".toList
  | .int n => some (toString n).toList
  | .float x => some x.text.toList
  | .str s => some (textScalar indent s)
  | .seq [] => some ['[', ']']
  | .map [] => some ['\x7b', '\x7d']
  | .tagged tag value => (scalar? indent value).map (tag.written ++ ' ' :: ·)
  | _ => none

/-- The number of bytes of a key on one line, its tag included; `none` for a key that
takes several. Brackets and quotes do not count. -/
def keyLength? : Yaml → Option Nat
  | .str s => if s.toList.any isBreak then none else some s.utf8ByteSize
  | .seq [] => some 0
  | .map [] => some 0
  | .tagged tag value => (keyLength? value).map ((Utf8.encode tag.marked).length + ·)
  | key => (scalar? 0 key).map (·.length)

/-- Whether a key may stand in front of its colon: on one line, and short. -/
def isSimpleKey (key : Yaml) : Bool := (keyLength? key).any (· ≤ 128)

/-! ### Blocks -/

/-- Begins a line at an indentation: behind a line end, the indentation alone. -/
def beginLine (indent : Nat) (out : String) : String :=
  (if out.isEmpty || out.toList.getLast?.any isBreak then out else out ++ "\n").pushn ' ' indent

/-- Where a value stands. -/
structure Place where
  /-- Whether it is an item of a sequence. -/
  inSequence : Bool
  /-- Whether it stands behind a mark that its own text follows on the same line. -/
  marked : Bool
  deriving DecidableEq

mutual
/-- Writes a value of a collection that is indented by `indent`. -/
def write (indent : Nat) (place : Place) (value : Yaml) (out : String) : String :=
  match value with
  | .seq (item :: items) =>
    let deeper := place.inSequence || place.marked
    writeItems (if deeper then indent + 2 else indent) place.marked (item :: items) out
  | .map (entry :: entries) => writeEntries (indent + 2) place.marked (entry :: entries) out
  | .tagged tag value =>
    -- Behind a tag, nothing of a block follows on the same line.
    write indent { place with marked := false } value (out ++ " " ++ String.ofList tag.written)
  | value => out ++ " " ++ String.ofList ((scalar? (indent + 2) value).getD [])

/-- Writes the items of a sequence; `marked` tells whether the first one goes on
behind a mark. -/
def writeItems (indent : Nat) (marked : Bool) (items : List Yaml) (out : String) : String :=
  match items with
  | [] => out
  | item :: rest =>
    let out := if marked then out ++ " " else beginLine indent out
    writeItems indent false rest (write indent ⟨true, true⟩ item (out ++ "-"))

/-- Writes the entries of a mapping; `marked` tells whether the first one goes on
behind a mark. -/
def writeEntries (indent : Nat) (marked : Bool) (entries : List (Yaml × Yaml)) (out : String) :
    String :=
  match entries with
  | [] => out
  | (key, value) :: rest =>
    let out := if marked then out ++ " " else beginLine indent out
    let out :=
      if isSimpleKey key then
        write indent ⟨false, false⟩ value
          (out ++ String.ofList ((scalar? (indent + 2) key).getD []) ++ ":")
      else
        let out := beginLine indent (write indent ⟨false, true⟩ key (out ++ "?"))
        write indent ⟨false, true⟩ value (out ++ ":")
    writeEntries indent false rest out
end

/-! ### Documents -/

mutual
/-- Whether a tag stands directly on a tag anywhere in a value. -/
def nestsTags : Yaml → Bool
  | .seq items => itemsNestTags items
  | .map entries => entriesNestTags entries
  | .tagged _ (.tagged _ _) => true
  | .tagged _ value => nestsTags value
  | _ => false

/-- Whether a tag stands directly on a tag in one of the values. -/
def itemsNestTags : List Yaml → Bool
  | [] => false
  | value :: rest => nestsTags value || itemsNestTags rest

/-- Whether a tag stands directly on a tag in one of the entries. -/
def entriesNestTags : Mapping → Bool
  | [] => false
  | (key, value) :: rest => nestsTags key || nestsTags value || entriesNestTags rest
end

/-- Why a value has no text. -/
inductive Unwritable where
  /-- A tag stands directly on another one. -/
  | nestedTags
  deriving DecidableEq, Repr

/-- The wording of why a value has no text. -/
def Unwritable.message : Unwritable → String
  | .nestedTags => "serializing nested enums in YAML is not supported yet"

/-- The text of a document that holds a mapping. -/
def document (entries : Mapping) : Except Unwritable String :=
  if entriesNestTags entries then .error .nestedTags
  else
    match entries with
    | [] => .ok "\x7b\x7d\n"
    | entries => .ok (beginLine 0 (writeEntries 0 false entries ""))

end Deposit.Yaml
