import Deposit.Yaml.Printer

/-!
Reading YAML: one document of block and flow collections with plain, quoted and block
scalars, and with tags. Anchors, aliases, keys behind question marks and directives are not
known.

The indentation of a block is the column of its first character. Every step of the
reader takes a character or ends a collection, so a number of steps in proportion to
the length of the text is enough.
-/

namespace Deposit.Yaml

/-- Why a text is no document. -/
inductive Fault where
  /-- A character that no document may hold. -/
  | character (c : Char)
  /-- What stands here has no place here. -/
  | misplaced (found : Option Char)
  /-- A quote that is not closed. -/
  | unclosed
  /-- An escape that does not exist. -/
  | escape
  /-- A tag that is not well formed, or whose handle stands for nothing. -/
  | tag
  /-- A scalar that is not what its tag says, or an integer beyond 64 bits. -/
  | scalar
  /-- A key that is there already. -/
  | repeatedKey
  /-- A second document. -/
  | manyDocuments
  deriving DecidableEq, Repr

/-- A place in a text: what follows, and the number of characters before it on its
line. -/
structure Cursor where
  rest : List Char
  column : Nat
  deriving DecidableEq

namespace Cursor

/-- Moves over `n` characters of a line. -/
def skip (c : Cursor) (n : Nat) : Cursor := ⟨c.rest.drop n, c.column + n⟩

/-- The fault of finding what is there. -/
def misplaced (c : Cursor) : Fault := .misplaced c.rest.head?

/-- Whether a blank or the end comes next. -/
def atBlank (c : Cursor) : Bool :=
  match c.rest with
  | [] => true
  | x :: _ => x == ' ' || x == '\t' || x == '\n'

/-- Whether the line ends here. -/
def atLineEnd (c : Cursor) : Bool :=
  match c.rest with
  | [] => true
  | x :: _ => x == '\n'

/-- Whether a mark of a document stands here. -/
def atMarker (c : Cursor) : Bool :=
  c.column == 0 && (c.rest.take 3 == ['-', '-', '-'] || c.rest.take 3 == ['.', '.', '.']) &&
    (c.skip 3).atBlank

/-- Whether the document ends here. -/
def atEnd (c : Cursor) : Bool := c.rest.isEmpty || c.atMarker

/-- Whether a mark of one character stands here, with a blank behind it. -/
def atMark (c : Cursor) (mark : Char) : Bool :=
  c.rest.head? == some mark && (c.skip 1).atBlank

end Cursor

/-- Where blanks and comments are passed over. -/
inductive Span where
  /-- Up to the end of the line. -/
  | line
  /-- Over the ends of lines, in a block: tabs do not indent. -/
  | block
  /-- Over the ends of lines, in a flow collection. -/
  | flow
  deriving DecidableEq

/-- What passing over blanks has to know: whether a comment is open, whether one may
begin, and whether the line has held nothing but spaces so far. -/
structure Passing where
  comment : Bool
  separated : Bool
  indenting : Bool

/-- Passes over blanks and comments. A comment has to have a blank before it. -/
def passBlanks (span : Span) (state : Passing) (column : Nat) : List Char → Cursor
  | [] => ⟨[], column⟩
  | '\n' :: rest =>
    if span = .line then ⟨'\n' :: rest, column⟩ else passBlanks span ⟨false, true, true⟩ 0 rest
  | x :: rest =>
    if state.comment then passBlanks span state (column + 1) rest
    else if x == ' ' then passBlanks span ⟨false, true, state.indenting⟩ (column + 1) rest
    else if x == '\t' && !(state.indenting && span = .block) then
      passBlanks span ⟨false, true, state.indenting⟩ (column + 1) rest
    else if x == '#' && state.separated then passBlanks span ⟨true, true, false⟩ (column + 1) rest
    else ⟨x :: rest, column⟩

/-- The next content in a span. -/
def Cursor.next (c : Cursor) (span : Span) : Cursor :=
  passBlanks span ⟨false, c.column == 0, c.column == 0⟩ c.column c.rest

/-- The next content on this line or a later one, in a block. -/
def Cursor.content (c : Cursor) : Cursor := c.next .block

/-- The next content on this line or a later one, in a flow collection. -/
def Cursor.inFlow (c : Cursor) : Cursor := c.next .flow

/-- The next content on this line, or its end. -/
def Cursor.onLine (c : Cursor) : Cursor := c.next .line

/-- The blanks, spaces and tabs, in front of a text. -/
def dropSpaces (cs : List Char) : List Char := cs.dropWhile fun x => x == ' ' || x == '\t'

/-- A text without the spaces and tabs at its end. -/
def trimSpaces (cs : List Char) : List Char := (dropSpaces cs.reverse).reverse

/-! ### Lines that are folded -/

/-- Line ends and blanks in front of a text: their number, the column behind them, and
the rest. -/
def foldBreaks (breaks column : Nat) : List Char → Nat × Cursor
  | '\n' :: rest => foldBreaks (breaks + 1) 0 rest
  | ' ' :: rest => foldBreaks breaks (column + 1) rest
  | '\t' :: rest => foldBreaks breaks (column + 1) rest
  | rest => (breaks, ⟨rest, column⟩)

/-- What stands for a number of line ends: a space for one, and all but one of more. -/
def folded (breaks : Nat) : List Char :=
  if breaks ≤ 1 then [' '] else List.replicate (breaks - 1) '\n'

/-! ### Plain scalars -/

/-- Whether a character is a mark of flow collections. -/
def isFlowMark (c : Char) : Bool := c == ',' || c == '[' || c == ']' || c == '\x7b' || c == '\x7d'

/-- Whether a plain scalar ends before a text. -/
def endsPlain (flow separated : Bool) : List Char → Bool
  | [] => true
  | ':' :: rest =>
    match rest with
    | [] => true
    | x :: _ => x == ' ' || x == '\t' || x == '\n' || (flow && isFlowMark x)
  | x :: _ => x == '\n' || (x == '#' && separated) || (flow && isFlowMark x)

/-- The part of a plain scalar on one line, with the blanks behind it, and the rest. -/
def plainLine (flow separated : Bool) (cs : List Char) : List Char × List Char :=
  match cs with
  | [] => ([], [])
  | x :: rest =>
    if endsPlain flow separated cs then ([], cs)
    else
      let (line, rest) := plainLine flow (x == ' ' || x == '\t') rest
      (x :: line, rest)

/-- Whether a plain scalar can begin here. -/
def beginsPlain (c : Cursor) : Bool :=
  match c.rest with
  | [] => false
  | x :: _ =>
    if x == '-' || x == '?' || x == ':' then !(c.skip 1).atBlank
    else !isFlowMark x && !("#&*!|>'\"%@\x60\t".toList.contains x)

/-- A plain scalar. A later line belongs to it if it begins at the column `least` or
behind it. -/
def plain (flow : Bool) (least : Nat) : Nat → Cursor → List Char × Cursor
  | 0, c => ([], c)
  | fuel + 1, c =>
    let (line, rest) := plainLine flow false c.rest
    let text := trimSpaces line
    let behind := c.skip text.length
    let (breaks, next) := foldBreaks 0 c.column rest
    if breaks = 0 || next.atEnd || (!flow && next.column < least) ||
        endsPlain flow true next.rest then (text, behind)
    else
      let (more, last) := plain flow least fuel next
      (text ++ folded breaks ++ more, last)

/-! ### Quoted scalars -/

/-- A scalar in single quotes, from behind the first one. -/
def singleQuoted? : Nat → Cursor → Except Fault (List Char × Cursor)
  | 0, _ => .error .unclosed
  | fuel + 1, c =>
    match c.rest with
    | [] => .error .unclosed
    | '\'' :: '\'' :: _ => do
      let (text, last) ← singleQuoted? fuel (c.skip 2)
      .ok ('\'' :: text, last)
    | '\'' :: _ => .ok ([], c.skip 1)
    | x :: rest =>
      let (breaks, next) := foldBreaks 0 c.column (x :: rest)
      if breaks = 0 then do
        let (text, last) ← singleQuoted? fuel (c.skip 1)
        .ok (x :: text, last)
      else if next.atEnd then .error .unclosed
      else do
        let (text, last) ← singleQuoted? fuel next
        .ok (folded breaks ++ text, last)

/-- The number that hexadecimal digits stand for. -/
def hexNumber? (cs : List Char) : Option Nat :=
  cs.foldlM (fun n c => (Hex.value? c).map (16 * n + ·)) 0

/-- The character of an escape behind the backslash, and the length of the escape. -/
def unescaped? : List Char → Option (Char × Nat)
  | [] => none
  | x :: rest =>
    let coded (digits : Nat) : Option (Char × Nat) := do
      let code ← hexNumber? (rest.take digits)
      if rest.length < digits || !code.isValidChar then none
      else some (Char.ofNat code, digits + 1)
    match x with
    | '0' => some ('\x00', 1)
    | 'a' => some ('\x07', 1)
    | 'b' => some ('\x08', 1)
    | 't' => some ('\t', 1)
    | '\t' => some ('\t', 1)
    | 'n' => some ('\n', 1)
    | 'v' => some ('\x0b', 1)
    | 'f' => some ('\x0c', 1)
    | 'r' => some ('\r', 1)
    | 'e' => some ('\x1b', 1)
    | ' ' => some (' ', 1)
    | '"' => some ('"', 1)
    | '/' => some ('/', 1)
    | '\\' => some ('\\', 1)
    | 'N' => some ('\u0085', 1)
    | '_' => some ('\u00a0', 1)
    | 'L' => some ('\u2028', 1)
    | 'P' => some ('\u2029', 1)
    | 'x' => coded 2
    | 'u' => coded 4
    | 'U' => coded 8
    | _ => none

/-- A scalar in double quotes, from behind the first one. -/
def doubleQuoted? : Nat → Cursor → Except Fault (List Char × Cursor)
  | 0, _ => .error .unclosed
  | fuel + 1, c =>
    match c.rest with
    | [] => .error .unclosed
    | '"' :: _ => .ok ([], c.skip 1)
    | '\\' :: '\n' :: rest =>
      let (breaks, next) := foldBreaks 0 0 rest
      if next.atEnd then .error .unclosed
      else do
        let (text, last) ← doubleQuoted? fuel next
        .ok (List.replicate breaks '\n' ++ text, last)
    | '\\' :: rest =>
      match unescaped? rest with
      | none => .error .escape
      | some (x, length) => do
        let (text, last) ← doubleQuoted? fuel (c.skip (length + 1))
        .ok (x :: text, last)
    | x :: rest =>
      let (breaks, next) := foldBreaks 0 c.column (x :: rest)
      if breaks = 0 then do
        let (text, last) ← doubleQuoted? fuel (c.skip 1)
        .ok (x :: text, last)
      else if next.atEnd then .error .unclosed
      else do
        let (text, last) ← doubleQuoted? fuel next
        .ok (folded breaks ++ text, last)

/-! ### Block scalars -/

/-- How a block scalar is written: folded or not, what becomes of the line ends behind
it, and how far it is indented. -/
structure BlockHeader where
  fold : Bool
  /-- `-` drops them, `+` keeps them, and one is kept otherwise. -/
  chomping : Option Char
  indent : Option Nat
  deriving DecidableEq

/-- The signs behind the mark of a block scalar. -/
def blockHeader (header : BlockHeader) : Nat → Cursor → BlockHeader × Cursor
  | 0, c => (header, c)
  | fuel + 1, c =>
    match c.rest with
    | x :: _ =>
      if x == '+' || x == '-' then blockHeader { header with chomping := some x } fuel (c.skip 1)
      else if '1' ≤ x && x ≤ '9' then
        blockHeader { header with indent := some (x.toNat - 0x30) } fuel (c.skip 1)
      else (header, c)
    | [] => (header, c)

/-- The indentation of the first line that is not empty. -/
def firstIndent (column : Nat) : List Char → Nat
  | ' ' :: rest => firstIndent (column + 1) rest
  | '\n' :: rest => firstIndent 0 rest
  | _ => column

/-- The lines of a block scalar without their indentation, and what follows them. -/
def blockLines (indent : Nat) : Nat → List Char → List (List Char) × List Char
  | 0, cs => ([], cs)
  | fuel + 1, cs =>
    if cs.isEmpty then ([], [])
    else
      let line := cs.takeWhile (· != '\n')
      let next := cs.drop (line.length + 1)
      let spaces := (line.takeWhile (· == ' ')).length
      if spaces == line.length then
        let (lines, rest) := blockLines indent fuel next
        (line.drop indent :: lines, rest)
      else if spaces < indent || (indent == 0 && Cursor.atMarker ⟨cs, 0⟩) then ([], cs)
      else
        let (lines, rest) := blockLines indent fuel next
        (line.drop indent :: lines, rest)

/-- Whether a line of a folded scalar is kept as it is: one that begins with a blank. -/
def isIndentedLine (line : List Char) : Bool :=
  match line with
  | x :: _ => x == ' ' || x == '\t'
  | [] => false

/-- Joins the lines of a folded scalar: a line end between two lines becomes a space,
unless one of them is empty or indented. -/
def foldLines : List (List Char) → List Char
  | [] => []
  | [line] => line
  | line :: next :: rest =>
    let kept := isIndentedLine line || isIndentedLine next
    if line.isEmpty then '\n' :: foldLines (next :: rest)
    else if next.isEmpty then
      -- The line end before empty lines counts as one of them.
      line ++ (if rest.any (!·.isEmpty) && !kept then [] else ['\n']) ++ foldLines (next :: rest)
    else line ++ (if kept then ['\n'] else [' ']) ++ foldLines (next :: rest)

/-- A block scalar, from its mark on. -/
def blockScalar (least : Nat) (c : Cursor) : Except Fault (List Char × Cursor) :=
  let (header, behind) := blockHeader ⟨c.rest.head? == some '>', none, none⟩ 2 (c.skip 1)
  let behind := behind.onLine
  if !behind.atLineEnd then .error behind.misplaced
  else
    let body := behind.rest.drop 1
    let indent :=
      match header.indent with
      | some n => least - 1 + n
      | none => max (firstIndent 0 body) (max least 1)
    let (lines, rest) := blockLines indent (body.length + 1) body
    let content := (lines.reverse.dropWhile (·.isEmpty)).reverse
    let ends := List.replicate (lines.length - content.length) '\n'
    let text := if header.fold then foldLines content else ['\n'].intercalate content
    let tail :=
      match header.chomping with
      | some '-' => []
      | some _ => if content.isEmpty then ends else '\n' :: ends
      | none => if content.isEmpty then [] else ['\n']
    .ok (text ++ tail, ⟨rest, 0⟩)

/-! ### Tags -/

/-- Whether a character may stand in a handle. -/
def isHandleSign (c : Char) : Bool := c.isAlphanum || c == '-' || c == '_'

/-- Whether a character may stand in a tag, in brackets or not. -/
def isTagPart (bracketed : Bool) (c : Char) : Bool :=
  isHandleSign c || ";/?:@&=+$.%!~*'()".toList.contains c ||
    (bracketed && ",[]".toList.contains c)

/-- Whether two hexadecimal digits stand behind each percent sign. -/
def hasWholeEscapes : List Char → Bool
  | [] => true
  | '%' :: a :: b :: rest => (Hex.value? a).isSome && (Hex.value? b).isSome && hasWholeEscapes rest
  | c :: rest => c != '%' && hasWholeEscapes rest

/-- The text of a tag behind its handle, without escapes. -/
def tagText (cs : List Char) : Except Fault (List Char) :=
  if !hasWholeEscapes cs then .error .tag
  else (Utf8.decode (Percent.decode cs)).mapError fun _ => .tag

/-- What stands in front of the names of the kinds of scalars. -/
def kindPrefix : String := "tag:yaml.org,2002:"

/-- A tag, from its mark on, with what its handle stands for. -/
def readTag (flow : Bool) (c : Cursor) : Except Fault (String × Cursor) := do
  let (start, text, length) ←
    match c.rest.drop 1 with
    | '<' :: rest =>
      let text := rest.takeWhile (isTagPart true)
      if text.isEmpty || (rest.drop text.length).head? != some '>' then .error .tag
      else .ok ("", text, text.length + 3)
    | rest =>
      let word := rest.takeWhile isHandleSign
      match rest.drop word.length with
      | '!' :: rest =>
        -- No document names a handle of its own, so only the empty one stands for something.
        let text := rest.takeWhile (isTagPart false)
        if text.isEmpty || !word.isEmpty then .error .tag
        else .ok (kindPrefix, text, text.length + 2)
      | _ =>
        let text := rest.takeWhile (isTagPart false)
        .ok ("!", text, text.length + 1)
  let text ← tagText text
  let behind := c.skip length
  if behind.atBlank || (flow && behind.rest.head? == some ',') then
    .ok (start ++ String.ofList text, behind)
  else .error .tag

/-- The tag at a place, if there is one, and the next content on the line, in a flow collection
on a later line, too. -/
def tagInFront (flow : Bool) (c : Cursor) : Except Fault (Option String × Cursor) :=
  if c.rest.head? == some '!' then do
    let (tag, behind) ← readTag flow c
    .ok (some tag, if flow then behind.inFlow else behind.onLine)
  else .ok (none, c)

/-- The tag that a value has, if it is none of the kinds: it begins with a mark. -/
def ownTag? (text : String) : Option Tag :=
  match text.toList with
  | '!' :: c :: rest => some ⟨String.ofList (c :: rest), by simp⟩
  | ['!'] => some ⟨"!", by decide⟩
  | _ => none

/-- Whether an integer has 64 bits, signed or not. -/
def fitsWord : Int → Bool
  | .ofNat n => n < Nat.pow 2 64
  | .negSucc n => n < Nat.pow 2 63

/-- A value, if it is no integer beyond 64 bits. -/
def bounded : Yaml → Except Fault Yaml
  | .int n => if fitsWord n then .ok (.int n) else .error .scalar
  | value => .ok value

/-- The value of a scalar without a tag. -/
def untagged (plain : Bool) (text : String) : Except Fault Yaml :=
  if plain then bounded (resolve text) else .ok (.str text)

/-- The value of a scalar of a kind; a text, if the kind is none of the others. -/
def ofKind (kind text : String) : Except Fault Yaml :=
  let value? : Option Yaml :=
    if kind == kindPrefix ++ "bool" then (bool? text).map .bool
    else if kind == kindPrefix ++ "int" then (integer? text.toList).map .int
    else if kind == kindPrefix ++ "float" then (float? text).map .float
    else if kind == kindPrefix ++ "null" then if isNull text then some .null else none
    else some (.str text)
  match value? with
  | some value => bounded value
  | none => .error .scalar

/-- The value of a scalar behind a tag. -/
def scalarValue (tag : Option String) (plain : Bool) (text : String) : Except Fault Yaml :=
  match tag with
  | none => untagged plain text
  | some name =>
    match ownTag? name with
    | some tag => (untagged plain text).map (.tagged tag)
    | none => ofKind name text

/-- The value of a collection behind a tag. -/
def collectionValue (tag : Option String) (value : Yaml) : Yaml :=
  match tag.bind ownTag? with
  | some tag => .tagged tag value
  | none => value

/-! ### Nodes -/

/-- Puts an entry into a mapping that does not have its key. -/
def addEntry (entries : Mapping) (key value : Yaml) : Except Fault Mapping :=
  if entries.any fun (k, _) => k.same key then .error .repeatedKey
  else .ok (entries ++ [(key, value)])

mutual
/-- A flow collection, a quoted scalar or a plain one, behind a tag. -/
def atom (flow : Bool) (least : Nat) (tag : Option String) :
    Nat → Cursor → Except Fault (Yaml × Cursor)
  | 0, c => .error c.misplaced
  | fuel + 1, c =>
    match c.rest with
    | '[' :: _ => do
      let (value, last) ← flowItems fuel [] (c.skip 1)
      .ok (collectionValue tag value, last)
    | '\x7b' :: _ => do
      let (value, last) ← flowEntries fuel [] (c.skip 1)
      .ok (collectionValue tag value, last)
    | '\'' :: rest => do
      let (text, last) ← singleQuoted? (rest.length + 1) (c.skip 1)
      .ok (← scalarValue tag false (String.ofList text), last)
    | '"' :: rest => do
      let (text, last) ← doubleQuoted? (rest.length + 1) (c.skip 1)
      .ok (← scalarValue tag false (String.ofList text), last)
    | rest =>
      if beginsPlain c then do
        let (text, last) := plain flow least (rest.length + 1) c
        .ok (← scalarValue tag true (String.ofList text), last)
      else .error c.misplaced

/-- A node in a flow collection; nothing at all stands for null. -/
def flowNode : Nat → Cursor → Except Fault (Yaml × Cursor)
  | 0, c => .error c.misplaced
  | fuel + 1, c => do
    let (tag, c) ← tagInFront true c
    let ends :=
      match c.rest with
      | ',' :: _ => true
      | ']' :: _ => true
      | '\x7d' :: _ => true
      | ':' :: rest => endsPlain true false (':' :: rest)
      | _ => false
    if ends then .ok (← scalarValue tag true "", c) else atom true 0 tag fuel c

/-- The items of a flow sequence up to its end. An item may be a single entry. -/
def flowItems : Nat → List Yaml → Cursor → Except Fault (Yaml × Cursor)
  | 0, _, c => .error c.misplaced
  | fuel + 1, items, c =>
    let c := c.inFlow
    match c.rest with
    | ']' :: _ => .ok (.seq items, c.skip 1)
    | ',' :: _ => .error c.misplaced
    | _ => do
      let (item, behind) ← flowNode fuel c
      let behind := behind.inFlow
      let (item, behind) ←
        match behind.rest with
        | ':' :: _ => do
          let (value, last) ← flowNode fuel (behind.skip 1).inFlow
          .ok (.map [(item, value)], last.inFlow)
        | _ => .ok (item, behind)
      match behind.rest with
      | ',' :: _ => flowItems fuel (items ++ [item]) (behind.skip 1)
      | ']' :: _ => .ok (.seq (items ++ [item]), behind.skip 1)
      | _ => .error behind.misplaced

/-- The entries of a flow mapping up to its end. -/
def flowEntries : Nat → Mapping → Cursor → Except Fault (Yaml × Cursor)
  | 0, _, c => .error c.misplaced
  | fuel + 1, entries, c =>
    let c := c.inFlow
    match c.rest with
    | '\x7d' :: _ => .ok (.map entries, c.skip 1)
    | ',' :: _ => .error c.misplaced
    | _ => do
      let (key, behind) ← flowNode fuel c
      let behind := behind.inFlow
      let (value, behind) ←
        match behind.rest with
        | ':' :: _ => do
          let (value, last) ← flowNode fuel (behind.skip 1).inFlow
          .ok (value, last.inFlow)
        | _ => .ok (.null, behind)
      let entries ← addEntry entries key value
      match behind.rest with
      | ',' :: _ => flowEntries fuel entries (behind.skip 1)
      | '\x7d' :: _ => .ok (.map entries, behind.skip 1)
      | _ => .error behind.misplaced
end

/-- A key with its colon: the key, and the place behind the colon. Nothing at all behind a tag
is a key, too. -/
def key? (c : Cursor) : Option (Yaml × Cursor) :=
  let found : Except Fault (Yaml × Cursor) := do
    let (tag, start) ← tagInFront false c
    if tag.isSome && start.atMark ':' then .ok (← scalarValue tag true "", start)
    else if beginsPlain start then
      let (line, rest) := plainLine false false start.rest
      let key ← scalarValue tag true (String.ofList (trimSpaces line))
      .ok (key, ⟨rest, start.column + line.length⟩)
    else atom false 0 tag (4 * start.rest.length + 4) start
  match found with
  | .error _ => none
  | .ok (key, behind) =>
    let behind := behind.onLine
    if behind.atMark ':' then some (key, behind.skip 1) else none

/-- A scalar or a flow collection behind a tag, up to the end of its line. -/
def wholeLine (least : Nat) (tag : Option String) (c : Cursor) : Except Fault (Yaml × Cursor) :=
  match c.rest with
  | x :: _ =>
    if x == '|' || x == '>' then do
      let (text, last) ← blockScalar least c
      .ok (← scalarValue tag false (String.ofList text), last)
    else do
      let (value, behind) ← atom false least tag (4 * c.rest.length + 4) c
      let behind := behind.onLine
      if behind.atLineEnd then .ok (value, behind) else .error behind.misplaced
  | [] => .error c.misplaced

/-- The columns at which a node of a block may begin, at the earliest. -/
structure Margin where
  /-- For a sequence. -/
  items : Nat
  /-- For any other node. -/
  least : Nat
  deriving DecidableEq

mutual
/-- A node of a block behind a tag, or with its own; nothing at all stands for null. -/
def block (margin : Margin) (tag : Option String) : Nat → Cursor → Except Fault (Yaml × Cursor)
  | 0, c => .error c.misplaced
  | fuel + 1, c =>
    if c.atEnd then do .ok (← scalarValue tag true "", c)
    else if margin.items ≤ c.column && c.atMark '-' then do
      let (value, last) ← blockItems c.column fuel [] c
      .ok (collectionValue tag value, last)
    else if c.column < margin.least then do .ok (← scalarValue tag true "", c)
    else if c.atMark '?' then .error c.misplaced
    else
      match key? c with
      | some _ => do
        let (value, last) ← blockEntries c.column fuel [] c
        .ok (collectionValue tag value, last)
      | none => do
        let (own, start) ← tagInFront false c
        if tag.isSome && own.isSome then .error c.misplaced
        else behindTag margin (tag.or own) fuel start

/-- The node of a block behind its tag: on the same line, or on the lines behind it. -/
def behindTag (margin : Margin) (tag : Option String) :
    Nat → Cursor → Except Fault (Yaml × Cursor)
  | 0, c => .error c.misplaced
  | fuel + 1, c =>
    if c.atLineEnd then block margin tag fuel c.content
    else if c.atMark '-' || c.atMark '?' then .error c.misplaced
    else wholeLine margin.least tag c

/-- The items of a block sequence at a column. -/
def blockItems (column : Nat) : Nat → List Yaml → Cursor → Except Fault (Yaml × Cursor)
  | 0, _, c => .error c.misplaced
  | fuel + 1, items, c => do
    let behind := (c.skip 1).onLine
    let start := if behind.atLineEnd then behind.content else behind
    let (item, behind) ← block ⟨column + 1, column + 1⟩ none fuel start
    let next := behind.content
    if !next.atEnd && next.column > column then .error next.misplaced
    else if !next.atEnd && next.column == column && next.atMark '-' then
      blockItems column fuel (items ++ [item]) next
    else .ok (.seq (items ++ [item]), next)

/-- The entries of a block mapping at a column. The value of an entry stands on the line of its
key, or on the lines behind it, where a sequence may begin at the column of the key. -/
def blockEntries (column : Nat) : Nat → Mapping → Cursor → Except Fault (Yaml × Cursor)
  | 0, _, c => .error c.misplaced
  | fuel + 1, entries, c =>
    match key? c with
    | none => .error c.misplaced
    | some (key, behind) => do
      let (tag, start) ← tagInFront false behind.onLine
      let (value, behind) ← behindTag ⟨column, column + 1⟩ tag fuel start
      let entries ← addEntry entries key value
      let next := behind.content
      if next.atEnd || next.column < column then .ok (.map entries, next)
      else if next.column == column then blockEntries column fuel entries next
      else .error next.misplaced
end

/-! ### Documents -/

/-- A text with every line end as one character. -/
def unixLines : List Char → List Char
  | '\r' :: '\n' :: rest => '\n' :: unixLines rest
  | '\r' :: rest => '\n' :: unixLines rest
  | c :: rest => c :: unixLines rest
  | [] => []

/-- Whether a document may hold a character. -/
def isReadable (c : Char) : Bool := c == '\t' || c == '\n' || isPrintable c

/-- The start of a document, behind the mark for it if there is one. -/
def documentStart (c : Cursor) : Cursor :=
  if c.atMarker && c.rest.head? == some '-' then (c.skip 3).content else c

/-- The end of a document: nothing but a mark follows. -/
def documentEnd (c : Cursor) : Except Fault Unit :=
  if c.rest.isEmpty then .ok ()
  else if c.atMarker then
    if c.rest.head? == some '.' && (c.skip 3).content.rest.isEmpty then .ok ()
    else .error .manyDocuments
  else .error c.misplaced

/-- The value of a document; an empty one is null. -/
def parse (text : String) : Except Fault Yaml := do
  let cs := unixLines ((Split.behind? ['\uFEFF'] text.toList).getD text.toList)
  match cs.find? (!isReadable ·) with
  | some c => .error (.character c)
  | none =>
    let start := documentStart (Cursor.content ⟨cs, 0⟩)
    let (value, last) ← block ⟨0, 0⟩ none (4 * cs.length + 4) start
    documentEnd last.content
    .ok value

end Deposit.Yaml
