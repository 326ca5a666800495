import Deposit.Text.Split
import Deposit.Xml.Unescape

/-!
Reading documents: bytes as a row of events.

Blanks around texts do not count, and a text of blanks alone is none. Tags have to
close in the order in which they opened, but a document may end while tags are
open. Reading stops at the first fault, and the events before it stand.
-/

namespace Deposit.Xml

/-- Why bytes are no document. -/
inductive Fault where
  | openTag
  | openComment
  | openCData
  | openInstruction
  | openDoctype
  | unknownMarkup
  | namelessDoctype
  /-- An end tag where no tag is open. -/
  | unmatchedEnd (name : String)
  /-- An end tag with another name than the tag that is open. -/
  | mismatchedEnd (expected found : String)
  deriving DecidableEq, Repr

/-- The wording of a fault. -/
def Fault.message : Fault → String
  | .openTag => "syntax error: tag not closed: `>` not found before end of input"
  | .openComment => "syntax error: comment not closed: `-->` not found before end of input"
  | .openCData => "syntax error: CDATA not closed: `]]>` not found before end of input"
  | .openInstruction =>
    "syntax error: processing instruction or xml declaration not closed: `?>` not found " ++
      "before end of input"
  | .openDoctype => "syntax error: DOCTYPE not closed: `>` not found before end of input"
  | .unknownMarkup => "syntax error: unknown or missed symbol in markup"
  | .namelessDoctype =>
    "ill-formed document: `<!DOCTYPE>` declaration does not contain a name of a document type"
  | .unmatchedEnd name =>
    "ill-formed document: close tag `</" ++ name ++ ">` does not match any open tag"
  | .mismatchedEnd expected found =>
    "ill-formed document: expected `</" ++ expected ++ ">`, but `</" ++ found ++ ">` was found"

/-- A piece of a document. -/
inductive Event where
  /-- A start tag: its name, and what follows the name. -/
  | start (name attributes : Bytes)
  /-- A tag that is closed at once. -/
  | empty (name attributes : Bytes)
  | text (content : Bytes)
  | close (name : Bytes)
  /-- A comment, an instruction, a declaration or a section of characters. -/
  | other
  deriving DecidableEq, Repr

/-- Whether a byte is a blank: space, tab or line end. -/
def isBlank (b : UInt8) : Bool := b == 0x20 || b == 0x09 || b == 0x0A || b == 0x0D

/-- The text of a name; empty if it is none. -/
def nameText (name : Bytes) : String :=
  match Utf8.decode name with
  | .ok cs => String.ofList cs
  | .error _ => ""

/-! ### The ends of markup -/

/-- Splits at the `>` of a tag; none inside quotes counts. -/
def atTagEnd? (quote : Option UInt8) : Bytes → Option (Bytes × Bytes)
  | [] => none
  | b :: rest =>
    match quote with
    | none =>
      if b == 0x3E then some ([], rest)
      else
        (atTagEnd? (if b == 0x22 || b == 0x27 then some b else none) rest).map
          fun (content, behind) => (b :: content, behind)
    | some q =>
      (atTagEnd? (if b == q then none else quote) rest).map
        fun (content, behind) => (b :: content, behind)

/-- Splits at the first `>` in front of which the bytes `before`, last byte first,
end in `last`, and are as many as `least`. -/
def atEnd? (last : Bytes) (least : Nat) (before : Bytes) : Bytes → Option (Bytes × Bytes)
  | [] => none
  | b :: rest =>
    if b == 0x3E && last.reverse.isPrefixOf before && least ≤ before.length then
      some (before.reverse, rest)
    else atEnd? last least (b :: before) rest

/-- Splits at the `>` that closes a declaration with `depth` tags open in it. -/
def atDoctypeEnd? (depth : Nat) : Bytes → Option (Bytes × Bytes)
  | [] => none
  | b :: rest =>
    if b == 0x3E && depth == 0 then some ([], rest)
    else
      let depth := if b == 0x3C then depth + 1 else if b == 0x3E then depth - 1 else depth
      (atDoctypeEnd? depth rest).map fun (content, behind) => (b :: content, behind)

/-! ### Events -/

/-- An event with the names of the tags that are open behind it, innermost first,
and the bytes that follow. -/
abbrev Step := Except Fault (Event × List Bytes × Bytes)

/-- Splits a tag into its name and what follows. -/
def tagName (content : Bytes) : Bytes × Bytes :=
  let name := content.takeWhile (!isBlank ·)
  (name, content.drop name.length)

/-- A start tag, from behind its `<`. -/
def readStart (opened : List Bytes) (s : Bytes) : Step :=
  match atTagEnd? none s with
  | none => .error .openTag
  | some (content, rest) =>
    if content.getLast? = some 0x2F then
      let (name, attributes) := tagName content.dropLast
      .ok (.empty name attributes, opened, rest)
    else
      let (name, attributes) := tagName content
      .ok (.start name attributes, name :: opened, rest)

/-- The bytes without the blanks at their end. -/
def trimEnd (s : Bytes) : Bytes := (s.reverse.dropWhile isBlank).reverse

/-- The name in an end tag: blanks behind it do not count, but blanks alone do. -/
def endName (content : Bytes) : Bytes :=
  if content.all isBlank then content else trimEnd content

/-- An end tag, from behind its `<`. -/
def readEnd (opened : List Bytes) (s : Bytes) : Step :=
  match atTagEnd? none s with
  | none => .error .openTag
  | some (content, rest) =>
    let name := endName (content.drop 1)
    match opened with
    | [] => .error (.unmatchedEnd (nameText name))
    | expected :: opened =>
      if name = expected then .ok (.close name, opened, rest)
      else .error (.mismatchedEnd (nameText expected) (nameText name))

/-- An instruction or a declaration of the version, from behind its `<`. -/
def readInstruction (opened : List Bytes) (s : Bytes) : Step :=
  match atEnd? [0x3F] 0 [] s with
  | none => .error .openInstruction
  | some (content, rest) =>
    if content.length ≤ 1 then .error .openInstruction else .ok (.other, opened, rest)

/-- A comment, a section of characters or a document type, from behind `<`. -/
def readBang (opened : List Bytes) (s : Bytes) : Step :=
  match s.drop 1 with
  | [] => .error .unknownMarkup
  | kind :: _ =>
    if kind == 0x5B then
      match atEnd? [0x5D, 0x5D] 0 [] s with
      | some (content, rest) =>
        if (Utf8.bytes "![CDATA[").isPrefixOf content then .ok (.other, opened, rest)
        else .error .openCData
      | none => .error .openCData
    else if kind == 0x2D then
      match atEnd? [0x2D, 0x2D] 5 [] s with
      | some (content, rest) =>
        if (Utf8.bytes "!--").isPrefixOf content then .ok (.other, opened, rest)
        else .error .openComment
      | none => .error .openComment
    else if kind == 0x44 || kind == 0x64 then
      match atDoctypeEnd? 0 s with
      | some (content, rest) =>
        let word := (content.take 8).map fun b => if 0x61 ≤ b && b ≤ 0x7A then b - 0x20 else b
        if word = Utf8.bytes "!DOCTYPE" then
          if (content.drop 8).all isBlank then .error .namelessDoctype
          else .ok (.other, opened, rest)
        else .error .openDoctype
      | none => .error .openDoctype
    else .error .unknownMarkup

/-- Markup, from behind its `<`. -/
def readMarkup (opened : List Bytes) (s : Bytes) : Step :=
  match s with
  | [] => .error .openTag
  | b :: _ =>
    if b == 0x21 then readBang opened s
    else if b == 0x2F then readEnd opened s
    else if b == 0x3F then readInstruction opened s
    else readStart opened s

/-- Reads events up to the end or the first fault. Each step takes a byte at
least, so as many steps as there are bytes suffice. -/
def eventsFrom : Nat → List Bytes → Bytes → List Event × Option Fault
  | 0, _, _ => ([], none)
  | fuel + 1, opened, s =>
    match s.dropWhile isBlank with
    | [] => ([], none)
    | b :: rest =>
      if b == 0x3C then
        match readMarkup opened rest with
        | .error fault => ([], some fault)
        | .ok (event, opened, rest) =>
          let (events, fault) := eventsFrom fuel opened rest
          (event :: events, fault)
      else
        let content := (b :: rest).takeWhile (· != 0x3C)
        let (events, fault) := eventsFrom fuel opened ((b :: rest).drop content.length)
        (.text (trimEnd content) :: events, fault)

/-- The events of a document, without a byte order mark, and the fault that ends
them if there is one. -/
def events (document : Bytes) : List Event × Option Fault :=
  let s := (Split.behind? [0xEF, 0xBB, 0xBF] document).getD document
  eventsFrom s.length [] s

/-! ### Contents -/

/-- Why a text or a value cannot be read. -/
inductive TextFault where
  | encoding (fault : Utf8.Fault)
  | escape (fault : EscapeFault)
  deriving DecidableEq, Repr

/-- The wording of a fault. -/
def TextFault.message : TextFault → String
  | .encoding fault => "Malformed UTF-8 input: " ++ fault.message
  | .escape fault => fault.message

/-- The text that escaped bytes stand for. -/
def readText (content : Bytes) : Except TextFault String :=
  match Utf8.decode content with
  | .error fault => .error (.encoding fault)
  | .ok cs =>
    match unescape cs with
    | .error fault => .error (.escape fault)
    | .ok text => .ok (String.ofList text)

/-- Reads an attribute in front of the rest: its name and raw value. A value
without quotes is passed over, and so is a name without a value. -/
def nextAttribute? (s : Bytes) : Option (Option (Bytes × Bytes) × Bytes) :=
  match s.dropWhile isBlank with
  | [] => none
  | s =>
    let name := s.takeWhile fun b => !(b == 0x3D || isBlank b)
    match (s.drop name.length).dropWhile isBlank with
    | [] => some (none, [])
    | b :: rest =>
      if b == 0x3D then
        match rest.dropWhile isBlank with
        | [] => some (none, [])
        | q :: rest =>
          if q == 0x22 || q == 0x27 then
            match Split.first? q rest with
            | some (value, rest) => some (some (name, value), rest)
            | none => some (none, [])
          else some (none, rest.dropWhile (!isBlank ·))
      else some (none, b :: rest)

/-- The attributes in a tag, behind its name; of several with one name the first
counts. Each takes a byte at least. -/
def attributesFrom : Nat → List Bytes → Bytes → List (Bytes × Bytes)
  | 0, _, _ => []
  | fuel + 1, seen, s =>
    match nextAttribute? s with
    | none => []
    | some (none, rest) => attributesFrom fuel seen rest
    | some (some (name, value), rest) =>
      if seen.contains name then attributesFrom fuel seen rest
      else (name, value) :: attributesFrom fuel (name :: seen) rest

/-- The attributes in a tag, behind its name. -/
def attributes (s : Bytes) : List (Bytes × Bytes) := attributesFrom s.length [] s

end Deposit.Xml
