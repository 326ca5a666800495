import Deposit.Proofs.Xml.Values

/-!
The markup of a document, told apart from the texts and values that stand in it.

A document is read into pieces, each a tag with the raw bytes in front of it (`pieces?`).
Reading is strict: there are none if a tag is not closed in its place, if something that is no
attribute stands in a tag, or if bytes are left behind the last tag. The tags of the pieces
are the markup; what stands in front of the tags and in the values is the content
(`contentsFrom`).

* `pieces?_documentBytes`: a document of an element has the pieces of the element.
* `map_tag_pieces`: its markup is that of the element, which has no texts and no values.
* `contentsFrom_pieces`: its content is the texts and the values of the element, escaped, each
  in its place, and nothing but blanks elsewhere.
* `isNested_tags`, `openedIn_all`: the markup of elements is nested, and the names that open
  inside of an element are those of its children.
* `document_pieces`: the three together, for a document.
-/

namespace Deposit.Xml

/-! ### Tags and pieces -/

/-- A tag with the names of its attributes. -/
inductive Tag (α : Type) where
  | opening (name : α) (keys : List α)
  /-- A tag that is closed at once. -/
  | closed (name : α) (keys : List α)
  | closing (name : α)
  /-- A comment, an instruction, a declaration or a section of characters. -/
  | other
  deriving DecidableEq, Repr

/-- A tag with other names. -/
def Tag.map {α β : Type} (f : α → β) : Tag α → Tag β
  | .opening name keys => .opening (f name) (keys.map f)
  | .closed name keys => .closed (f name) (keys.map f)
  | .closing name => .closing (f name)
  | .other => .other

/-- Tags as they stand in a document. -/
def written (tags : List (Tag String)) : List (Tag Bytes) := tags.map (Tag.map Utf8.bytes)

@[simp] theorem written_nil : written [] = [] := rfl

@[simp] theorem written_cons (tag : Tag String) (tags : List (Tag String)) :
    written (tag :: tags) = tag.map Utf8.bytes :: written tags := rfl

@[simp] theorem written_append (tags others : List (Tag String)) :
    written (tags ++ others) = written tags ++ written others :=
  List.map_append

/-- A tag of a document with the raw bytes in front of it and the raw values in it, one for
each of its attributes. -/
structure Piece where
  before : Bytes
  tag : Tag Bytes
  values : List Bytes
  deriving DecidableEq, Repr

/-- The attributes in a tag, unless something else stands there. -/
def strictFrom? : Nat → Bytes → Option (List (Bytes × Bytes))
  | 0, _ => none
  | fuel + 1, s =>
    match nextAttribute? s with
    | none => some []
    | some (none, _) => none
    | some (some a, rest) => (strictFrom? fuel rest).map (a :: ·)

/-- The piece of an event behind some bytes. -/
def pieceOf? (before : Bytes) : Event → Option Piece
  | .start name content => (strictFrom? (content.length + 1) content).map fun attributes =>
      ⟨before, .opening name (attributes.map (·.1)), attributes.map (·.2)⟩
  | .empty name content => (strictFrom? (content.length + 1) content).map fun attributes =>
      ⟨before, .closed name (attributes.map (·.1)), attributes.map (·.2)⟩
  | .close name => some ⟨before, .closing name, []⟩
  | .other => some ⟨before, .other, []⟩
  | .text _ => none

/-- Reads pieces up to the end of the document, where no tag may be open. -/
def piecesFrom? : Nat → List Bytes → Bytes → Option (List Piece)
  | 0, _, _ => none
  | fuel + 1, opened, s =>
    let before := s.takeWhile (· != 0x3C)
    match s.drop before.length with
    | [] => if before.isEmpty && opened.isEmpty then some [] else none
    | _ :: inside =>
      match readMarkup opened inside with
      | .error _ => none
      | .ok (event, opened, rest) =>
        match pieceOf? before event with
        | none => none
        | some piece => (piecesFrom? fuel opened rest).map (piece :: ·)

/-- The pieces of a document. Each takes a byte at least. -/
def pieces? (document : Bytes) : Option (List Piece) :=
  piecesFrom? (document.length + 1) [] document

/-! ### Views of pieces -/

/-- Where raw bytes stand in a document. -/
inductive Place (α : Type) where
  /-- Between the start and the end of an element. -/
  | text (element : α)
  | value (element key : α)
  /-- Between other tags, where only blanks belong. -/
  | stray
  deriving DecidableEq, Repr

/-- A place with other names. -/
def Place.map {α β : Type} (f : α → β) : Place α → Place β
  | .text element => .text (f element)
  | .value element key => .value (f element) (f key)
  | .stray => .stray

/-- Bytes between tags that neither open nor close the same element, unless they are blank. -/
def strays (before : Bytes) : List (Place Bytes × Bytes) :=
  if before.all isBlank then [] else [(.stray, before)]

/-- The values in the tag of an element. -/
def valuesOf (element : Bytes) (keys values : List Bytes) : List (Place Bytes × Bytes) :=
  keys.zipWith (fun key value => (.value element key, value)) values

/-- What pieces hold, in the order of the document; the element is given that the tag in front
of them opened, if it did. -/
def contentsFrom (opened : Option Bytes) : List Piece → List (Place Bytes × Bytes)
  | [] => []
  | ⟨before, .opening name keys, values⟩ :: rest =>
    strays before ++ valuesOf name keys values ++ contentsFrom (some name) rest
  | ⟨before, .closed name keys, values⟩ :: rest =>
    strays before ++ valuesOf name keys values ++ contentsFrom none rest
  | ⟨before, .closing _, _⟩ :: rest =>
    (match opened with
      | some name => [(.text name, before)]
      | none => strays before) ++ contentsFrom none rest
  | ⟨before, .other, _⟩ :: rest => strays before ++ contentsFrom none rest

section Nesting

variable {α : Type} [DecidableEq α]

/-- Whether tags close in the opposite order to that in which they open, and all of them do;
`opened` are the names that are open in front of them, innermost first. -/
def isNested (opened : List α) : List (Tag α) → Bool
  | [] => opened.isEmpty
  | .opening name _ :: rest => isNested (name :: opened) rest
  | .closing name :: rest =>
    match opened with
    | [] => false
    | expected :: outer => expected == name && isNested outer rest
  | .closed .. :: rest => isNested opened rest
  | .other :: rest => isNested opened rest

/-- The names of the tags that open where just the tags of a path are open, innermost
first. -/
def openedIn (path opened : List α) : List (Tag α) → List α
  | [] => []
  | .opening name _ :: rest =>
    (if opened = path then [name] else []) ++ openedIn path (name :: opened) rest
  | .closed name _ :: rest =>
    (if opened = path then [name] else []) ++ openedIn path opened rest
  | .closing _ :: rest => openedIn path opened.tail rest
  | .other :: rest => openedIn path opened rest

end Nesting

/-! ### Views of elements -/

/-- The names of some attributes. -/
def keysOf (attributes : List Attribute) : List String := attributes.map (·.name)

mutual
/-- The markup of an element. -/
def Element.tags : Element → List (Tag String)
  | .leaf name attributes _ => [.opening name (keysOf attributes), .closing name]
  | .node name attributes children =>
    .opening name (keysOf attributes) :: (tagsOfAll children ++ [.closing name])
  | .empty name attributes => [.closed name (keysOf attributes)]

/-- The markup of elements, one after the other. -/
def tagsOfAll : List Element → List (Tag String)
  | [] => []
  | e :: rest => e.tags ++ tagsOfAll rest
end

theorem tagsOfAll_append (elements others : List Element) :
    tagsOfAll (elements ++ others) = tagsOfAll elements ++ tagsOfAll others := by
  induction elements with
  | nil => rfl
  | cons e rest ih => rw [List.cons_append, tagsOfAll, tagsOfAll, ih, List.append_assoc]

/-- The piece of a tag with attributes. -/
def pieceWith (before : Bytes) (tag : Tag String) (attributes : List Attribute) : Piece :=
  ⟨before, tag.map Utf8.bytes, attributes.map (valueBytes ·.value)⟩

mutual
/-- The pieces of an element at a depth. -/
def Element.pieces (depth : Nat) : Element → List Piece
  | .leaf name attributes text =>
    [pieceWith (Utf8.encode (newLine depth)) (.opening name (keysOf attributes)) attributes,
     pieceWith (valueBytes text) (.closing name) []]
  | .node name attributes children =>
    pieceWith (Utf8.encode (newLine depth)) (.opening name (keysOf attributes)) attributes ::
      (piecesOfAll (depth + 1) children ++
        [pieceWith (Utf8.encode (newLine depth)) (.closing name) []])
  | .empty name attributes =>
    [pieceWith (Utf8.encode (newLine depth)) (.closed name (keysOf attributes)) attributes]

/-- The pieces of elements at a depth, one after the other. -/
def piecesOfAll (depth : Nat) : List Element → List Piece
  | [] => []
  | e :: rest => e.pieces depth ++ piecesOfAll depth rest
end

/-- Raw values in their places in the tag of an element. -/
def valuesWith (element : String) (attributes : List Attribute) :
    List (Place String × Bytes) :=
  attributes.map fun a => (.value element a.name, valueBytes a.value)

mutual
/-- What an element at a depth holds; a node without elements holds the start of a line. -/
def Element.contents (depth : Nat) : Element → List (Place String × Bytes)
  | .leaf name attributes text => valuesWith name attributes ++ [(.text name, valueBytes text)]
  | .node name attributes children =>
    valuesWith name attributes ++
      ((if children.isEmpty then [(.text name, Utf8.encode (newLine depth))] else []) ++
        contentsOfAll (depth + 1) children)
  | .empty name attributes => valuesWith name attributes

/-- What elements at a depth hold. -/
def contentsOfAll (depth : Nat) : List Element → List (Place String × Bytes)
  | [] => []
  | e :: rest => e.contents depth ++ contentsOfAll depth rest
end

theorem contentsOfAll_append (depth : Nat) (elements others : List Element) :
    contentsOfAll depth (elements ++ others) =
      contentsOfAll depth elements ++ contentsOfAll depth others := by
  induction elements with
  | nil => rfl
  | cons e rest ih => rw [List.cons_append, contentsOfAll, contentsOfAll, ih, List.append_assoc]

/-! ### Reading attributes -/

/-- Whether the names in a tag can stand there, and in front of values. -/
def Tag.isWritable : Tag String → Bool
  | .opening name keys => isPlainName name && keys.all isKey
  | .closed name keys => isPlainName name && keys.all isKey
  | .closing name => isPlainName name
  | .other => true

theorem plain_of_keys {attributes : List Attribute}
    (keys : (keysOf attributes).all isKey = true) :
    attributes.all (isPlainName ·.name) = true := by
  refine List.all_eq_true.mpr fun a mem => ?_
  have key := List.all_eq_true.mp keys a.name (List.mem_map_of_mem mem)
  exact (Bool.and_eq_true_iff.mp key).1

mutual
/-- The names in markup that can be written are plain. -/
theorem isPlain_of_writable (e : Element) (writable : e.tags.all Tag.isWritable = true) :
    e.isPlain = true := by
  match e with
  | .leaf name attributes text =>
      obtain ⟨first, -⟩ := Bool.and_eq_true_iff.mp writable
      obtain ⟨plain, keys⟩ := Bool.and_eq_true_iff.mp first
      simp [Element.isPlain, plain, plain_of_keys keys]
  | .node name attributes children =>
      obtain ⟨first, inside⟩ := Bool.and_eq_true_iff.mp writable
      obtain ⟨plain, keys⟩ := Bool.and_eq_true_iff.mp first
      rw [List.all_append] at inside
      have inside := isPlainAll_of_writable children (Bool.and_eq_true_iff.mp inside).1
      simp [Element.isPlain, plain, plain_of_keys keys, inside]
  | .empty name attributes =>
      obtain ⟨first, -⟩ := Bool.and_eq_true_iff.mp writable
      obtain ⟨plain, keys⟩ := Bool.and_eq_true_iff.mp first
      simp [Element.isPlain, plain, plain_of_keys keys]

theorem isPlainAll_of_writable (elements : List Element)
    (writable : (tagsOfAll elements).all Tag.isWritable = true) : isPlainAll elements = true := by
  match elements with
  | [] => rfl
  | e :: others =>
      rw [tagsOfAll, List.all_append] at writable
      obtain ⟨here, there⟩ := Bool.and_eq_true_iff.mp writable
      simp [isPlainAll, isPlain_of_writable e here, isPlainAll_of_writable others there]
end

theorem strictFrom?_attributeBytes {attributes : List Attribute}
    (keys : (keysOf attributes).all isKey = true) (fuel : Nat) :
    strictFrom? (fuel + attributes.length + 1) (attributeBytes attributes) =
      some (attributes.map fun a => (Utf8.bytes a.name, valueBytes a.value)) := by
  induction attributes with
  | nil => rfl
  | cons a rest ih =>
      obtain ⟨key, keys⟩ := Bool.and_eq_true_iff.mp keys
      rw [List.length_cons, strictFrom?, nextAttribute?_cons key]
      simp only
      rw [← Nat.add_assoc, ih keys]
      rfl

/-- The attributes of a tag are read as they were written, whatever their values are. -/
theorem strict_attributeBytes {attributes : List Attribute}
    (keys : (keysOf attributes).all isKey = true) :
    strictFrom? ((attributeBytes attributes).length + 1) (attributeBytes attributes) =
      some (attributes.map fun a => (Utf8.bytes a.name, valueBytes a.value)) := by
  obtain ⟨fuel, enough⟩ := Nat.exists_eq_add_of_le' (length_le_attributeBytes attributes)
  rw [enough]
  exact strictFrom?_attributeBytes keys fuel

theorem pieceOf?_start (before : Bytes) (name : String) {attributes : List Attribute}
    (keys : (keysOf attributes).all isKey = true) :
    pieceOf? before (.start (Utf8.bytes name) (attributeBytes attributes)) =
      some (pieceWith before (.opening name (keysOf attributes)) attributes) := by
  simp [pieceOf?, strict_attributeBytes keys, pieceWith, Tag.map, keysOf]

theorem pieceOf?_empty (before : Bytes) (name : String) {attributes : List Attribute}
    (keys : (keysOf attributes).all isKey = true) :
    pieceOf? before (.empty (Utf8.bytes name) (attributeBytes attributes)) =
      some (pieceWith before (.closed name (keysOf attributes)) attributes) := by
  simp [pieceOf?, strict_attributeBytes keys, pieceWith, Tag.map, keysOf]

/-! ### Reading pieces -/

/-- Markup behind bytes that are none is one piece. -/
theorem piecesFrom?_markup {before s rest : Bytes} {opened opened' : List Bytes}
    {event : Event} {piece : Piece} (plain : ∀ b ∈ before, b ≠ 0x3C)
    (read : readMarkup opened s = .ok (event, opened', rest))
    (made : pieceOf? before event = some piece) (fuel : Nat) :
    piecesFrom? (fuel + 1) opened (before ++ 0x3C :: s) =
      (piecesFrom? fuel opened' rest).map (piece :: ·) := by
  have taken : (before ++ 0x3C :: s).takeWhile (· != 0x3C) = before := by
    rw [List.takeWhile_append_of_pos fun b mem => by simp [plain b mem]]
    simp
  rw [piecesFrom?]
  simp only [taken, List.drop_left, read, made]

theorem newLine_plain (depth : Nat) : ∀ b ∈ Utf8.encode (newLine depth), b ≠ 0x3C := by
  rintro b mem rfl
  exact absurd (newLine_blank depth _ mem) (by decide)

theorem value_plain (value : String) : ∀ b ∈ valueBytes value, b ≠ 0x3C :=
  fun b mem => (escape_bytes value.toList b mem).1

mutual
/-- The lines of an element are read as its pieces. -/
theorem piecesFrom?_element (e : Element) (writable : e.tags.all Tag.isWritable = true)
    (depth : Nat) (opened : List Bytes) (rest : Bytes) (fuel : Nat) :
    piecesFrom? (fuel + (e.pieces depth).length) opened (Utf8.encode (e.render depth) ++ rest) =
      (piecesFrom? fuel opened rest).map (e.pieces depth ++ ·) := by
  match e with
  | .leaf name attributes text =>
      obtain ⟨first, -⟩ := Bool.and_eq_true_iff.mp writable
      obtain ⟨plain, keys⟩ := Bool.and_eq_true_iff.mp first
      have start := readMarkup_start plain (plain_of_keys keys) opened
      rw [encode_leaf, ← valueBytes, Element.pieces, List.length_cons, List.length_singleton,
        ← Nat.add_assoc,
        piecesFrom?_markup (newLine_plain depth) (start _) (pieceOf?_start _ name keys),
        piecesFrom?_markup (value_plain text) (readMarkup_end plain opened rest) rfl,
        Option.map_map]
      rfl
  | .node name attributes children =>
      obtain ⟨first, inside⟩ := Bool.and_eq_true_iff.mp writable
      obtain ⟨plain, keys⟩ := Bool.and_eq_true_iff.mp first
      have inside : (tagsOfAll children).all Tag.isWritable = true := by
        rw [List.all_append] at inside
        exact (Bool.and_eq_true_iff.mp inside).1
      have start := readMarkup_start plain (plain_of_keys keys) opened
      have length : fuel + ((Element.node name attributes children).pieces depth).length =
          fuel + 1 + (piecesOfAll (depth + 1) children).length + 1 := by
        simp only [Element.pieces, List.length_cons, List.length_append, List.length_nil]
        omega
      rw [length, encode_node,
        piecesFrom?_markup (newLine_plain depth) (start _) (pieceOf?_start _ name keys),
        piecesFrom?_elements children inside,
        piecesFrom?_markup (newLine_plain depth) (readMarkup_end plain opened rest) rfl,
        Option.map_map, Option.map_map, Element.pieces]
      simp [Function.comp_def, pieceWith, Tag.map]
  | .empty name attributes =>
      obtain ⟨first, -⟩ := Bool.and_eq_true_iff.mp writable
      obtain ⟨plain, keys⟩ := Bool.and_eq_true_iff.mp first
      rw [encode_empty, Element.pieces, List.length_singleton,
        piecesFrom?_markup (newLine_plain depth)
          (readMarkup_empty plain (plain_of_keys keys) opened rest) (pieceOf?_empty _ name keys)]
      rfl

/-- The lines of elements are read as their pieces. -/
theorem piecesFrom?_elements (elements : List Element)
    (writable : (tagsOfAll elements).all Tag.isWritable = true)
    (depth : Nat) (opened : List Bytes) (rest : Bytes) (fuel : Nat) :
    piecesFrom? (fuel + (piecesOfAll depth elements).length) opened
        (Utf8.encode (renderAll depth elements) ++ rest) =
      (piecesFrom? fuel opened rest).map (piecesOfAll depth elements ++ ·) := by
  match elements with
  | [] => simp [piecesOfAll, renderAll]
  | e :: others =>
      rw [tagsOfAll, List.all_append] at writable
      obtain ⟨here, there⟩ := Bool.and_eq_true_iff.mp writable
      have length : fuel + (piecesOfAll depth (e :: others)).length =
          fuel + (piecesOfAll depth others).length + (e.pieces depth).length := by
        simp only [piecesOfAll, List.length_append]
        omega
      rw [length, renderAll, Utf8.encode_append, List.append_assoc,
        piecesFrom?_element e here, piecesFrom?_elements others there, Option.map_map,
        piecesOfAll]
      simp [Function.comp_def]
end

mutual
/-- An element has no more pieces than bytes. -/
theorem length_pieces_le (e : Element) (depth : Nat) :
    (e.pieces depth).length ≤ (Utf8.encode (e.render depth)).length := by
  match e with
  | .leaf name attributes text =>
      simp only [Element.pieces, Element.render, Utf8.encode_append, encode_startTag,
        encode_endTag, List.length_append, List.length_cons, List.length_nil]
      omega
  | .node name attributes children =>
      have := length_piecesOfAll_le children (depth + 1)
      simp only [Element.pieces, Element.render, Utf8.encode_append, encode_startTag,
        encode_endTag, List.length_append, List.length_cons, List.length_nil]
      omega
  | .empty name attributes =>
      simp only [Element.pieces, Element.render, Utf8.encode_append, encode_emptyTag,
        List.length_append, List.length_cons, List.length_nil]
      omega

theorem length_piecesOfAll_le (elements : List Element) (depth : Nat) :
    (piecesOfAll depth elements).length ≤ (Utf8.encode (renderAll depth elements)).length := by
  match elements with
  | [] => exact Nat.zero_le _
  | e :: others =>
      have := length_pieces_le e depth
      have := length_piecesOfAll_le others depth
      simp only [piecesOfAll, renderAll, Utf8.encode_append, List.length_append]
      omega
end

/-- The piece of the first line of a document. -/
def declarationPiece : Piece := ⟨[], .other, []⟩

/-- **Documents of elements.** The document of an element is read as the pieces of the element,
if the names in its markup can stand there: its texts and values can be any. -/
theorem pieces?_documentBytes {root : Element} (writable : root.tags.all Tag.isWritable = true) :
    pieces? (documentBytes root) = some (declarationPiece :: root.pieces 0) := by
  obtain ⟨inside, declared, read⟩ :=
    readMarkup_declaration [] (Utf8.encode (root.render 0))
  have bytes : documentBytes root = 0x3C :: (inside ++ Utf8.encode (root.render 0)) := by
    rw [documentBytes, document, Utf8.encode_append, declared, List.cons_append]
  -- The bytes are enough steps: one for the first line, one for each piece, one for the end.
  obtain ⟨fuel, enough⟩ : ∃ fuel,
      (documentBytes root).length = fuel + 1 + (root.pieces 0).length := by
    refine ⟨(documentBytes root).length - (1 + (root.pieces 0).length), ?_⟩
    have := length_pieces_le root 0
    rw [bytes, List.length_cons, List.length_append]
    omega
  have made : pieceOf? [] .other = some declarationPiece := rfl
  have first := piecesFrom?_markup (List.forall_mem_nil _) read made
    (fuel + 1 + (root.pieces 0).length)
  have later := piecesFrom?_element root writable 0 [] [] (fuel + 1)
  have ended : piecesFrom? (fuel + 1) [] [] = some [] := rfl
  rw [List.append_nil, ended] at later
  rw [pieces?, enough, bytes, ← List.nil_append (0x3C :: _), first, later]
  simp

/-! ### The markup of elements -/

mutual
/-- The tags of the pieces of an element are its markup. -/
theorem map_tag_pieces (e : Element) (depth : Nat) :
    (e.pieces depth).map (·.tag) = written e.tags := by
  match e with
  | .leaf name attributes text => rfl
  | .node name attributes children =>
      have inside := map_tag_piecesOfAll children (depth + 1)
      rw [Element.pieces, Element.tags]
      simp [inside, pieceWith]
  | .empty name attributes => rfl

theorem map_tag_piecesOfAll (elements : List Element) (depth : Nat) :
    (piecesOfAll depth elements).map (·.tag) = written (tagsOfAll elements) := by
  match elements with
  | [] => rfl
  | e :: others =>
      rw [piecesOfAll, tagsOfAll, written_append, List.map_append, map_tag_pieces e depth,
        map_tag_piecesOfAll others depth]
end

section Nesting

variable {path : List Bytes}

mutual
/-- The markup of an element closes what it opens. -/
theorem isNested_tags (e : Element) (opened : List Bytes) (behind : List (Tag Bytes)) :
    isNested opened (written e.tags ++ behind) = isNested opened behind := by
  match e with
  | .leaf name attributes text => simp [Element.tags, Tag.map, isNested]
  | .node name attributes children =>
      have inside := isNested_tagsOfAll children (Utf8.bytes name :: opened)
        (.closing (Utf8.bytes name) :: behind)
      simpa [Element.tags, Tag.map, isNested] using inside
  | .empty name attributes => simp [Element.tags, Tag.map, isNested]

theorem isNested_tagsOfAll (elements : List Element) (opened : List Bytes)
    (behind : List (Tag Bytes)) :
    isNested opened (written (tagsOfAll elements) ++ behind) = isNested opened behind := by
  match elements with
  | [] => rfl
  | e :: others =>
      rw [tagsOfAll, written_append, List.append_assoc, isNested_tags e,
        isNested_tagsOfAll others]
end

mutual
/-- Nothing in an element opens further out than the element. -/
theorem openedIn_deeper (e : Element) {opened : List Bytes}
    (deeper : path.length < opened.length) (behind : List (Tag Bytes)) :
    openedIn path opened (written e.tags ++ behind) = openedIn path opened behind := by
  have other : opened ≠ path := by
    rintro rfl
    exact Nat.lt_irrefl _ deeper
  match e with
  | .leaf name attributes text => simp [Element.tags, Tag.map, openedIn, other]
  | .node name attributes children =>
      have deeper' : path.length < (Utf8.bytes name :: opened).length := Nat.lt_succ_of_lt deeper
      have inside := openedIn_deeperAll children deeper' (.closing (Utf8.bytes name) :: behind)
      simpa [Element.tags, Tag.map, openedIn, other] using inside
  | .empty name attributes => simp [Element.tags, Tag.map, openedIn, other]

theorem openedIn_deeperAll (elements : List Element) {opened : List Bytes}
    (deeper : path.length < opened.length) (behind : List (Tag Bytes)) :
    openedIn path opened (written (tagsOfAll elements) ++ behind) =
      openedIn path opened behind := by
  match elements with
  | [] => rfl
  | e :: others =>
      rw [tagsOfAll, written_append, List.append_assoc, openedIn_deeper e deeper,
        openedIn_deeperAll others deeper]
end

/-- An element opens its name where it stands, and no other. -/
theorem openedIn_here (e : Element) (path : List Bytes) (behind : List (Tag Bytes)) :
    openedIn path path (written e.tags ++ behind) =
      Utf8.bytes e.name :: openedIn path path behind := by
  cases e with
  | leaf name attributes text => simp [Element.tags, Tag.map, openedIn, Element.name]
  | node name attributes children =>
      have deeper : path.length < (Utf8.bytes name :: path).length := Nat.lt_succ_self _
      have inside := openedIn_deeperAll children deeper (.closing (Utf8.bytes name) :: behind)
      simpa [Element.tags, Tag.map, openedIn, Element.name] using inside
  | empty name attributes => simp [Element.tags, Tag.map, openedIn, Element.name]

/-- Elements open their names where they stand. -/
theorem openedIn_all (elements : List Element) (path : List Bytes) (behind : List (Tag Bytes)) :
    openedIn path path (written (tagsOfAll elements) ++ behind) =
      elements.map (fun e => Utf8.bytes e.name) ++ openedIn path path behind := by
  induction elements with
  | nil => rfl
  | cons e others ih =>
      rw [tagsOfAll, written_append, List.append_assoc, openedIn_here, ih, List.map_cons,
        List.cons_append]

/-- What opens further in than an element stands is what its children open. -/
theorem openedIn_node {opened : List Bytes} (other : opened ≠ path) (name : String)
    (attributes : List Attribute) (children : List Element) (behind : List (Tag Bytes)) :
    openedIn path opened (written (Element.node name attributes children).tags ++ behind) =
      openedIn path (Utf8.bytes name :: opened) (written (tagsOfAll children) ++
        .closing (Utf8.bytes name) :: behind) := by
  simp [Element.tags, Tag.map, openedIn, other]

end Nesting

/-! ### The content of elements -/

/-- Contents as they stand in a document. -/
def placed (contents : List (Place String × Bytes)) : List (Place Bytes × Bytes) :=
  contents.map fun (place, raw) => (place.map Utf8.bytes, raw)

@[simp] theorem placed_append (contents others : List (Place String × Bytes)) :
    placed (contents ++ others) = placed contents ++ placed others :=
  List.map_append

theorem strays_newLine (depth : Nat) : strays (Utf8.encode (newLine depth)) = [] :=
  if_pos (List.all_eq_true.mpr (newLine_blank depth))

theorem valuesOf_keysOf (name : String) (attributes : List Attribute) :
    valuesOf (Utf8.bytes name) ((keysOf attributes).map Utf8.bytes)
        (attributes.map (valueBytes ·.value)) = placed (valuesWith name attributes) := by
  simp [valuesOf, keysOf, placed, valuesWith, Place.map, List.zipWith_map, Function.comp_def]

mutual
/-- The content of the pieces of an element is that of the element, whatever tag stands in
front of it. -/
theorem contentsFrom_pieces (e : Element) (depth : Nat) (opened : Option Bytes)
    (behind : List Piece) :
    contentsFrom opened (e.pieces depth ++ behind) =
      placed (e.contents depth) ++ contentsFrom none behind := by
  match e with
  | .leaf name attributes text =>
      simp [Element.pieces, Element.contents, pieceWith, Tag.map, contentsFrom, strays_newLine,
        valuesOf_keysOf]
      rfl
  | .node name attributes children =>
      have inside := contentsFrom_piecesOfAll children (depth + 1) (some (Utf8.bytes name))
        (pieceWith (Utf8.encode (newLine depth)) (.closing name) [] :: behind)
      have first : contentsFrom opened ((Element.node name attributes children).pieces depth ++
          behind) = placed (valuesWith name attributes) ++
            contentsFrom (some (Utf8.bytes name)) (piecesOfAll (depth + 1) children ++
              pieceWith (Utf8.encode (newLine depth)) (.closing name) [] :: behind) := by
        simp [Element.pieces, pieceWith, Tag.map, contentsFrom, strays_newLine, valuesOf_keysOf]
      rw [first, inside, Element.contents]
      cases children with
      | nil => simp [contentsOfAll, placed, Place.map, pieceWith, Tag.map, contentsFrom]
      | cons e others => simp [pieceWith, Tag.map, contentsFrom, strays_newLine]
  | .empty name attributes =>
      simp [Element.pieces, Element.contents, pieceWith, Tag.map, contentsFrom, strays_newLine,
        valuesOf_keysOf]

theorem contentsFrom_piecesOfAll (elements : List Element) (depth : Nat)
    (opened : Option Bytes) (behind : List Piece) :
    contentsFrom opened (piecesOfAll depth elements ++ behind) =
      placed (contentsOfAll depth elements) ++
        contentsFrom (if elements.isEmpty then opened else none) behind := by
  match elements with
  | [] => rfl
  | e :: others =>
      have later := contentsFrom_piecesOfAll others depth none behind
      rw [ite_self] at later
      rw [piecesOfAll, List.append_assoc, contentsFrom_pieces e, later, contentsOfAll,
        placed_append, List.append_assoc]
      rfl
end

/-! ### Documents -/

/-- The markup of a document, if it can be read. -/
def markup? (document : Bytes) : Option (List (Tag Bytes)) :=
  (pieces? document).map (·.map (·.tag))

/-- **Markup and content of documents.** Behind the first line, the document of an element has
the markup of the element, properly nested, and its content is that of the element. -/
theorem document_pieces {root : Element} (writable : root.tags.all Tag.isWritable = true) :
    ∃ row, pieces? (documentBytes root) = some row ∧
      row.map (·.tag) = .other :: written root.tags ∧
      isNested [] (row.map (·.tag)) = true ∧
      contentsFrom none row = placed (root.contents 0) := by
  have tags := map_tag_pieces root 0
  have nested := isNested_tags root [] []
  have contents := contentsFrom_pieces root 0 none []
  rw [List.append_nil] at nested contents
  refine ⟨declarationPiece :: root.pieces 0, pieces?_documentBytes writable, ?_, ?_, ?_⟩
  · rw [List.map_cons, tags]
    rfl
  · rw [List.map_cons, tags]
    exact nested
  · simpa [declarationPiece, contentsFrom, strays] using contents

end Deposit.Xml
