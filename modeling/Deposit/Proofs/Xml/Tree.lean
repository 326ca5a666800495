import Deposit.Proofs.Xml.Markup

/-!
Documents read back as elements.

The pieces of a document are put together again (`assemble`): a closing tag ends the element that
was opened last, with the text in front of it if no elements stand in it, and otherwise with these.
Values and texts are read as what they stand for; between elements only blanks may stand.

An element is read back as it was, up to one form: a node without elements is read as a leaf
whose text is the start of a line (`Element.seen`). So what documents hold decides on all names,
values and texts of an element and on their order (`root?_documentBytes`).
-/

namespace Deposit.Xml

/-! ### Reading elements -/

/-- The name that bytes are. -/
def name? (bytes : Bytes) : Option String := (Utf8.decode bytes).toOption.map String.ofList

/-- The attributes of a tag with the values that they stand for. -/
def attributes? (keys values : List Bytes) : Option (List Attribute) :=
  (keys.zip values).mapM fun (key, value) => do
    pure ⟨← name? key, ← (readText value).toOption⟩

/-- A tag that is open, with the elements in front of it. -/
structure OpenTag where
  name : String
  attributes : List Attribute
  before : List Element

/-- Puts pieces together to elements; `opened` are the tags that are open, innermost first, and
`siblings` the elements behind the innermost one. -/
def assemble (opened : List OpenTag) (siblings : List Element) :
    List Piece → Option (List Element)
  | [] => if opened.isEmpty then some siblings else none
  | ⟨before, .opening name keys, values⟩ :: rest =>
    if before.all isBlank then
      match name? name, attributes? keys values with
      | some name, some attributes => assemble (⟨name, attributes, siblings⟩ :: opened) [] rest
      | _, _ => none
    else none
  | ⟨before, .closed name keys, values⟩ :: rest =>
    if before.all isBlank then
      match name? name, attributes? keys values with
      | some name, some attributes =>
        assemble opened (siblings ++ [.empty name attributes]) rest
      | _, _ => none
    else none
  | ⟨before, .closing _, _⟩ :: rest =>
    match opened with
    | [] => none
    | tag :: opened =>
      if siblings.isEmpty then
        match (readText before).toOption with
        | some text => assemble opened (tag.before ++ [.leaf tag.name tag.attributes text]) rest
        | none => none
      else if before.all isBlank then
        assemble opened (tag.before ++ [.node tag.name tag.attributes siblings]) rest
      else none
  | ⟨before, .other, _⟩ :: rest =>
    if before.all isBlank then assemble opened siblings rest else none

/-- The root element of a document. -/
def root? (document : Bytes) : Option Element :=
  match (pieces? document).bind (assemble [] []) with
  | some [root] => some root
  | _ => none

/-! ### Elements as they are read -/

mutual
/-- An element at a depth as it is read. -/
def Element.seen (depth : Nat) : Element → Element
  | .leaf name attributes text => .leaf name attributes text
  | .node name attributes children =>
    if children.isEmpty then .leaf name attributes (String.ofList (newLine depth))
    else .node name attributes (seenAll (depth + 1) children)
  | .empty name attributes => .empty name attributes

/-- Elements at a depth as they are read. -/
def seenAll (depth : Nat) : List Element → List Element
  | [] => []
  | e :: rest => e.seen depth :: seenAll depth rest
end

mutual
/-- Whether no node in an element is without elements. -/
def Element.isFilled : Element → Bool
  | .node _ _ children => !children.isEmpty && areFilled children
  | .leaf .. => true
  | .empty .. => true

/-- Whether no node in some elements is without elements. -/
def areFilled : List Element → Bool
  | [] => true
  | e :: rest => e.isFilled && areFilled rest
end

theorem areFilled_iff {elements : List Element} :
    areFilled elements = true ↔ ∀ e ∈ elements, e.isFilled = true := by
  induction elements with
  | nil => simp [areFilled]
  | cons e rest ih => simp [areFilled, ih]

mutual
/-- A filled element is read as it is. -/
theorem seen_eq_self (e : Element) (depth : Nat) (filled : e.isFilled = true) :
    e.seen depth = e := by
  match e with
  | .leaf name attributes text => rfl
  | .node name attributes children =>
      obtain ⟨some, filled⟩ := Bool.and_eq_true_iff.mp filled
      rw [Element.seen, if_neg (by simpa using some), seenAll_eq_self children _ filled]
  | .empty name attributes => rfl

theorem seenAll_eq_self (elements : List Element) (depth : Nat)
    (filled : areFilled elements = true) : seenAll depth elements = elements := by
  match elements with
  | [] => rfl
  | e :: others =>
      obtain ⟨here, there⟩ := Bool.and_eq_true_iff.mp filled
      rw [seenAll, seen_eq_self e depth here, seenAll_eq_self others depth there]
end

theorem seenAll_eq_map (depth : Nat) (elements : List Element) :
    seenAll depth elements = elements.map (Element.seen depth) := by
  induction elements with
  | nil => rfl
  | cons e rest ih => rw [seenAll, ih, List.map_cons]

@[simp] theorem name?_bytes (name : String) : name? (Utf8.bytes name) = some name := by
  simp [name?, Utf8.bytes, Except.toOption]

theorem attributes?_written (attributes : List Attribute) :
    attributes? ((keysOf attributes).map Utf8.bytes) (attributes.map (valueBytes ·.value)) =
      some attributes := by
  rw [attributes?, keysOf, List.map_map, List.zip_map', List.mapM_map]
  induction attributes with
  | nil => rfl
  | cons a rest ih =>
      rw [List.mapM_cons, ih]
      simp [readText_valueBytes, Except.toOption]

/-- Characters without entities are written as they are. -/
theorem escape_eq_self {text : List Char} (plain : ∀ c ∈ text, entityOf c = none) :
    escape text = text := by
  induction text with
  | nil => rfl
  | cons c rest ih =>
      obtain ⟨here, there⟩ := List.forall_mem_cons.mp plain
      rw [escape, List.flatMap_cons, ← escape, ih there, escapeChar, here]
      rfl

/-- The start of a line is read as it is. -/
theorem readText_newLine (depth : Nat) :
    readText (Utf8.encode (newLine depth)) = .ok (String.ofList (newLine depth)) := by
  have plain : ∀ c ∈ newLine depth, entityOf c = none := by
    intro c mem
    rcases List.mem_cons.mp mem with rfl | mem
    · rfl
    · rw [(List.mem_replicate.mp mem).2]
      rfl
  have read := readText_valueBytes (String.ofList (newLine depth))
  rwa [valueBytes, String.toList_ofList, escape_eq_self plain] at read

/-! ### Putting pieces together -/

theorem blank_newLine (depth : Nat) : (Utf8.encode (newLine depth)).all isBlank = true :=
  List.all_eq_true.mpr (newLine_blank depth)

theorem assemble_opening (opened : List OpenTag) (siblings : List Element) (depth : Nat)
    (name : String) (attributes : List Attribute) (behind : List Piece) :
    assemble opened siblings (pieceWith (Utf8.encode (newLine depth))
        (.opening name (keysOf attributes)) attributes :: behind) =
      assemble (⟨name, attributes, siblings⟩ :: opened) [] behind := by
  simp [pieceWith, Tag.map, assemble, blank_newLine, attributes?_written]

theorem assemble_closed (opened : List OpenTag) (siblings : List Element) (depth : Nat)
    (name : String) (attributes : List Attribute) (behind : List Piece) :
    assemble opened siblings (pieceWith (Utf8.encode (newLine depth))
        (.closed name (keysOf attributes)) attributes :: behind) =
      assemble opened (siblings ++ [.empty name attributes]) behind := by
  simp [pieceWith, Tag.map, assemble, blank_newLine, attributes?_written]

mutual
/-- The pieces of an element are put together to the element as it is seen. -/
theorem assemble_pieces (e : Element) (depth : Nat) (opened : List OpenTag)
    (siblings : List Element) (behind : List Piece) :
    assemble opened siblings (e.pieces depth ++ behind) =
      assemble opened (siblings ++ [e.seen depth]) behind := by
  match e with
  | .leaf name attributes text =>
      rw [Element.pieces, List.cons_append, assemble_opening]
      simp [pieceWith, Tag.map, assemble, readText_valueBytes, Except.toOption, Element.seen]
  | .node name attributes [] =>
      rw [Element.pieces, List.cons_append, assemble_opening]
      simp [piecesOfAll, pieceWith, Tag.map, assemble, readText_newLine, Except.toOption,
        Element.seen]
  | .node name attributes (child :: others) =>
      rw [Element.pieces, List.cons_append, assemble_opening, List.append_assoc,
        assemble_piecesOfAll]
      simp [seenAll, pieceWith, Tag.map, assemble, blank_newLine, Element.seen]
  | .empty name attributes =>
      rw [Element.pieces, List.cons_append, assemble_closed]
      rfl

theorem assemble_piecesOfAll (elements : List Element) (depth : Nat) (opened : List OpenTag)
    (siblings : List Element) (behind : List Piece) :
    assemble opened siblings (piecesOfAll depth elements ++ behind) =
      assemble opened (siblings ++ seenAll depth elements) behind := by
  match elements with
  | [] => simp [piecesOfAll, seenAll]
  | e :: others =>
      rw [piecesOfAll, List.append_assoc, assemble_pieces e, assemble_piecesOfAll others, seenAll,
        List.append_assoc]
      rfl
end

/-- **Documents are read back as elements.** The document of an element is read as the element,
whatever its texts and values are, if the names in it can stand in tags. -/
theorem root?_documentBytes {root : Element} (writable : root.tags.all Tag.isWritable = true) :
    root? (documentBytes root) = some (root.seen 0) := by
  have together := assemble_pieces root 0 [] [] []
  rw [List.append_nil] at together
  simp [root?, pieces?_documentBytes writable, declarationPiece, assemble, together]

end Deposit.Xml
