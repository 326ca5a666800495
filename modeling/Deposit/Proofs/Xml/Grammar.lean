import Deposit.Proofs.Xml.Markup
import Mathlib.Data.Bool.AllAny

/-!
What a well-formed document is by XML 1.0, told without the writer and the reader.

A document is a declaration with an element behind it (`IsDocument`). The forms are those that
documents here are made of: tags with attributes, texts, and the five entities of markup
characters; there are no comments, instructions or sections. It is well formed if, besides that,
all of its characters are allowed (`IsWellFormed`).

* `isDocument_document`: the document of an element is one, if the names in it are names.
* `isWellFormed_documentBytes_iff`: it is well formed if and only if the strings in the element
  hold no characters but those that are allowed, as nothing else can bring in another one.
* `writable_of_named`: names can stand in tags.
-/

namespace Deposit.Xml

/-! ### Characters -/

/-- Whether the number of a character lies in one of some ranges. -/
def isWithin (ranges : List (Nat × Nat)) (c : Char) : Bool :=
  ranges.any fun (low, high) => low ≤ c.toNat && c.toNat ≤ high

/-- The characters that can stand in a document. -/
def legalRanges : List (Nat × Nat) :=
  [(0x9, 0xA), (0xD, 0xD), (0x20, 0xD7FF), (0xE000, 0xFFFD), (0x10000, 0x10FFFF)]

/-- The characters that a name can begin with. -/
def nameStartRanges : List (Nat × Nat) :=
  [(0x3A, 0x3A), (0x41, 0x5A), (0x5F, 0x5F), (0x61, 0x7A), (0xC0, 0xD6), (0xD8, 0xF6),
   (0xF8, 0x2FF), (0x370, 0x37D), (0x37F, 0x1FFF), (0x200C, 0x200D), (0x2070, 0x218F),
   (0x2C00, 0x2FEF), (0x3001, 0xD7FF), (0xF900, 0xFDCF), (0xFDF0, 0xFFFD), (0x10000, 0xEFFFF)]

/-- The characters that a name can go on with. -/
def nameRanges : List (Nat × Nat) :=
  nameStartRanges ++
    [(0x2D, 0x2E), (0x30, 0x39), (0xB7, 0xB7), (0x300, 0x36F), (0x203F, 0x2040)]

/-- Whether a character can stand in a document. -/
def isLegal (c : Char) : Bool := isWithin legalRanges c

/-- Whether all characters of a string can stand in a document. -/
def isLegalText (s : String) : Bool := s.toList.all isLegal

/-- Whether a string is a name. -/
def isName (s : String) : Bool :=
  match s.toList with
  | [] => false
  | c :: rest => isWithin nameStartRanges c && rest.all (isWithin nameRanges)

theorem isLegalText_append (s t : String) :
    isLegalText (s ++ t) = (isLegalText s && isLegalText t) := by
  rw [isLegalText, String.toList_append, List.all_append, isLegalText, isLegalText]

theorem isLegalText_ofList (chars : List Char) :
    isLegalText (String.ofList chars) = chars.all isLegal := by
  rw [isLegalText, String.toList_ofList]

/-- A character in a range is in each wider one. -/
theorem isWithin_of_narrower {ranges wider : List (Nat × Nat)}
    (narrower : ∀ r ∈ ranges, ∃ w ∈ wider, w.1 ≤ r.1 ∧ r.2 ≤ w.2) {c : Char}
    (within : isWithin ranges c = true) : isWithin wider c = true := by
  obtain ⟨r, mem, inside⟩ := List.any_eq_true.mp within
  obtain ⟨w, mem', low, high⟩ := narrower r mem
  refine List.any_eq_true.mpr ⟨w, mem', ?_⟩
  simp only [Bool.and_eq_true, decide_eq_true_eq] at inside ⊢
  omega

/-- All characters of a name are characters that names can go on with. -/
theorem isName_chars {name : String} (named : isName name = true) :
    name.toList ≠ [] ∧ ∀ c ∈ name.toList, isWithin nameRanges c = true := by
  rw [isName] at named
  cases chars : name.toList with
  | nil => simp [chars] at named
  | cons c rest =>
      simp only [chars, Bool.and_eq_true, List.all_eq_true] at named
      refine ⟨List.cons_ne_nil _ _, List.forall_mem_cons.mpr ⟨?_, named.2⟩⟩
      refine isWithin_of_narrower (fun r mem => ?_) named.1
      exact ⟨r, List.mem_append_left _ mem, Nat.le_refl _, Nat.le_refl _⟩

/-- Names are legal. -/
theorem isLegalText_of_name {name : String} (named : isName name = true) :
    isLegalText name = true := by
  refine List.all_eq_true.mpr fun c mem => ?_
  exact isWithin_of_narrower (by decide) ((isName_chars named).2 c mem)

/-- A name can stand in front of a value. -/
theorem isKey_of_name {name : String} (named : isName name = true) : isKey name = true := by
  obtain ⟨some, chars⟩ := isName_chars named
  -- What a tag is made of is none of the characters of names.
  have absent : ∀ c ∈ name.toList, (isMarkChar c || c == '=') = false := by
    intro c mem
    refine Bool.eq_false_iff.mpr fun mark => absurd (chars c mem) ?_
    simp only [isMarkChar, isBlankChar, Bool.or_eq_true, beq_iff_eq, or_assoc] at mark
    rcases mark with rfl | rfl | rfl | rfl | rfl | rfl | rfl | rfl | rfl | rfl | rfl | rfl
    all_goals decide
  have plain : name.toList.all (!isMarkChar ·) = true := by
    refine List.all_eq_true.mpr fun c mem => ?_
    simp [(Bool.or_eq_false_iff.mp (absent c mem)).1]
  have equals : '=' ∉ name.toList := fun mem => absurd (absent '=' mem) (by decide)
  simp [isKey, isPlainName, plain, some, equals]

/-! ### Forms -/

/-- A text or a value: characters that no markup is made of, and entities. -/
inductive IsText : List Char → Prop where
  | nil : IsText []
  | plain {c : Char} {rest : List Char} (unmarked : c ∉ marked) (text : IsText rest) :
    IsText (c :: rest)
  | entity {name : String} {c : Char} {rest : List Char} (known : entityValue? name = some c)
    (text : IsText rest) : IsText ('&' :: name.toList ++ ';' :: rest)

/-- Attributes in a tag, with their names, which differ. -/
inductive AreAttributes : List String → List Char → Prop where
  | nil : AreAttributes [] []
  | cons {name : String} {names : List String} {value rest : List Char} (gap : Blanks)
    (parted : gap.chars ≠ []) (quote : Quote) (named : isName name = true)
    (new : name ∉ names) (text : IsText value) (others : AreAttributes names rest) :
    AreAttributes (name :: names)
      (gap.chars ++ name.toList ++ '=' :: quote.char :: value ++ quote.char :: rest)

mutual
/-- An element: a tag that is closed at once, or tags of one name around what it holds. -/
inductive IsElement : List Char → Prop where
  | closed {name : String} {names : List String} {attributes : List Char} (gap : Blanks)
    (named : isName name = true) (each : AreAttributes names attributes) :
    IsElement ('<' :: name.toList ++ attributes ++ gap.chars ++ ['/', '>'])
  | filled {name : String} {names : List String} {attributes content : List Char}
    (gap gap' : Blanks) (named : isName name = true) (each : AreAttributes names attributes)
    (inside : IsContent content) :
    IsElement ('<' :: name.toList ++ attributes ++ gap.chars ++ '>' :: content ++
      '<' :: '/' :: name.toList ++ gap'.chars ++ ['>'])

/-- What an element holds: texts and elements. -/
inductive IsContent : List Char → Prop where
  | text {text : List Char} (plain : IsText text) : IsContent text
  | element {text element rest : List Char} (plain : IsText text) (first : IsElement element)
    (others : IsContent rest) : IsContent (text ++ element ++ rest)
end

/-- A declaration of the version and the encoding, and an element behind it. -/
inductive IsDocument : List Char → Prop where
  | mk {element : List Char} (gap : Blanks) (root : IsElement element) :
    IsDocument ("<?xml version=\"1.0\" encoding=\"UTF-8\"?>".toList ++ gap.chars ++ element)

/-- The bytes of a document that is nested and escaped as it should be. -/
def IsNestedDocument (document : Bytes) : Prop :=
  ∃ text, document = Utf8.encode text ∧ IsDocument text

/-- The bytes of a well-formed document: its characters are allowed, too. -/
def IsWellFormed (document : Bytes) : Prop :=
  ∃ text, document = Utf8.encode text ∧ IsDocument text ∧ ∀ c ∈ text, isLegal c = true

/-! ### Names in elements -/

/-- Names that differ. -/
def areNames (names : List String) : Bool := names.all isName && decide names.Nodup

/-- Whether names stand in a tag, and those of its attributes differ. -/
def Tag.isNamed : Tag String → Bool
  | .opening name keys => isName name && areNames keys
  | .closed name keys => isName name && areNames keys
  | .closing name => isName name
  | .other => true

theorem named_all_iff {elements : List Element} :
    (tagsOfAll elements).all Tag.isNamed = true ↔
      ∀ e ∈ elements, e.tags.all Tag.isNamed = true := by
  induction elements with
  | nil => simp [tagsOfAll]
  | cons e rest ih => rw [tagsOfAll, List.all_append, Bool.and_eq_true, ih, List.forall_mem_cons]

theorem named_leaf {name : String} {attributes : List Attribute} (named : isName name = true)
    (keys : areNames (keysOf attributes) = true) (text : String) :
    (Element.leaf name attributes text).tags.all Tag.isNamed = true := by
  simp [Element.tags, Tag.isNamed, named, keys]

theorem named_empty {name : String} {attributes : List Attribute} (named : isName name = true)
    (keys : areNames (keysOf attributes) = true) :
    (Element.empty name attributes).tags.all Tag.isNamed = true := by
  simp [Element.tags, Tag.isNamed, named, keys]

/-- Names stand in the tags of a node if they do in its own and in those of its elements. -/
theorem named_node {name : String} {attributes : List Attribute} {children : List Element}
    (named : isName name = true) (keys : areNames (keysOf attributes) = true)
    (each : ∀ e ∈ children, e.tags.all Tag.isNamed = true) :
    (Element.node name attributes children).tags.all Tag.isNamed = true := by
  simp [Element.tags, Tag.isNamed, named, keys, named_all_iff.mpr each]

/-- Names that differ are keys that differ. -/
theorem keys_of_areNames {names : List String} (h : areNames names = true) :
    names.all isKey = true ∧ names.Nodup := by
  obtain ⟨each, distinct⟩ := Bool.and_eq_true_iff.mp h
  refine ⟨List.all_eq_true.mpr fun name mem => ?_, of_decide_eq_true distinct⟩
  exact isKey_of_name (List.all_eq_true.mp each name mem)

theorem Tag.isWritable_of_named {tag : Tag String} (named : tag.isNamed = true) :
    tag.isWritable = true := by
  have plain {name : String} (named : isName name = true) : isPlainName name = true :=
    (Bool.and_eq_true_iff.mp (isKey_of_name named)).1
  cases tag with
  | opening name keys =>
      obtain ⟨named, names⟩ := Bool.and_eq_true_iff.mp named
      simp [isWritable, plain named, keys_of_areNames names]
  | closed name keys =>
      obtain ⟨named, names⟩ := Bool.and_eq_true_iff.mp named
      simp [isWritable, plain named, keys_of_areNames names]
  | closing name => exact plain named
  | other => rfl

/-- Names can stand in tags. -/
theorem writable_of_named {e : Element} (named : e.tags.all Tag.isNamed = true) :
    e.tags.all Tag.isWritable = true :=
  List.all_eq_true.mpr fun tag mem => Tag.isWritable_of_named (List.all_eq_true.mp named tag mem)

/-! ### Documents of elements are documents -/

theorem isText_plain {text : List Char} (plain : ∀ c ∈ text, c ∉ marked) : IsText text := by
  induction text with
  | nil => exact .nil
  | cons c rest ih =>
      obtain ⟨here, there⟩ := List.forall_mem_cons.mp plain
      exact .plain here (ih there)

/-- What is escaped is a text, whatever it was. -/
theorem isText_escape (text : List Char) : IsText (escape text) := by
  induction text with
  | nil => exact .nil
  | cons c rest ih =>
      rw [escape, List.flatMap_cons, ← escape, escapeChar]
      cases entity : entityOf c with
      | some name =>
          have known : entityValue? name = some c := by
            unfold entityOf at entity
            split at entity <;> cases entity
            all_goals decide
          have whole := IsText.entity known ih
          simpa using whole
      | none =>
          obtain ⟨lt, gt, amp, apos, quot⟩ := ne_of_no_entity entity
          exact .plain (by simp [marked, *]) ih

theorem isText_newLine (depth : Nat) : IsText (newLine depth) := by
  refine isText_plain fun c mem => ?_
  rcases List.mem_cons.mp mem with rfl | mem
  · decide
  · rw [(List.mem_replicate.mp mem).2]
    decide

theorem areAttributes_render {attributes : List Attribute}
    (names : areNames (keysOf attributes) = true) :
    AreAttributes (keysOf attributes) (renderAttributes attributes) := by
  induction attributes with
  | nil => exact .nil
  | cons a rest ih =>
      simp only [areNames, keysOf, List.map_cons, List.all_cons, List.nodup_cons,
        Bool.and_eq_true, decide_eq_true_eq] at names ih
      obtain ⟨⟨named, others⟩, new, distinct⟩ := names
      have whole := AreAttributes.cons ⟨[' '], space_blank⟩ (by simp) .double named new
        (isText_escape a.value.toList) (ih ⟨others, decide_eq_true distinct⟩)
      simpa [renderAttributes, keysOf, Quote.char] using whole

mutual
/-- The lines of an element are the start of a line and an element. -/
theorem exists_render (e : Element) (named : e.tags.all Tag.isNamed = true) (depth : Nat) :
    ∃ text, e.render depth = newLine depth ++ text ∧ IsElement text := by
  match e with
  | .leaf name attributes text =>
      obtain ⟨first, -⟩ := Bool.and_eq_true_iff.mp named
      obtain ⟨named, keys⟩ := Bool.and_eq_true_iff.mp first
      refine ⟨_, ?_, .filled .none .none named (areAttributes_render keys)
        (.text (isText_escape text.toList))⟩
      simp [Element.render, startTag, endTag, Blanks.none]
  | .node name attributes children =>
      obtain ⟨first, inside⟩ := Bool.and_eq_true_iff.mp named
      obtain ⟨named, keys⟩ := Bool.and_eq_true_iff.mp first
      rw [List.all_append] at inside
      have content := isContent_renderAll children (Bool.and_eq_true_iff.mp inside).1 (depth + 1)
        (.text (isText_newLine depth))
      refine ⟨_, ?_, .filled .none .none named (areAttributes_render keys) content⟩
      simp [Element.render, startTag, endTag, Blanks.none]
  | .empty name attributes =>
      obtain ⟨first, -⟩ := Bool.and_eq_true_iff.mp named
      obtain ⟨named, keys⟩ := Bool.and_eq_true_iff.mp first
      refine ⟨_, ?_, .closed .none named (areAttributes_render keys)⟩
      simp [Element.render, emptyTag, Blanks.none]

theorem isContent_renderAll (elements : List Element)
    (named : (tagsOfAll elements).all Tag.isNamed = true) (depth : Nat) {behind : List Char}
    (content : IsContent behind) : IsContent (renderAll depth elements ++ behind) := by
  match elements with
  | [] => exact content
  | e :: others =>
      rw [tagsOfAll, List.all_append] at named
      obtain ⟨here, there⟩ := Bool.and_eq_true_iff.mp named
      obtain ⟨text, lines, element⟩ := exists_render e here depth
      rw [renderAll, lines, List.append_assoc]
      exact .element (isText_newLine depth) element (isContent_renderAll others there depth content)
end

/-- The text of an element's document is a document, whatever texts and values it holds. -/
theorem isDocument_document {root : Element} (named : root.tags.all Tag.isNamed = true) :
    IsDocument (document root) := by
  obtain ⟨text, lines, element⟩ := exists_render root named 0
  rw [document, lines, ← List.append_assoc]
  exact .mk ⟨newLine 0, List.all_eq_true.mp (by decide)⟩ element

/-! ### Characters of documents -/

mutual
/-- The texts and the values in an element. -/
def Element.strings : Element → List String
  | .leaf _ attributes text => attributes.map (·.value) ++ [text]
  | .node _ attributes children => attributes.map (·.value) ++ stringsOfAll children
  | .empty _ attributes => attributes.map (·.value)

/-- The texts and the values in elements, one after the other. -/
def stringsOfAll : List Element → List String
  | [] => []
  | e :: rest => e.strings ++ stringsOfAll rest
end

theorem stringsOfAll_append (elements others : List Element) :
    stringsOfAll (elements ++ others) = stringsOfAll elements ++ stringsOfAll others := by
  induction elements with
  | nil => rfl
  | cons e rest ih => rw [List.cons_append, stringsOfAll, stringsOfAll, ih, List.append_assoc]

theorem stringsOfAll_map {α : Type} (f : α → Element) (l : List α) :
    stringsOfAll (l.map f) = l.flatMap fun a => (f a).strings := by
  induction l with
  | nil => rfl
  | cons a rest ih => rw [List.map_cons, stringsOfAll, ih, List.flatMap_cons]

/-- Escaping neither hides nor brings in a character that is not allowed. -/
theorem all_legal_escape (text : List Char) : (escape text).all isLegal = text.all isLegal := by
  induction text with
  | nil => rfl
  | cons c rest ih =>
      have one : (escapeChar c).all isLegal = isLegal c := by
        rcases marked_or_plain c with mark | ⟨-, plain⟩
        · have each : ∀ c ∈ marked, (escapeChar c).all isLegal = isLegal c :=
            List.all_iff_forall_prop.mp (by decide)
          exact each c mark
        · simp [plain]
      rw [escape, List.flatMap_cons, ← escape, List.all_append, one, ih, List.all_cons]

theorem all_legal_newLine (depth : Nat) : (newLine depth).all isLegal = true := by
  refine List.all_eq_true.mpr fun c mem => ?_
  rcases List.mem_cons.mp mem with rfl | mem
  · decide
  · rw [(List.mem_replicate.mp mem).2]
    decide

theorem all_legal_attributes {attributes : List Attribute}
    (names : (keysOf attributes).all isName = true) :
    (renderAttributes attributes).all isLegal =
      (attributes.map (·.value)).all isLegalText := by
  have around : isLegal ' ' = true ∧ isLegal '=' = true ∧ isLegal '"' = true := by decide
  induction attributes with
  | nil => rfl
  | cons a rest ih =>
      obtain ⟨named, others⟩ := Bool.and_eq_true_iff.mp names
      have here : a.name.toList.all isLegal = true := isLegalText_of_name named
      rw [renderAttributes, List.flatMap_cons, ← renderAttributes, List.all_append, ih others]
      simp [here, around, all_legal_escape, isLegalText]

theorem all_legal_startTag {name : String} {attributes : List Attribute}
    (named : isName name = true) (keys : areNames (keysOf attributes) = true) :
    (startTag name attributes).all isLegal = (attributes.map (·.value)).all isLegalText := by
  have around : isLegal '<' = true ∧ isLegal '>' = true := by decide
  have here : name.toList.all isLegal = true := isLegalText_of_name named
  have there := all_legal_attributes (Bool.and_eq_true_iff.mp keys).1
  simp only [startTag, List.cons_append, List.all_cons, List.all_append, List.all_nil, here, there,
    around, Bool.true_and, Bool.and_true]

theorem all_legal_endTag {name : String} (named : isName name = true) :
    (endTag name).all isLegal = true := by
  have around : isLegal '<' = true ∧ isLegal '/' = true ∧ isLegal '>' = true := by decide
  have here : name.toList.all isLegal = true := isLegalText_of_name named
  simp only [endTag, List.cons_append, List.all_cons, List.all_append, List.all_nil, here, around,
    Bool.and_true]

theorem all_legal_emptyTag {name : String} {attributes : List Attribute}
    (named : isName name = true) (keys : areNames (keysOf attributes) = true) :
    (emptyTag name attributes).all isLegal = (attributes.map (·.value)).all isLegalText := by
  have around : isLegal '<' = true ∧ isLegal '/' = true ∧ isLegal '>' = true := by decide
  have here : name.toList.all isLegal = true := isLegalText_of_name named
  have there := all_legal_attributes (Bool.and_eq_true_iff.mp keys).1
  simp only [emptyTag, List.cons_append, List.all_cons, List.all_append, List.all_nil, here, there,
    around, Bool.true_and, Bool.and_true]

mutual
/-- The lines of an element are legal if its strings are. -/
theorem all_legal_render (e : Element) (named : e.tags.all Tag.isNamed = true) (depth : Nat) :
    (e.render depth).all isLegal = e.strings.all isLegalText := by
  match e with
  | .leaf name attributes text =>
      obtain ⟨first, -⟩ := Bool.and_eq_true_iff.mp named
      obtain ⟨named, keys⟩ := Bool.and_eq_true_iff.mp first
      simp [Element.render, Element.strings, all_legal_newLine, all_legal_startTag named keys,
        all_legal_endTag named, all_legal_escape, isLegalText]
  | .node name attributes children =>
      obtain ⟨first, inside⟩ := Bool.and_eq_true_iff.mp named
      obtain ⟨named, keys⟩ := Bool.and_eq_true_iff.mp first
      rw [List.all_append] at inside
      have within := all_legal_renderAll children (Bool.and_eq_true_iff.mp inside).1 (depth + 1)
      simp only [Element.render, Element.strings, List.all_append, all_legal_newLine,
        all_legal_startTag named keys, within, all_legal_endTag named, Bool.true_and,
        Bool.and_true]
  | .empty name attributes =>
      obtain ⟨first, -⟩ := Bool.and_eq_true_iff.mp named
      obtain ⟨named, keys⟩ := Bool.and_eq_true_iff.mp first
      simp only [Element.render, Element.strings, List.all_append, all_legal_newLine,
        all_legal_emptyTag named keys, Bool.true_and]

theorem all_legal_renderAll (elements : List Element)
    (named : (tagsOfAll elements).all Tag.isNamed = true) (depth : Nat) :
    (renderAll depth elements).all isLegal = (stringsOfAll elements).all isLegalText := by
  match elements with
  | [] => rfl
  | e :: others =>
      rw [tagsOfAll, List.all_append] at named
      obtain ⟨here, there⟩ := Bool.and_eq_true_iff.mp named
      rw [renderAll, stringsOfAll, List.all_append, List.all_append, all_legal_render e here depth,
        all_legal_renderAll others there depth]
end

theorem isNestedDocument_documentBytes {root : Element}
    (named : root.tags.all Tag.isNamed = true) : IsNestedDocument (documentBytes root) :=
  ⟨_, rfl, isDocument_document named⟩

/-- **Well-formed documents.** The document of an element is well formed if and only if all
characters of the texts and values in it are allowed. -/
theorem isWellFormed_documentBytes_iff {root : Element}
    (named : root.tags.all Tag.isNamed = true) :
    IsWellFormed (documentBytes root) ↔ ∀ s ∈ root.strings, isLegalText s = true := by
  have declared : declaration.all isLegal = true := by decide
  have legal : (document root).all isLegal = root.strings.all isLegalText := by
    rw [document, List.all_append, declared, Bool.true_and, all_legal_render root named]
  rw [← List.all_eq_true, ← legal, List.all_eq_true]
  constructor
  · rintro ⟨text, same, -, chars⟩
    cases Utf8.encode_inj.mp same
    exact chars
  · intro chars
    exact ⟨_, rfl, isDocument_document named, chars⟩

end Deposit.Xml
