import Deposit.Proofs.Text.Split
import Deposit.Proofs.Xml.Events

/-!
Values and texts that are looked for in a document.

The attributes of a tag are read as they were written, if their names are plain and
differ: a value may hold any text, in quotes of either kind and with blanks around it
(`attributes_written`, `attributes_attributeBytes`). So the values of the root
of a document come back whole (`rootValue?_documentBytes`), and the text of an element comes
back without the blanks around it (`textOf?_leaf`).
-/

namespace Deposit.Xml

/-! ### Attributes -/

/-- A name that can stand in front of a value as it is. -/
def isKey (name : String) : Bool := isPlainName name && !name.toList.contains '='

/-- The bytes of an attribute's value as they stand in its tag. -/
def valueBytes (value : String) : Bytes := Utf8.encode (escape value.toList)

theorem readText_valueBytes (value : String) : readText (valueBytes value) = .ok value := by
  simp [readText, valueBytes]

/-- The bytes of a key: none of them ends a name. -/
theorem bytes_key {name : String} (h : isKey name = true) :
    Utf8.bytes name ≠ [] ∧ ∀ b ∈ Utf8.bytes name, (!(b == 0x3D || isBlank b)) = true := by
  obtain ⟨plain, keyed⟩ := Bool.and_eq_true_iff.mp h
  obtain ⟨some, unmarked⟩ := bytes_plain plain
  refine ⟨some, fun b mem => ?_⟩
  have equals : (b == 0x3D) = false := by
    refine (Utf8.isClass_beq '=' (by decide)).not_mem (fun c mem => ?_) b mem
    have absent : '=' ∉ name.toList := by simpa using keyed
    exact beq_eq_false_iff_ne.mpr fun same => absent (same ▸ mem)
  simp [equals, (isMarkByte_false (unmarked b mem)).1]

/-- Blanks, as many as there may be. -/
structure Blanks where
  chars : List Char
  blank : ∀ c ∈ chars, isBlankChar c = true := by decide

/-- No blanks. -/
def Blanks.none : Blanks := ⟨[], List.forall_mem_nil _⟩

theorem space_blank : ∀ c ∈ [' '], isBlankChar c = true := List.forall_mem_singleton.mpr rfl

theorem Blanks.bytes_blank (blanks : Blanks) :
    ∀ b ∈ Utf8.encode blanks.chars, isBlank b = true := by
  intro b mem
  obtain ⟨c, mem, mem'⟩ := List.mem_flatMap.mp mem
  rw [isBlank_class c b mem', blanks.blank c mem]

/-- The two marks that can stand around a value. -/
inductive Quote where
  | double
  | single
  deriving DecidableEq, Repr

/-- The character of a quote. -/
def Quote.char : Quote → Char
  | .double => '"'
  | .single => '\''

/-- The byte of a quote. -/
def Quote.byte : Quote → UInt8
  | .double => 0x22
  | .single => 0x27

theorem Quote.encodeChar (quote : Quote) : String.utf8EncodeChar quote.char = [quote.byte] := by
  cases quote <;> rfl

theorem Quote.byte_eq (quote : Quote) : quote.byte = 0x22 ∨ quote.byte = 0x27 := by
  cases quote
  · exact .inl rfl
  · exact .inr rfl

/-- An attribute as it is written: in quotes of either kind, with blanks wherever they may
stand. -/
structure WrittenAttribute where
  before : Blanks
  parted : before.chars ≠ [] := by decide
  name : String
  key : isKey name = true := by decide
  beforeSign : Blanks
  behindSign : Blanks
  quote : Quote
  value : String

namespace WrittenAttribute

/-- The text of an attribute in its tag. -/
def text (a : WrittenAttribute) : List Char :=
  a.before.chars ++ a.name.toList ++ a.beforeSign.chars ++ '=' :: a.behindSign.chars ++
    a.quote.char :: escape a.value.toList ++ [a.quote.char]

/-- No quote stands in an escaped value. -/
theorem value_plain (quote : Quote) (value : String) : ∀ b ∈ valueBytes value, b ≠ quote.byte := by
  have plain := escape_plain value.toList
  cases quote with
  | double =>
      intro b mem
      have absent := (Utf8.isClass_beq '"' (by decide)).not_mem
        (fun d (mem : d ∈ escape value.toList) => by simp [(plain d mem).2.2.2]) b mem
      simpa [Quote.byte] using absent
  | single =>
      intro b mem
      have absent := (Utf8.isClass_beq '\'' (by decide)).not_mem
        (fun d (mem : d ∈ escape value.toList) => by simp [(plain d mem).2.2.1]) b mem
      simpa [Quote.byte] using absent

theorem encode_text (a : WrittenAttribute) (rest : Bytes) :
    Utf8.encode a.text ++ rest =
      Utf8.encode a.before.chars ++ (Utf8.bytes a.name ++ (Utf8.encode a.beforeSign.chars ++
        0x3D :: (Utf8.encode a.behindSign.chars ++
          a.quote.byte :: (valueBytes a.value ++ a.quote.byte :: rest)))) := by
  have equals : String.utf8EncodeChar '=' = [0x3D] := by decide
  simp [text, valueBytes, Utf8.bytes, equals, a.quote.encodeChar]

end WrittenAttribute

/-- Behind blanks, what is no blank is left. -/
theorem dropWhile_blanks (blanks : Blanks) {b : UInt8} (other : isBlank b = false) (rest : Bytes) :
    (Utf8.encode blanks.chars ++ b :: rest).dropWhile isBlank = b :: rest := by
  rw [List.dropWhile_append_of_pos blanks.bytes_blank,
    List.dropWhile_cons_of_neg (by simp [other])]

/-- An attribute is read from the front of what stands in a tag. -/
theorem nextAttribute?_written (a : WrittenAttribute) (rest : Bytes) :
    nextAttribute? (Utf8.encode a.text ++ rest) =
      some (some (Utf8.bytes a.name, valueBytes a.value), rest) := by
  obtain ⟨ne, inside⟩ := bytes_key a.key
  obtain ⟨b, more, bytes⟩ := List.exists_cons_of_ne_nil ne
  have first : isBlank b = false := by
    have := inside b (by simp [bytes])
    exact (by simpa using this : b ≠ 0x3D ∧ isBlank b = false).2
  have quote : isBlank a.quote.byte = false := by cases a.quote <;> decide
  have quoted : (a.quote.byte == 0x22 || a.quote.byte == 0x27) = true := by
    simpa using a.quote.byte_eq
  have absent : a.quote.byte ∉ valueBytes a.value :=
    fun mem => WrittenAttribute.value_plain a.quote a.value _ mem rfl
  have value := Split.first?_append absent rest
  have sign := dropWhile_blanks a.beforeSign (b := 0x3D) (by decide)
    (Utf8.encode a.behindSign.chars ++
      a.quote.byte :: (valueBytes a.value ++ a.quote.byte :: rest))
  have ended : (Utf8.encode a.beforeSign.chars ++ 0x3D :: (Utf8.encode a.behindSign.chars ++
      a.quote.byte :: (valueBytes a.value ++ a.quote.byte :: rest))).takeWhile
        (fun b => !(b == 0x3D || isBlank b)) = [] := by
    cases chars : Utf8.encode a.beforeSign.chars with
    | nil => simp
    | cons b' more' =>
        have blank := a.beforeSign.bytes_blank b' (by simp [chars])
        simp [blank]
  have behind := dropWhile_blanks a.behindSign quote (valueBytes a.value ++ a.quote.byte :: rest)
  rw [WrittenAttribute.encode_text, nextAttribute?]
  generalize Utf8.encode a.beforeSign.chars ++ 0x3D :: (Utf8.encode a.behindSign.chars ++
    a.quote.byte :: (valueBytes a.value ++ a.quote.byte :: rest)) = follows at sign ended ⊢
  -- The name ends where the blanks or the equals sign behind it begin.
  have name : (Utf8.bytes a.name ++ follows).takeWhile (fun b => !(b == 0x3D || isBlank b)) =
      Utf8.bytes a.name := by
    rw [List.takeWhile_append_of_pos inside, ended, List.append_nil]
  have left : (Utf8.bytes a.name ++ follows).drop (Utf8.bytes a.name).length = follows :=
    List.drop_left
  rw [bytes, List.cons_append] at name left ⊢
  rw [dropWhile_blanks a.before first]
  simp only [name, left, sign, beq_self_eq_true, if_true, behind, quoted, value]

/-- What stands in a tag behind its name. -/
structure WrittenTag where
  attributes : List WrittenAttribute
  behind : Blanks

/-- The text behind the name of a tag. -/
def WrittenTag.text (tag : WrittenTag) : List Char :=
  tag.attributes.flatMap (·.text) ++ tag.behind.chars

/-- The attributes in a tag are read in their order, each name once. -/
theorem attributesFrom_written {attributes : List WrittenAttribute} {seen : List Bytes}
    (behind : Blanks) (new : ∀ a ∈ attributes, Utf8.bytes a.name ∉ seen)
    (distinct : (attributes.map (·.name)).Nodup) (fuel : Nat) :
    attributesFrom (fuel + attributes.length) seen
        (Utf8.encode (WrittenTag.mk attributes behind).text) =
      attributes.map fun a => (Utf8.bytes a.name, valueBytes a.value) := by
  induction attributes generalizing seen with
  | nil =>
      have ended : nextAttribute? (Utf8.encode behind.chars) = none := by
        rw [nextAttribute?, List.dropWhile_eq_nil_iff.mpr behind.bytes_blank]
      cases fuel with
      | zero => rfl
      | succ fuel => simp [WrittenTag.text, attributesFrom, ended]
  | cons a rest ih =>
      obtain ⟨other, distinct⟩ := List.nodup_cons.mp distinct
      have here : seen.contains (Utf8.bytes a.name) = false := by
        simpa using new a List.mem_cons_self
      have new' : ∀ a' ∈ rest, Utf8.bytes a'.name ∉ Utf8.bytes a.name :: seen := by
        intro a' mem seen'
        rcases List.mem_cons.mp seen' with same | old
        · exact other (List.mem_map.mpr ⟨a', mem, Utf8.bytes_inj.mp same⟩)
        · exact new a' (List.mem_cons_of_mem a mem) old
      have parts : Utf8.encode (WrittenTag.mk (a :: rest) behind).text =
          Utf8.encode a.text ++ Utf8.encode (WrittenTag.mk rest behind).text := by
        simp [WrittenTag.text]
      rw [List.length_cons, ← Nat.add_assoc, attributesFrom, parts, nextAttribute?_written]
      simp only [here, Bool.false_eq_true, if_false, ih new' distinct, List.map_cons]

theorem WrittenTag.length_le (tag : WrittenTag) :
    tag.attributes.length ≤ (Utf8.encode tag.text).length := by
  obtain ⟨attributes, behind⟩ := tag
  induction attributes with
  | nil => exact Nat.zero_le _
  | cons a rest ih =>
      have parts : Utf8.encode (WrittenTag.mk (a :: rest) behind).text =
          Utf8.encode a.text ++ Utf8.encode (WrittenTag.mk rest behind).text := by
        simp [WrittenTag.text]
      have filled := a.encode_text []
      rw [List.append_nil] at filled
      simp only [parts, filled, List.length_cons, List.length_append] at ih ⊢
      omega

/-- Attributes are read from their tag as they are written, each name once, whatever their
values are. -/
theorem attributes_written {tag : WrittenTag} (distinct : (tag.attributes.map (·.name)).Nodup) :
    Xml.attributes (Utf8.encode tag.text) =
      tag.attributes.map fun a => (Utf8.bytes a.name, valueBytes a.value) := by
  obtain ⟨fuel, enough⟩ := Nat.exists_eq_add_of_le' tag.length_le
  rw [Xml.attributes, enough]
  exact attributesFrom_written tag.behind (fun a _ => List.not_mem_nil) distinct fuel

/-- An attribute as it is written by itself: behind a space, in double quotes. -/
def Attribute.written (a : Attribute) (h : isKey a.name = true) : WrittenAttribute where
  before := ⟨[' '], space_blank⟩
  name := a.name
  key := h
  beforeSign := .none
  behindSign := .none
  quote := .double
  value := a.value

theorem attributeBytes_cons_written {a : Attribute} (h : isKey a.name = true)
    (rest : List Attribute) :
    attributeBytes (a :: rest) = Utf8.encode (a.written h).text ++ attributeBytes rest := by
  simp [attributeBytes, renderAttributes, WrittenAttribute.text, Attribute.written,
    Blanks.none, Quote.char]

/-- An attribute is read from the front of a tag's attributes. -/
theorem nextAttribute?_cons {a : Attribute} (h : isKey a.name = true) (rest : List Attribute) :
    nextAttribute? (attributeBytes (a :: rest)) =
      some (some (Utf8.bytes a.name, valueBytes a.value), attributeBytes rest) := by
  rw [attributeBytes_cons_written h]
  exact nextAttribute?_written (a.written h) (attributeBytes rest)

theorem length_le_attributeBytes (attributes : List Attribute) :
    attributes.length ≤ (attributeBytes attributes).length := by
  induction attributes with
  | nil => exact Nat.zero_le _
  | cons a rest ih =>
      rw [attributeBytes_cons]
      simp only [List.length_cons, List.length_append]
      omega

/-- Attributes with keys for names stand in a tag as they are written. -/
theorem attributeBytes_eq_written {attributes : List Attribute}
    (keys : ∀ a ∈ attributes, isKey a.name = true) :
    attributeBytes attributes =
      Utf8.encode (WrittenTag.mk (attributes.pmap Attribute.written keys) .none).text := by
  induction attributes with
  | nil => rfl
  | cons a rest ih =>
      rw [attributeBytes_cons_written (keys a List.mem_cons_self),
        ih fun a' mem => keys a' (List.mem_cons_of_mem a mem)]
      simp [WrittenTag.text]

/-- **The round trip of attributes.** Attributes with keys for names, each once, are read as
they are written, whatever their values are. -/
theorem attributes_attributeBytes {attributes : List Attribute}
    (keys : ∀ a ∈ attributes, isKey a.name = true)
    (distinct : (attributes.map (·.name)).Nodup) :
    Xml.attributes (attributeBytes attributes) =
      attributes.map fun a => (Utf8.bytes a.name, valueBytes a.value) := by
  rw [attributeBytes_eq_written keys, attributes_written]
  · simp [List.map_pmap, Attribute.written]
  · simpa [List.map_pmap, Attribute.written] using distinct

/-- The attributes of the first tag that is opened. -/
def rootAttributes : List Event → List (Bytes × Bytes)
  | [] => []
  | .start _ content :: _ => attributes content
  | _ :: rest => rootAttributes rest

/-- The value of an attribute of a document's root. -/
def rootValue? (key : String) (document : Bytes) : Option (Except TextFault String) :=
  ((rootAttributes (events document).1).lookup (Utf8.bytes key)).map readText

theorem lookup_valueBytes (key : String) (attributes : List Attribute) :
    ((attributes.map fun a => (Utf8.bytes a.name, valueBytes a.value)).lookup
      (Utf8.bytes key)).map readText =
        (attributes.find? (·.name = key)).map fun a => .ok a.value := by
  induction attributes with
  | nil => rfl
  | cons a rest ih =>
      rw [List.map_cons, List.lookup_cons, List.find?_cons]
      by_cases same : a.name = key
      · simp [same, readText_valueBytes]
      · have differ : (Utf8.bytes key == Utf8.bytes a.name) = false :=
          beq_eq_false_iff_ne.mpr fun bytes => same (Utf8.bytes_inj.mp bytes).symm
        simp only [differ, same, decide_false, ih]

/-- The values of the root of a document are read as they were written. -/
theorem rootValue?_documentBytes {name : String} {attributes : List Attribute}
    {children : List Element} (plain : (Element.node name attributes children).isPlain = true)
    (keys : ∀ a ∈ attributes, isKey a.name = true) (distinct : (attributes.map (·.name)).Nodup)
    (key : String) :
    rootValue? key (documentBytes (.node name attributes children)) =
      (attributes.find? (·.name = key)).map fun a => .ok a.value := by
  rw [rootValue?, events_documentBytes plain, Element.events]
  simp only [rootAttributes, attributes_attributeBytes keys distinct, lookup_valueBytes]

/-! ### Texts -/

/-- The text in the first element with a name; empty if it begins with no text. -/
def textOf? (name : String) : List Event → Option (Except TextFault String)
  | [] => none
  | .start opened _ :: rest =>
    if opened = Utf8.bytes name then
      match rest with
      | .text content :: _ => some (readText content)
      | _ => some (.ok "")
    else textOf? name rest
  | _ :: rest => textOf? name rest

/-- The text of an element is read without the blanks around it. -/
theorem textOf?_leaf (name : String) (attributes : List Attribute) (text : String)
    (behind : List Event) :
    textOf? name ((Element.leaf name attributes text).events ++ behind) =
      some (.ok (trimmed text)) := by
  have read := readText_trimmed text
  by_cases blank : Blank.trimBy isBlank (Utf8.encode (escape text.toList)) = []
  · have none : textEvents text = [] := by simp [textEvents, blank]
    have empty : trimmed text = "" := by
      have nothing : readText [] = .ok "" := readText_valueBytes ""
      rw [blank, nothing] at read
      exact (Except.ok.inj read).symm
    simp [Element.events, none, textOf?, empty]
  · have some : textEvents text =
        [.text (Blank.trimBy isBlank (Utf8.encode (escape text.toList)))] := by
      simp [textEvents, blank]
    simp [Element.events, some, textOf?, read]

end Deposit.Xml
