import Deposit.Proofs.Xml.Escape
import Deposit.Xml.Element

/-!
The events of a document that was made of elements.

A name is *plain* if no markup can begin or end in it (`isPlainName`). If all names in an
element are plain, then to read its lines is to get its events one after the other
(`eventsFrom_element`): a start and an end for each element, and between them what the
element holds, or its text, unless that is blank. So the document of an element has the
events of the element (`events_documentBytes`), whatever its texts and values are.
-/

namespace Deposit.Xml

/-! ### Plain names -/

/-- A byte that markup begins, ends or is divided with. -/
def isMarkByte (b : UInt8) : Bool :=
  isBlank b || b == 0x3C || b == 0x3E || b == 0x22 || b == 0x27 || b == 0x2F || b == 0x21 ||
    b == 0x3F

/-- A character that markup begins, ends or is divided with. -/
def isMarkChar (c : Char) : Bool :=
  isBlankChar c || c == '<' || c == '>' || c == '"' || c == '\'' || c == '/' || c == '!' ||
    c == '?'

theorem isMarkByte_class : Utf8.IsClass isMarkByte isMarkChar :=
  ((((((isBlank_class.or (Utf8.isClass_beq '<' (by decide))).or
    (Utf8.isClass_beq '>' (by decide))).or (Utf8.isClass_beq '"' (by decide))).or
    (Utf8.isClass_beq '\'' (by decide))).or (Utf8.isClass_beq '/' (by decide))).or
    (Utf8.isClass_beq '!' (by decide))).or (Utf8.isClass_beq '?' (by decide))

/-- A name that can stand in a tag as it is. -/
def isPlainName (name : String) : Bool :=
  !name.toList.isEmpty && name.toList.all (!isMarkChar ·)

mutual
/-- Whether all names in an element are plain. -/
def Element.isPlain : Element → Bool
  | .leaf name attributes _ => isPlainName name && attributes.all (isPlainName ·.name)
  | .node name attributes children =>
    isPlainName name && attributes.all (isPlainName ·.name) && isPlainAll children
  | .empty name attributes => isPlainName name && attributes.all (isPlainName ·.name)

/-- Whether all names in some elements are plain. -/
def isPlainAll : List Element → Bool
  | [] => true
  | e :: rest => e.isPlain && isPlainAll rest
end

/-- The bytes of a plain name: there is one, and none of them is markup. -/
theorem bytes_plain {name : String} (h : isPlainName name = true) :
    Utf8.bytes name ≠ [] ∧ ∀ b ∈ Utf8.bytes name, isMarkByte b = false := by
  obtain ⟨some, all⟩ := Bool.and_eq_true_iff.mp h
  constructor
  · intro none
    cases chars : name.toList with
    | nil => simp [chars] at some
    | cons c rest =>
        rw [Utf8.bytes, chars, Utf8.encode_cons] at none
        exact (Utf8.encodes_encodeChar c).ne_nil (List.append_eq_nil_iff.mp none).1
  · refine isMarkByte_class.not_mem fun c mem => ?_
    simpa using List.all_eq_true.mp all c mem

theorem isMarkByte_false {b : UInt8} (h : isMarkByte b = false) :
    isBlank b = false ∧ b ≠ 0x3C ∧ b ≠ 0x3E ∧ b ≠ 0x22 ∧ b ≠ 0x27 ∧ b ≠ 0x2F ∧ b ≠ 0x21 ∧
      b ≠ 0x3F := by
  simpa [isMarkByte, and_assoc] using h

/-! ### The ends of tags -/

/-- Bytes that a tag does not end in, whatever follows them. -/
def Balanced (s : Bytes) : Prop :=
  ∀ rest, atTagEnd? none (s ++ rest) =
    (atTagEnd? none rest).map fun split => (s ++ split.1, split.2)

theorem balanced_nil : Balanced [] := fun rest => by simp

theorem Balanced.append {s t : Bytes} (h : Balanced s) (h' : Balanced t) :
    Balanced (s ++ t) := by
  intro rest
  rw [List.append_assoc, h, h', Option.map_map]
  simp [Function.comp_def]

/-- Neither quotes nor the end of a tag. -/
theorem balanced_of_plain {s : Bytes} (h : ∀ b ∈ s, b ≠ 0x3E ∧ b ≠ 0x22 ∧ b ≠ 0x27) :
    Balanced s := by
  induction s with
  | nil => exact balanced_nil
  | cons b s ih =>
      obtain ⟨⟨gt, quot, apos⟩, h⟩ := List.forall_mem_cons.mp h
      intro rest
      rw [List.cons_append, atTagEnd?]
      simp [gt, quot, apos, ih h rest, Function.comp_def]

theorem balanced_blanks {blanks : Bytes} (blank : ∀ b ∈ blanks, isBlank b = true) :
    Balanced blanks := by
  refine balanced_of_plain fun b mem => ?_
  have blank := blank b mem
  refine ⟨?_, ?_, ?_⟩
  all_goals
    rintro rfl
    exact absurd blank (by decide)

theorem balanced_byte {b : UInt8} (h : b ≠ 0x3E ∧ b ≠ 0x22 ∧ b ≠ 0x27) : Balanced [b] :=
  balanced_of_plain (List.forall_mem_singleton.mpr h)

/-- Inside of quotes: everything up to the quote. -/
theorem atTagEnd?_quoted {q : UInt8} {s : Bytes} (h : ∀ b ∈ s, b ≠ q) (rest : Bytes) :
    atTagEnd? (some q) (s ++ q :: rest) =
      (atTagEnd? none rest).map fun split => (s ++ q :: split.1, split.2) := by
  induction s with
  | nil => simp [atTagEnd?]
  | cons b s ih =>
      obtain ⟨quot, h⟩ := List.forall_mem_cons.mp h
      rw [List.cons_append, atTagEnd?]
      simp [quot, ih h, Function.comp_def]

/-- A quoted value. -/
theorem balanced_quoted {q : UInt8} (quote : q = 0x22 ∨ q = 0x27) {s : Bytes}
    (h : ∀ b ∈ s, b ≠ q) : Balanced (q :: s ++ [q]) := by
  intro rest
  have inside := atTagEnd?_quoted h rest
  rw [List.cons_append, List.cons_append, List.append_assoc, atTagEnd?]
  rcases quote with rfl | rfl
  all_goals simp [inside, Function.comp_def]

/-- The end of a tag behind balanced bytes. -/
theorem Balanced.tagEnd {s : Bytes} (h : Balanced s) (rest : Bytes) :
    atTagEnd? none (s ++ 0x3E :: rest) = some (s, rest) := by
  rw [h]
  simp [atTagEnd?]

/-- The bytes of the attributes of a tag. -/
def attributeBytes (attributes : List Attribute) : Bytes :=
  Utf8.encode (renderAttributes attributes)

theorem attributeBytes_cons (a : Attribute) (rest : List Attribute) :
    attributeBytes (a :: rest) = 0x20 :: Utf8.bytes a.name ++ [0x3D] ++
      (0x22 :: Utf8.encode (escape a.value.toList) ++ [0x22]) ++ attributeBytes rest := by
  have space : String.utf8EncodeChar ' ' = [0x20] := by decide
  have equals : String.utf8EncodeChar '=' = [0x3D] := by decide
  have quote : String.utf8EncodeChar '"' = [0x22] := by decide
  simp [attributeBytes, renderAttributes, Utf8.bytes, space, equals, quote]

/-- A byte of an escaped value is no quote. -/
theorem escape_bytes (text : List Char) :
    ∀ b ∈ Utf8.encode (escape text), b ≠ 0x3C ∧ b ≠ 0x22 := by
  intro b mem
  have lt := (Utf8.isClass_beq '<' (by decide)).not_mem
    (fun d (mem : d ∈ escape text) => by simp [(escape_plain text d mem).1]) b mem
  have quot := (Utf8.isClass_beq '"' (by decide)).not_mem
    (fun d (mem : d ∈ escape text) => by simp [(escape_plain text d mem).2.2.2]) b mem
  exact ⟨by simpa using lt, by simpa using quot⟩

theorem balanced_name {name : String} (h : isPlainName name = true) :
    Balanced (Utf8.bytes name) := by
  refine balanced_of_plain fun b mem => ?_
  obtain ⟨-, -, gt, quot, apos, -⟩ := isMarkByte_false ((bytes_plain h).2 b mem)
  exact ⟨gt, quot, apos⟩

theorem balanced_attributes {attributes : List Attribute}
    (h : attributes.all (isPlainName ·.name) = true) : Balanced (attributeBytes attributes) := by
  induction attributes with
  | nil => exact balanced_nil
  | cons a rest ih =>
      obtain ⟨plain, h⟩ := Bool.and_eq_true_iff.mp h
      rw [attributeBytes_cons]
      refine ((Balanced.append ?_ (balanced_byte (by decide))).append
        (balanced_quoted (.inl rfl) fun b mem => (escape_bytes _ b mem).2)).append (ih h)
      exact Balanced.append (s := [0x20]) (balanced_byte (by decide)) (balanced_name plain)

/-- Attributes begin with a blank and end with a quote. -/
theorem attributeBytes_ends (attributes : List Attribute) :
    attributeBytes attributes = [] ∨
      ∃ middle, attributeBytes attributes = 0x20 :: middle ++ [0x22] := by
  induction attributes with
  | nil => exact .inl rfl
  | cons a rest ih =>
      rw [attributeBytes_cons]
      rcases ih with none | ⟨middle, some⟩
      · rw [none]
        exact .inr ⟨Utf8.bytes a.name ++ [0x3D] ++
          (0x22 :: Utf8.encode (escape a.value.toList)), by simp⟩
      · rw [some]
        exact .inr ⟨Utf8.bytes a.name ++ [0x3D] ++
          (0x22 :: Utf8.encode (escape a.value.toList) ++ [0x22]) ++ 0x20 :: middle, by simp⟩

/-! ### Reading tags -/

/-- What can stand in a tag behind its name: a blank comes first, and no slash last. -/
structure IsInside (inside : Bytes) : Prop where
  balanced : Balanced inside
  parted : ∀ b ∈ inside.head?, isBlank b = true
  unclosed : inside.getLast? ≠ some 0x2F

theorem isInside_attributes {attributes : List Attribute}
    (h : attributes.all (isPlainName ·.name) = true) : IsInside (attributeBytes attributes) := by
  refine ⟨balanced_attributes h, ?_, ?_⟩
  all_goals rcases attributeBytes_ends attributes with none | ⟨middle, some⟩
  · simp [none]
  · simp [some, isBlank]
  · simp [none]
  · rw [some, List.getLast?_concat]
    decide

section Inside

variable {name : String} {inside : Bytes} (h : isPlainName name = true) (h' : IsInside inside)

include h h'

/-- The name of a tag is what stands in front of the first blank. -/
theorem tagName_plain :
    tagName (Utf8.bytes name ++ inside) = (Utf8.bytes name, inside) := by
  have unparted : ∀ b ∈ Utf8.bytes name, (!isBlank b) = true := fun b mem => by
    simp [(isMarkByte_false ((bytes_plain h).2 b mem)).1]
  have ended : inside.takeWhile (!isBlank ·) = [] := by
    cases bytes : inside with
    | nil => rfl
    | cons b more =>
        have blank := h'.parted b (by simp [bytes])
        exact List.takeWhile_cons_of_neg (by simp [blank])
  have taken : (Utf8.bytes name ++ inside).takeWhile (!isBlank ·) = Utf8.bytes name := by
    rw [List.takeWhile_append_of_pos unparted, ended, List.append_nil]
  rw [tagName]
  simp only [taken, List.drop_left]

/-- The last byte of a start tag is no slash. -/
theorem getLast?_tag : (Utf8.bytes name ++ inside).getLast? ≠ some 0x2F := by
  rcases List.eq_nil_or_concat inside with none | ⟨middle, last, some⟩
  · rw [none, List.append_nil]
    intro slash
    have := (isMarkByte_false ((bytes_plain h).2 _ (List.mem_of_getLast? slash))).2.2.2.2.2.1
    exact this rfl
  · have unclosed := h'.unclosed
    rw [List.concat_eq_append] at some
    rw [some, List.getLast?_concat] at unclosed
    rwa [some, ← List.append_assoc, List.getLast?_concat]

omit h' in
/-- The first byte of a plain name begins a start tag. -/
theorem readMarkup_name (opened : List Bytes) (rest : Bytes) :
    readMarkup opened (Utf8.bytes name ++ rest) = readStart opened (Utf8.bytes name ++ rest) := by
  obtain ⟨ne, plain⟩ := bytes_plain h
  obtain ⟨b, more, bytes⟩ := List.exists_cons_of_ne_nil ne
  obtain ⟨-, -, -, -, -, slash, bang, question⟩ :=
    isMarkByte_false (plain b (by simp [bytes]))
  rw [bytes, List.cons_append]
  simp [readMarkup, slash, bang, question]

theorem readMarkup_opening (opened : List Bytes) (rest : Bytes) :
    readMarkup opened (Utf8.bytes name ++ inside ++ 0x3E :: rest) =
      .ok (.start (Utf8.bytes name) inside, Utf8.bytes name :: opened, rest) := by
  rw [List.append_assoc, readMarkup_name h, readStart, ← List.append_assoc,
    ((balanced_name h).append h'.balanced).tagEnd]
  simp only [getLast?_tag h h', if_false, tagName_plain h h']

theorem readMarkup_closed (opened : List Bytes) (rest : Bytes) :
    readMarkup opened (Utf8.bytes name ++ inside ++ 0x2F :: 0x3E :: rest) =
      .ok (.empty (Utf8.bytes name) inside, opened, rest) := by
  have slash : Balanced [0x2F] := balanced_byte (by decide)
  have closed := (((balanced_name h).append h'.balanced).append slash).tagEnd rest
  rw [List.append_assoc _ [_], List.singleton_append] at closed
  rw [List.append_assoc, readMarkup_name h, readStart, ← List.append_assoc, closed]
  simp only [List.getLast?_concat, if_true, List.dropLast_concat, tagName_plain h h']

end Inside

theorem readMarkup_start {name : String} {attributes : List Attribute}
    (h : isPlainName name = true) (h' : attributes.all (isPlainName ·.name) = true)
    (opened : List Bytes) (rest : Bytes) :
    readMarkup opened (Utf8.bytes name ++ attributeBytes attributes ++ 0x3E :: rest) =
      .ok (.start (Utf8.bytes name) (attributeBytes attributes), Utf8.bytes name :: opened,
        rest) :=
  readMarkup_opening h (isInside_attributes h') opened rest

theorem readMarkup_empty {name : String} {attributes : List Attribute}
    (h : isPlainName name = true) (h' : attributes.all (isPlainName ·.name) = true)
    (opened : List Bytes) (rest : Bytes) :
    readMarkup opened (Utf8.bytes name ++ attributeBytes attributes ++ 0x2F :: 0x3E :: rest) =
      .ok (.empty (Utf8.bytes name) (attributeBytes attributes), opened, rest) :=
  readMarkup_closed h (isInside_attributes h') opened rest

/-- The name in an end tag, without the blanks behind it. -/
theorem endName_plain {name : String} (h : isPlainName name = true) {blanks : Bytes}
    (blank : ∀ b ∈ blanks, isBlank b = true) :
    endName (Utf8.bytes name ++ blanks) = Utf8.bytes name := by
  obtain ⟨ne, plain⟩ := bytes_plain h
  have inside : ∀ b ∈ (Utf8.bytes name).reverse, isBlank b = false :=
    fun b mem => (isMarkByte_false (plain b (List.mem_reverse.mp mem))).1
  obtain ⟨b, more, bytes⟩ := List.exists_cons_of_ne_nil ((List.reverse_ne_nil_iff).mpr ne)
  have first := inside b (by simp [bytes])
  have some : (Utf8.bytes name ++ blanks).all isBlank = false := by
    refine List.all_eq_false.mpr ⟨b, List.mem_append_left _ ?_, by simp [first]⟩
    exact List.mem_reverse.mp (by simp [bytes])
  rw [endName, some, if_neg Bool.false_ne_true, trimEnd, List.reverse_append,
    List.dropWhile_append_of_pos fun b mem => blank b (List.mem_reverse.mp mem), bytes,
    List.dropWhile_cons_of_neg (by simp [first]), ← bytes, List.reverse_reverse]

/-- An end tag, which may have blanks behind its name. -/
theorem readMarkup_ending {name : String} (h : isPlainName name = true) {blanks : Bytes}
    (blank : ∀ b ∈ blanks, isBlank b = true) (opened : List Bytes) (rest : Bytes) :
    readMarkup (Utf8.bytes name :: opened)
        (0x2F :: (Utf8.bytes name ++ blanks) ++ 0x3E :: rest) =
      .ok (.close (Utf8.bytes name), opened, rest) := by
  have slash : Balanced [0x2F] := balanced_byte (by decide)
  have closed := (slash.append ((balanced_name h).append (balanced_blanks blank))).tagEnd rest
  rw [List.singleton_append] at closed
  rw [List.cons_append] at closed ⊢
  simp only [readMarkup, readEnd, closed]
  simp [endName_plain h blank]

theorem readMarkup_end {name : String} (h : isPlainName name = true) (opened : List Bytes)
    (rest : Bytes) :
    readMarkup (Utf8.bytes name :: opened) (0x2F :: Utf8.bytes name ++ 0x3E :: rest) =
      .ok (.close (Utf8.bytes name), opened, rest) := by
  have read := readMarkup_ending h (List.forall_mem_nil _) opened rest
  rwa [List.append_nil] at read

/-! ### Events -/

/-- Events in front of those that are read later. -/
def prepend (before : List Event) (later : List Event × Option Fault) :
    List Event × Option Fault :=
  (before ++ later.1, later.2)

theorem prepend_prepend (before middle : List Event) (later : List Event × Option Fault) :
    prepend before (prepend middle later) = prepend (before ++ middle) later := by
  simp [prepend]

/-- The event of a text, unless it is blank. -/
def textEvents (text : String) : List Event :=
  let content := Blank.trimBy isBlank (Utf8.encode (escape text.toList))
  if content.isEmpty then [] else [.text content]

mutual
/-- The events of an element. -/
def Element.events : Element → List Event
  | .leaf name attributes text =>
    .start (Utf8.bytes name) (attributeBytes attributes) ::
      (textEvents text ++ [.close (Utf8.bytes name)])
  | .node name attributes children =>
    .start (Utf8.bytes name) (attributeBytes attributes) ::
      (eventsOfAll children ++ [.close (Utf8.bytes name)])
  | .empty name attributes => [.empty (Utf8.bytes name) (attributeBytes attributes)]

/-- The events of elements, one after the other. -/
def eventsOfAll : List Element → List Event
  | [] => []
  | e :: rest => e.events ++ eventsOfAll rest
end

theorem eventsOfAll_append (elements others : List Element) :
    eventsOfAll (elements ++ others) = eventsOfAll elements ++ eventsOfAll others := by
  induction elements with
  | nil => rfl
  | cons e rest ih => rw [List.cons_append, eventsOfAll, eventsOfAll, ih, List.append_assoc]

/-- Markup behind blanks is one event. -/
theorem eventsFrom_markup {blanks s rest : Bytes} {opened opened' : List Bytes} {event : Event}
    (blank : ∀ b ∈ blanks, isBlank b = true)
    (read : readMarkup opened s = .ok (event, opened', rest)) (fuel : Nat) :
    eventsFrom (fuel + 1) opened (blanks ++ 0x3C :: s) =
      prepend [event] (eventsFrom fuel opened' rest) := by
  have left : (blanks ++ 0x3C :: s).dropWhile isBlank = 0x3C :: s := by
    rw [List.dropWhile_append_of_pos blank]
    exact List.dropWhile_cons_of_neg (by decide)
  rw [eventsFrom, left]
  simp [read, prepend]

/-- The event of raw content, unless it is blank. -/
def contentEvents (content : Bytes) : List Event :=
  let kept := Blank.trimBy isBlank content
  if kept.isEmpty then [] else [.text kept]

/-- Raw content in front of markup: its event, if there is one, then that of the markup. -/
theorem eventsFrom_content {content : Bytes} (plain : ∀ b ∈ content, b ≠ 0x3C) {s rest : Bytes}
    {opened opened' : List Bytes} {event : Event}
    (read : readMarkup opened s = .ok (event, opened', rest)) (fuel : Nat) :
    eventsFrom (fuel + (contentEvents content ++ [event]).length) opened
        (content ++ 0x3C :: s) =
      prepend (contentEvents content ++ [event]) (eventsFrom fuel opened' rest) := by
  rw [contentEvents]
  by_cases blank : Blank.trimBy isBlank content = []
  · simp only [blank, List.isEmpty_nil, if_true, List.nil_append]
    exact eventsFrom_markup (Blank.trimBy_eq_nil_iff.mp blank) read fuel
  · obtain ⟨b, more, left⟩ : ∃ b more, content.dropWhile isBlank = b :: more := by
      refine List.exists_cons_of_ne_nil fun none => blank ?_
      rw [Blank.trimBy, none]
      rfl
    have kept : ∀ b' ∈ b :: more, b' ≠ 0x3C := fun b' mem =>
      plain b' ((List.dropWhile_sublist isBlank).subset (left ▸ mem))
    have left' : (content ++ 0x3C :: s).dropWhile isBlank = b :: more ++ 0x3C :: s := by
      rw [List.dropWhile_append, left]
      rfl
    have taken : (b :: more ++ 0x3C :: s).takeWhile (· != 0x3C) = b :: more := by
      rw [List.takeWhile_append_of_pos fun b' mem => by simp [kept b' mem]]
      simp
    have first : b ≠ 0x3C := kept b (by simp)
    have trimmed : trimEnd (b :: more) = Blank.trimBy isBlank content := by
      rw [Blank.trimBy, left]
      rfl
    have later := eventsFrom_markup (List.forall_mem_nil _) read fuel
    rw [List.nil_append] at later
    have filled : (Blank.trimBy isBlank content).isEmpty = false := by simp [blank]
    simp only [filled, Bool.false_eq_true, if_false, List.length_append, List.length_cons,
      List.length_nil]
    rw [← Nat.add_assoc, eventsFrom, left', List.cons_append]
    simp only [beq_iff_eq, first, if_false]
    rw [← List.cons_append, taken, List.drop_left, trimmed, later]
    rfl

/-- A text in front of markup: its event, if there is one, then that of the markup. -/
theorem eventsFrom_text (text : String) {s rest : Bytes} {opened opened' : List Bytes}
    {event : Event} (read : readMarkup opened s = .ok (event, opened', rest)) (fuel : Nat) :
    eventsFrom (fuel + (textEvents text ++ [event]).length) opened
        (Utf8.encode (escape text.toList) ++ 0x3C :: s) =
      prepend (textEvents text ++ [event]) (eventsFrom fuel opened' rest) :=
  eventsFrom_content (fun b mem => (escape_bytes text.toList b mem).1) read fuel

/-! ### Documents -/

theorem encode_startTag (name : String) (attributes : List Attribute) :
    Utf8.encode (startTag name attributes) =
      0x3C :: (Utf8.bytes name ++ attributeBytes attributes ++ [0x3E]) := by
  have open_ : String.utf8EncodeChar '<' = [0x3C] := by decide
  have close_ : String.utf8EncodeChar '>' = [0x3E] := by decide
  simp [startTag, attributeBytes, Utf8.bytes, open_, close_]

theorem encode_endTag (name : String) :
    Utf8.encode (endTag name) = 0x3C :: (0x2F :: Utf8.bytes name ++ [0x3E]) := by
  have open_ : String.utf8EncodeChar '<' = [0x3C] := by decide
  have slash : String.utf8EncodeChar '/' = [0x2F] := by decide
  have close_ : String.utf8EncodeChar '>' = [0x3E] := by decide
  simp [endTag, Utf8.bytes, open_, slash, close_]

theorem encode_emptyTag (name : String) (attributes : List Attribute) :
    Utf8.encode (emptyTag name attributes) =
      0x3C :: (Utf8.bytes name ++ attributeBytes attributes ++ [0x2F, 0x3E]) := by
  have open_ : String.utf8EncodeChar '<' = [0x3C] := by decide
  have slash : String.utf8EncodeChar '/' = [0x2F] := by decide
  have close_ : String.utf8EncodeChar '>' = [0x3E] := by decide
  simp [emptyTag, attributeBytes, Utf8.bytes, open_, slash, close_]

/-- The start of a line is blank. -/
theorem newLine_blank (depth : Nat) : ∀ b ∈ Utf8.encode (newLine depth), isBlank b = true := by
  intro b mem
  obtain ⟨c, mem, mem'⟩ := List.mem_flatMap.mp mem
  rw [isBlank_class c b mem']
  rcases List.mem_cons.mp mem with rfl | mem
  · rfl
  · rw [(List.mem_replicate.mp mem).2]
    rfl

section Lines

variable (depth : Nat) (name : String) (attributes : List Attribute) (rest : Bytes)

/-- The line of an element with a text: its start, the tag, the text, the end tag. -/
theorem encode_leaf (text : String) :
    Utf8.encode ((Element.leaf name attributes text).render depth) ++ rest =
      Utf8.encode (newLine depth) ++ 0x3C :: (Utf8.bytes name ++ attributeBytes attributes ++
        0x3E :: (Utf8.encode (escape text.toList) ++
          0x3C :: (0x2F :: Utf8.bytes name ++ 0x3E :: rest))) := by
  simp only [Element.render, Utf8.encode_append, encode_startTag, encode_endTag,
    List.append_assoc, List.cons_append, List.nil_append]

/-- The lines of an element with elements: its tag, those of the elements, the end tag. -/
theorem encode_node (children : List Element) :
    Utf8.encode ((Element.node name attributes children).render depth) ++ rest =
      Utf8.encode (newLine depth) ++ 0x3C :: (Utf8.bytes name ++ attributeBytes attributes ++
        0x3E :: (Utf8.encode (renderAll (depth + 1) children) ++
          (Utf8.encode (newLine depth) ++
            0x3C :: (0x2F :: Utf8.bytes name ++ 0x3E :: rest)))) := by
  simp only [Element.render, Utf8.encode_append, encode_startTag, encode_endTag,
    List.append_assoc, List.cons_append, List.nil_append]

/-- The line of an element that is closed at once. -/
theorem encode_empty :
    Utf8.encode ((Element.empty name attributes).render depth) ++ rest =
      Utf8.encode (newLine depth) ++ 0x3C :: (Utf8.bytes name ++ attributeBytes attributes ++
        0x2F :: 0x3E :: rest) := by
  simp only [Element.render, Utf8.encode_append, encode_emptyTag, List.append_assoc,
    List.cons_append, List.nil_append]

end Lines

mutual
/-- The lines of an element are read as its events. -/
theorem eventsFrom_element (e : Element) (plain : e.isPlain = true) (depth : Nat)
    (opened : List Bytes) (rest : Bytes) (fuel : Nat) :
    eventsFrom (fuel + e.events.length) opened (Utf8.encode (e.render depth) ++ rest) =
      prepend e.events (eventsFrom fuel opened rest) := by
  match e with
  | .leaf name attributes text =>
      obtain ⟨plain, plain'⟩ := Bool.and_eq_true_iff.mp plain
      rw [encode_leaf, Element.events, List.length_cons, ← Nat.add_assoc,
        eventsFrom_markup (newLine_blank depth) (readMarkup_start plain plain' opened _),
        eventsFrom_text text (readMarkup_end plain opened rest), prepend_prepend]
      rfl
  | .node name attributes children =>
      obtain ⟨plain, childrenPlain⟩ := Bool.and_eq_true_iff.mp plain
      obtain ⟨plain, plain'⟩ := Bool.and_eq_true_iff.mp plain
      have length : fuel + (Element.node name attributes children).events.length =
          fuel + 1 + (eventsOfAll children).length + 1 := by
        simp only [Element.events, List.length_cons, List.length_append, List.length_nil]
        omega
      rw [encode_node, length,
        eventsFrom_markup (newLine_blank depth) (readMarkup_start plain plain' opened _),
        eventsFrom_elements children childrenPlain,
        eventsFrom_markup (newLine_blank depth) (readMarkup_end plain opened rest),
        prepend_prepend, prepend_prepend, Element.events]
      rfl
  | .empty name attributes =>
      obtain ⟨plain, plain'⟩ := Bool.and_eq_true_iff.mp plain
      rw [encode_empty, Element.events]
      exact eventsFrom_markup (newLine_blank depth) (readMarkup_empty plain plain' opened rest)
        fuel

/-- The lines of elements are read as their events. -/
theorem eventsFrom_elements (elements : List Element) (plain : isPlainAll elements = true)
    (depth : Nat) (opened : List Bytes) (rest : Bytes) (fuel : Nat) :
    eventsFrom (fuel + (eventsOfAll elements).length) opened
        (Utf8.encode (renderAll depth elements) ++ rest) =
      prepend (eventsOfAll elements) (eventsFrom fuel opened rest) := by
  match elements with
  | [] => simp [eventsOfAll, renderAll, prepend]
  | e :: others =>
      obtain ⟨here, there⟩ := Bool.and_eq_true_iff.mp plain
      have length : fuel + (eventsOfAll (e :: others)).length =
          fuel + (eventsOfAll others).length + e.events.length := by
        simp only [eventsOfAll, List.length_append]
        omega
      rw [length, renderAll, Utf8.encode_append, List.append_assoc,
        eventsFrom_element e here, eventsFrom_elements others there, prepend_prepend,
        eventsOfAll]
end

/-- The first line of a document is one event. -/
theorem readMarkup_declaration (opened : List Bytes) (rest : Bytes) :
    ∃ inside, Utf8.encode declaration = 0x3C :: inside ∧
      readMarkup opened (inside ++ rest) = .ok (.other, opened, rest) := by
  refine ⟨Utf8.encode declaration.tail, by rfl, ?_⟩
  rfl

theorem length_textEvents (text : String) : (textEvents text).length ≤ 1 := by
  rw [textEvents]
  split
  · exact Nat.zero_le _
  · exact Nat.le_refl _

mutual
/-- An element has no more events than bytes. -/
theorem length_events_le (e : Element) (depth : Nat) :
    e.events.length ≤ (Utf8.encode (e.render depth)).length := by
  match e with
  | .leaf name attributes text =>
      have := length_textEvents text
      simp only [Element.events, Element.render, Utf8.encode_append, encode_startTag,
        encode_endTag, List.length_append, List.length_cons, List.length_nil]
      omega
  | .node name attributes children =>
      have := length_eventsOfAll_le children (depth + 1)
      simp only [Element.events, Element.render, Utf8.encode_append, encode_startTag,
        encode_endTag, List.length_append, List.length_cons, List.length_nil]
      omega
  | .empty name attributes =>
      simp only [Element.events, Element.render, Utf8.encode_append, encode_emptyTag,
        List.length_append, List.length_cons, List.length_nil]
      omega

theorem length_eventsOfAll_le (elements : List Element) (depth : Nat) :
    (eventsOfAll elements).length ≤ (Utf8.encode (renderAll depth elements)).length := by
  match elements with
  | [] => exact Nat.zero_le _
  | e :: others =>
      have := length_events_le e depth
      have := length_eventsOfAll_le others depth
      simp only [eventsOfAll, renderAll, Utf8.encode_append, List.length_append]
      omega
end

theorem eventsFrom_nil (fuel : Nat) (opened : List Bytes) :
    eventsFrom fuel opened [] = ([], none) := by
  cases fuel with
  | zero => rfl
  | succ fuel => rfl

/-- The document of an element is read as the events of the element, without a fault. -/
theorem events_documentBytes {root : Element} (plain : root.isPlain = true) :
    events (documentBytes root) = (.other :: root.events, none) := by
  obtain ⟨inside, declared, read⟩ :=
    readMarkup_declaration [] (Utf8.encode (root.render 0))
  have bytes : documentBytes root = 0x3C :: (inside ++ Utf8.encode (root.render 0)) := by
    rw [documentBytes, document, Utf8.encode_append, declared, List.cons_append]
  -- The bytes are enough steps: one for the first line, and one for each event.
  obtain ⟨fuel, enough⟩ : ∃ fuel,
      (documentBytes root).length = fuel + root.events.length + 1 := by
    refine ⟨(documentBytes root).length - (root.events.length + 1), ?_⟩
    have := length_events_le root 0
    rw [bytes, List.length_cons, List.length_append]
    omega
  have unmarked : (Split.behind? [0xEF, 0xBB, 0xBF] (documentBytes root)).getD
      (documentBytes root) = documentBytes root := by
    rw [bytes]
    rfl
  have first := eventsFrom_markup (List.forall_mem_nil _) read (fuel + root.events.length)
  have later := eventsFrom_element root plain 0 [] [] fuel
  rw [List.append_nil] at later
  rw [events]
  simp only [unmarked]
  rw [enough, bytes, ← List.nil_append (0x3C :: _), first, later, eventsFrom_nil]
  simp [prepend]

end Deposit.Xml
