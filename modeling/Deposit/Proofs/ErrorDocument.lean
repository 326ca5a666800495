import Deposit.Proofs.Xml.Layout
import Deposit.Repository.ErrorDocument

/-!
What is reported from an error document.

A document may be written in any layout (`Document`): with a declaration or none, with attributes
in any order, and with other children in front of and behind the description. Only a description
that is closed at once makes a difference: the reader takes it for one that is open up to the end,
and so the texts behind it for the description.

* `parse_body`: what is read from a document.
* `reported_description_iff`: when it is what the description says, and no other text counts.
-/

namespace Deposit.ErrorDocument

open Xml

/-! ### Documents -/

/-- A child of the error that is no error and no description. -/
structure Bystander where
  name : String
  plain : isPlainName name = true := by decide
  other : name ≠ "error" ∧ name ≠ "description" := by decide
  element : WrittenElement

/-- What stands between the marks of a declaration. -/
structure Declaration where
  inside : List Char
  unclosed : '>' ∉ inside := by decide

/-- An error document with at most one description. -/
structure Document where
  declaration : Option Declaration
  lead : Blanks
  /-- The attributes of the error. -/
  root : WrittenTag
  distinct : (root.attributes.map (·.name)).Nodup := by decide
  name : String
  named : ∃ a ∈ root.attributes, a.name = "name" ∧ a.value = name
  before : List Bystander
  description : Option WrittenElement
  behind : List Bystander
  /-- In front of the last tag, in it, and behind it. -/
  tail : Blanks
  gap : Blanks
  trail : Blanks

/-- The text of a bystander. -/
def Bystander.text (b : Bystander) : List Char := b.element.text b.name

/-- The events of a bystander. -/
def Bystander.events (b : Bystander) : List Xml.Event := b.element.events b.name

/-- The text of a declaration. -/
def Declaration.text (d : Declaration) : List Char := "<?xml".toList ++ d.inside ++ ['?', '>']

namespace Document

variable (d : Document)

/-- The children of the error. -/
def childText : List Char :=
  d.before.flatMap (·.text) ++ d.description.elim [] (·.text "description") ++
    d.behind.flatMap (·.text)

/-- The text of a document up to the end of its last tag. -/
def markup : List Char :=
  d.declaration.elim [] (·.text) ++
    (d.lead.chars ++ '<' :: "error".toList ++ d.root.text ++ ['>']) ++ d.childText ++
    (d.tail.chars ++ ['<', '/'] ++ "error".toList ++ d.gap.chars ++ ['>'])

/-- The text of a document. -/
def text : List Char := d.markup ++ d.trail.chars

/-- A document as the body of an answer. -/
def body : String := String.ofList d.text

/-- The events of the children. -/
def childEvents : List Xml.Event :=
  d.before.flatMap (·.events) ++ d.description.elim [] (·.events "description") ++
    d.behind.flatMap (·.events)

/-- The events of a document. -/
def events : List Xml.Event :=
  d.declaration.elim [] (fun _ => [.other]) ++
    [.start (Utf8.bytes "error") (Utf8.encode d.root.text)] ++ d.childEvents ++
    [.close (Utf8.bytes "error")]

/-- A document begins with a blank or with a tag. -/
theorem head_text : ∀ c ∈ d.text.head?, c.toNat < 0x80 := by
  have blank : ∀ c, isBlankChar c = true → c.toNat < 0x80 := by
    intro c blank
    simp only [isBlankChar, Bool.or_eq_true, beq_iff_eq] at blank
    rcases blank with ((rfl | rfl) | rfl) | rfl
    all_goals decide
  intro c first
  rw [text, markup] at first
  cases declared : d.declaration with
  | some declaration =>
      rw [declared] at first
      cases first
      decide
  | none =>
      cases chars : d.lead.chars with
      | nil =>
          rw [declared, chars] at first
          cases first
          decide
      | cons b more =>
          rw [declared, chars] at first
          cases first
          exact blank _ (d.lead.blank _ (by simp [chars]))

end Document

/-! ### Events of documents -/

/-- The end of an instruction is the first one behind a question mark. -/
theorem atEnd?_question {front : Bytes} (unclosed : ∀ b ∈ front, b ≠ 0x3E) (before rest : Bytes) :
    atEnd? [0x3F] 0 before (front ++ 0x3F :: 0x3E :: rest) =
      some (before.reverse ++ front ++ [0x3F], rest) := by
  induction front generalizing before with
  | nil => simp [atEnd?]
  | cons b front ih =>
      obtain ⟨here, there⟩ := List.forall_mem_cons.mp unclosed
      rw [List.cons_append, atEnd?]
      simp [here, ih there]

theorem readsAs_declaration (d : Declaration) (opened : List Bytes) :
    ReadsAs opened (Utf8.encode d.text) [.other] opened := by
  have front : Utf8.encode "<?xml".toList = [0x3C, 0x3F, 0x78, 0x6D, 0x6C] := by rfl
  have ending : Utf8.encode ['?', '>'] = [0x3F, 0x3E] := by rfl
  have parts : Utf8.encode d.text = Utf8.encode Blanks.none.chars ++
      0x3C :: (0x3F :: ([0x78, 0x6D, 0x6C] ++ Utf8.encode d.inside ++ [0x3F, 0x3E])) := by
    rw [Declaration.text, Utf8.encode_append, Utf8.encode_append, front, ending]
    rfl
  have absent := (Utf8.isClass_beq '>' (by decide)).not_mem
    fun c (mem : c ∈ d.inside) => beq_eq_false_iff_ne.mpr fun same => d.unclosed (same ▸ mem)
  have unclosed : ∀ b ∈ [0x3F, 0x78, 0x6D, 0x6C] ++ Utf8.encode d.inside, b ≠ 0x3E := by
    refine List.forall_mem_append.mpr ⟨fun b mem same => ?_, fun b mem => ?_⟩
    · exact absurd (same ▸ mem) (by decide)
    · simpa using absent b mem
  rw [parts]
  refine readsAs_markup Blanks.none fun rest => ?_
  have ended := atEnd?_question unclosed [] rest
  simp only [List.cons_append, List.nil_append, List.append_assoc, List.reverse_nil] at ended ⊢
  simp [readMarkup, readInstruction, ended]

theorem readsAs_bystanders (bystanders : List Bystander) (opened : List Bytes) :
    ReadsAs opened (Utf8.encode (bystanders.flatMap (·.text)))
      (bystanders.flatMap (·.events)) opened := by
  have bytes : Utf8.encode (bystanders.flatMap (·.text)) =
      bystanders.flatMap fun b => Utf8.encode b.text := List.flatMap_assoc
  rw [bytes]
  exact readsAs_flatMap fun b _ => readsAs_element b.plain b.element opened

theorem readsAs_description (description : Option WrittenElement) (opened : List Bytes) :
    ReadsAs opened (Utf8.encode (description.elim [] (·.text "description")))
      (description.elim [] (·.events "description")) opened := by
  cases description with
  | none => exact readsAs_nil opened
  | some e => exact readsAs_element (by decide) e opened

/-- The last tag of a document. -/
theorem readsAs_ending (tail gap : Blanks) :
    ReadsAs [Utf8.bytes "error"]
      (Utf8.encode (tail.chars ++ ['<', '/'] ++ "error".toList ++ gap.chars ++ ['>']))
      [.close (Utf8.bytes "error")] [] := by
  have front : Utf8.encode ['<', '/'] = [0x3C, 0x2F] := by rfl
  have ending : Utf8.encode ['>'] = [0x3E] := by rfl
  have parts : Utf8.encode (tail.chars ++ ['<', '/'] ++ "error".toList ++ gap.chars ++ ['>']) =
      Utf8.encode tail.chars ++
        0x3C :: (0x2F :: (Utf8.bytes "error" ++ Utf8.encode gap.chars ++ [0x3E])) := by
    rw [Utf8.encode_append, Utf8.encode_append, Utf8.encode_append, Utf8.encode_append, front,
      ending, Utf8.bytes]
    simp only [List.append_assoc, List.cons_append, List.nil_append]
  rw [parts]
  exact readsAs_markup tail (readMarkup_written (by decide) gap [])

/-- A document is read as its events, without a fault. -/
theorem events_body (d : Document) : Xml.events (Utf8.bytes d.body) = (d.events, none) := by
  have declared : ReadsAs [] (Utf8.encode (d.declaration.elim [] (·.text)))
      (d.declaration.elim [] fun _ => [.other]) [] := by
    cases d.declaration with
    | none => exact readsAs_nil []
    | some declaration => exact readsAs_declaration declaration []
  have opening := @readsAs_opening "error" (by decide) d.lead d.root []
  have children := ((readsAs_bystanders d.before [Utf8.bytes "error"]).append
    (readsAs_description d.description [Utf8.bytes "error"])).append
      (readsAs_bystanders d.behind [Utf8.bytes "error"])
  have whole := ((declared.append opening).append children).append
    (readsAs_ending d.tail d.gap)
  simp only [← Utf8.encode_append] at whole
  rw [Document.body, Utf8.bytes, String.toList_ofList]
  exact events_of_readsAs whole d.trail d.head_text

/-! ### Reading events -/

theorem readEvents_append (reading : Reading) (events later : List Xml.Event) :
    readEvents reading (events ++ later) =
      (readEvents reading events).bind (readEvents · later) := by
  induction events generalizing reading with
  | nil => rfl
  | cons event rest ih =>
      rw [List.cons_append, readEvents, readEvents]
      cases step reading event with
      | none => rfl
      | some next => exact ih next

/-- What a raw text says: the text without the blanks around it, with the entities replaced;
`none` if one of them is unknown. -/
def said? (text : List Char) : Option String :=
  (unescape (Blank.trimBy isBlankChar text)).toOption.map String.ofList

/-- Whether there is nothing but blanks in a text. -/
def isSilent (text : List Char) : Bool := text.all isBlankChar

theorem isSilent_iff {text : List Char} :
    isSilent text = true ↔ Blank.trimBy isBlankChar text = [] := by
  rw [isSilent, List.all_eq_true, Blank.trimBy_eq_nil_iff]

/-- A text says nothing exactly if there is nothing but blanks in it. -/
theorem said?_eq_empty_iff {text : List Char} : said? text = some "" ↔ isSilent text = true := by
  rw [isSilent_iff, said?]
  generalize Blank.trimBy isBlankChar text = kept
  cases read : unescape kept with
  | error fault =>
      have filled : kept ≠ [] := by
        rintro rfl
        rw [show unescape [] = .ok [] from unescape_escape []] at read
        cases read
      simp [Except.toOption, filled]
  | ok cs =>
      rw [← unescape_eq_nil_iff, read]
      simp [Except.toOption]

theorem readable_content (content : Content) :
    readable (Blank.trimBy isBlank content.bytes) = said? content.text := by
  rw [Content.bytes, Utf8.trimBy_encode isBlank_class, readable, readText, Utf8.decode_encode,
    said?]
  cases read : unescape (Blank.trimBy isBlankChar content.text) with
  | error fault => simp [read, Except.toOption]
  | ok text => simp [read, Except.toOption]

/-- The content makes an event unless it is silent. -/
theorem contentEvents_bytes (content : Content) :
    contentEvents content.bytes =
      if isSilent content.text then [] else [.text (Blank.trimBy isBlank content.bytes)] := by
  have silent : (Blank.trimBy isBlank content.bytes).isEmpty = isSilent content.text := by
    rw [Bool.eq_iff_iff, List.isEmpty_iff, isSilent_iff, Content.bytes,
      Utf8.trimBy_encode isBlank_class, Utf8.encode_eq_nil_iff]
  rw [contentEvents, silent]

/-- What becomes of the description where a text stands in it. -/
def hear (description : String) (text : List Char) : Option String :=
  if isSilent text then some description else said? text

theorem readEvents_content (reading : Reading) (content : Content) :
    readEvents reading (contentEvents content.bytes) =
      if reading.describing then
        (hear reading.description content.text).map fun text => { reading with description := text }
      else some reading := by
  obtain ⟨name, description, describing⟩ := reading
  rw [contentEvents_bytes, hear]
  cases isSilent content.text with
  | true => cases describing <;> rfl
  | false =>
      rw [if_neg Bool.false_ne_true, if_neg Bool.false_ne_true, ← readable_content]
      cases describing with
      | false => rfl
      | true =>
          cases read : readable (Blank.trimBy isBlank content.bytes) with
          | none => simp [readEvents, step, read]
          | some text => simp [readEvents, step, read]

theorem openTag_bystander (reading : Reading) (b : Bystander) (attributes : Bytes) :
    openTag reading (Utf8.bytes b.name) attributes = reading := by
  obtain ⟨error, description⟩ := b.other
  simp [openTag, Utf8.bytes_inj, error, description]

/-- What becomes of the description where a bystander stands in it. -/
def hearBystander (description : String) (b : Bystander) : Option String :=
  match b.element.content with
  | none => some description
  | some content => hear description content.text

/-- A bystander changes nothing unless it stands in a description. -/
theorem readEvents_bystander (reading : Reading) (b : Bystander) :
    readEvents reading b.events =
      if reading.describing then
        (hearBystander reading.description b).map fun text => { reading with description := text }
      else some reading := by
  have other : Utf8.bytes b.name ≠ Utf8.bytes "description" :=
    fun same => b.other.2 (Utf8.bytes_inj.mp same)
  rw [Bystander.events, WrittenElement.events, hearBystander]
  cases b.element.content with
  | none =>
      obtain ⟨name, description, describing⟩ := reading
      cases describing <;> simp [readEvents, step, openTag_bystander]
  | some content =>
      have closing : ∀ reading : Reading,
          readEvents reading [.close (Utf8.bytes b.name)] = some reading := by
        intro reading
        simp [readEvents, step, other]
      simp only [readEvents, step, openTag_bystander, Option.bind_some]
      rw [readEvents_append, readEvents_content]
      cases reading.describing with
      | false => simp [closing]
      | true =>
          simp only [if_true]
          cases hear reading.description content.text with
          | none => rfl
          | some text => exact closing _

/-- The texts of bystanders that are not silent. -/
def voices (bystanders : List Bystander) : List (List Char) :=
  (bystanders.filterMap fun b => b.element.content.map (·.text)).filter (!isSilent ·)

/-- What is heard where bystanders stand in a description: the last of what they say, if all of it
can be read. -/
def overheard? (description : String) (bystanders : List Bystander) : Option String :=
  ((voices bystanders).mapM said?).map (·.getLastD description)

theorem foldlM_hearBystander (description : String) (bystanders : List Bystander) :
    bystanders.foldlM hearBystander description = overheard? description bystanders := by
  induction bystanders generalizing description with
  | nil => rfl
  | cons b rest ih =>
      rw [List.foldlM_cons, overheard?, voices, hearBystander]
      cases content : b.element.content with
      | none =>
          simp only [List.filterMap_cons, content, Option.map_none]
          rw [← voices, ← overheard?, ← ih]
          rfl
      | some content' =>
          simp only [List.filterMap_cons, content, Option.map_some, List.filter_cons]
          rw [← voices, hear]
          cases isSilent content'.text with
          | true =>
              rw [if_pos rfl, if_neg (by decide), ← overheard?, ← ih]
              rfl
          | false =>
              rw [if_neg (by decide), if_pos (by decide), List.mapM_cons]
              cases said? content'.text with
              | none => rfl
              | some text =>
                  simp only [Option.bind_eq_bind, Option.bind_some, ih, overheard?]
                  cases (voices rest).mapM said? with
                  | none => rfl
                  | some texts => exact congrArg some (List.getLastD_cons ..).symm

theorem readEvents_bystanders (reading : Reading) (bystanders : List Bystander) :
    readEvents reading (bystanders.flatMap (·.events)) =
      if reading.describing then
        (overheard? reading.description bystanders).map fun text =>
          { reading with description := text }
      else some reading := by
  rw [← foldlM_hearBystander]
  induction bystanders generalizing reading with
  | nil =>
      obtain ⟨name, description, describing⟩ := reading
      cases describing <;> rfl
  | cons b rest ih =>
      rw [List.flatMap_cons, readEvents_append, readEvents_bystander, List.foldlM_cons]
      cases describing : reading.describing with
      | false => simp [ih, describing]
      | true =>
          simp only [if_true]
          cases hearBystander reading.description b with
          | none => rfl
          | some text => simp [ih]

/-- A description that stands open holds what its text says. -/
theorem hear_empty (text : List Char) : hear "" text = said? text := by
  rw [hear]
  cases silent : isSilent text with
  | true => rw [if_pos rfl, said?_eq_empty_iff.mpr silent]
  | false => rw [if_neg Bool.false_ne_true]

/-! ### What is reported -/

/-- The value of the attribute with a name is found in a tag. -/
theorem lookup_written {attributes : List WrittenAttribute}
    (distinct : (attributes.map (·.name)).Nodup) {a : WrittenAttribute} (mem : a ∈ attributes) :
    (attributes.map fun a => (Utf8.bytes a.name, valueBytes a.value)).lookup (Utf8.bytes a.name) =
      some (valueBytes a.value) := by
  obtain ⟨front, rest, rfl⟩ := List.append_of_mem mem
  refine List.lookup_eq_some_iff.mpr ⟨_, _, by rw [List.map_append, List.map_cons], ?_⟩
  intro pair inFront
  obtain ⟨a', mem', rfl⟩ := List.mem_map.mp inFront
  rw [List.map_append, List.nodup_append] at distinct
  have other := distinct.2.2 a'.name (List.mem_map_of_mem mem') a.name (by simp)
  simpa [Utf8.bytes_inj] using Ne.symm other

theorem openTag_root (d : Document) :
    openTag .start (Utf8.bytes "error") (Utf8.encode d.root.text) = ⟨some d.name, "", false⟩ := by
  obtain ⟨a, mem, key, value⟩ := d.named
  have found := lookup_written d.distinct mem
  rw [key, value] at found
  rw [openTag, if_pos rfl, attributes_written d.distinct, found]
  simp [readable, readText_valueBytes, Reading.start]

/-- The description that is reported from a document. -/
def Document.reported? (d : Document) : Option String :=
  match d.description with
  | none => some ""
  | some description =>
    match description.content with
    | some content => said? content.text
    | none => overheard? "" d.behind

/-- The children of a document decide on the description. -/
theorem readEvents_children (d : Document) (name : Option String) :
    (readEvents ⟨name, "", false⟩ d.childEvents).map (fun r => (r.name, r.description)) =
      d.reported?.map (name, ·) := by
  rw [Document.childEvents, readEvents_append, readEvents_append, readEvents_bystanders,
    Document.reported?]
  have other : Utf8.bytes "description" ≠ Utf8.bytes "error" := by decide
  simp only [Bool.false_eq_true, if_false, Option.bind_some]
  cases d.description with
  | none =>
      simp [readEvents, readEvents_bystanders]
  | some description =>
      simp only [Option.elim_some, WrittenElement.events]
      cases description.content with
      | none =>
          simp [readEvents, step, openTag, other, readEvents_bystanders, Function.comp_def]
      | some content =>
          simp only [readEvents, step, openTag, other, if_false, if_true, Option.bind_some]
          rw [readEvents_append, readEvents_content]
          simp only [if_true, hear_empty]
          cases said? content.text with
          | none => rfl
          | some text => simp [readEvents, step, readEvents_bystanders]

/-- **What is read from a document**: the name, and the description that is reported. -/
theorem parse_body (d : Document) : parse d.body = d.reported?.map (d.name, ·) := by
  have declared : readEvents .start (d.declaration.elim [] fun _ => [.other]) = some .start := by
    cases d.declaration <;> rfl
  have closing : ∀ reading : Reading,
      readEvents reading [.close (Utf8.bytes "error")] = some reading := by
    intro reading
    have other : Utf8.bytes "error" ≠ Utf8.bytes "description" := by decide
    simp [readEvents, step, other]
  have children := readEvents_children d (some d.name)
  have whole : readEvents .start d.events =
      readEvents ⟨some d.name, "", false⟩ d.childEvents := by
    rw [Document.events, readEvents_append, readEvents_append, readEvents_append, declared,
      Option.bind_some]
    simp only [readEvents, step, openTag_root, Option.bind_some]
    cases readEvents ⟨some d.name, "", false⟩ d.childEvents with
    | none => rfl
    | some reading => exact closing reading
  rw [parse, events_body]
  simp only [whole]
  cases read : readEvents ⟨some d.name, "", false⟩ d.childEvents with
  | none =>
      rw [read] at children
      cases reported : d.reported? with
      | none => rfl
      | some text => simp [reported] at children
  | some reading =>
      rw [read] at children
      cases reported : d.reported? with
      | none => simp [reported] at children
      | some text =>
          simp only [reported, Option.map_some, Option.some.injEq, Prod.mk.injEq] at children
          simp [children]

/-- The raw text in the description; none if there is no description, or one without content. -/
def Document.content (d : Document) : List Char :=
  ((d.description.bind (·.content)).map (·.text)).getD []

/-- Whether the description is closed at once, and something is said behind it. -/
def Document.leaks (d : Document) : Bool :=
  d.description.any (·.content.isNone) && !(voices d.behind).isEmpty

theorem reported?_of_leaks {d : Document} (leaks : d.leaks = true) :
    d.reported? = overheard? "" d.behind ∧ d.content = [] ∧ voices d.behind ≠ [] := by
  obtain ⟨closed, some⟩ := Bool.and_eq_true_iff.mp leaks
  obtain ⟨description, there, none⟩ := (Option.any_eq_true _ _).mp closed
  have none := Option.isNone_iff_eq_none.mp none
  refine ⟨?_, ?_, by simpa using some⟩
  · rw [Document.reported?, there]
    simp only [none]
  · rw [Document.content, there, Option.bind_some, none]
    rfl

theorem reported?_of_not_leaks {d : Document} (sound : d.leaks = false) :
    d.reported? = said? d.content := by
  have nothing : said? [] = some "" := said?_eq_empty_iff.mpr rfl
  rw [Document.reported?, Document.content]
  cases there : d.description with
  | none => exact nothing.symm
  | some description =>
      cases content : description.content with
      | some content => simp [content]
      | none =>
          have silent : voices d.behind = [] := by
            simpa [Document.leaks, there, content] using sound
          simp [content, overheard?, silent, nothing]

theorem said?_ne_empty {description : String} {texts : List (List Char)}
    (loud : ∀ text ∈ texts, isSilent text = false) (some_ : description ≠ "" ∨ texts ≠ []) :
    (texts.mapM said?).map (·.getLastD description) ≠ some "" := by
  induction texts generalizing description with
  | nil => simpa using some_
  | cons text rest ih =>
      obtain ⟨here, there⟩ := List.forall_mem_cons.mp loud
      rw [List.mapM_cons]
      cases said : said? text with
      | none => simp
      | some heard =>
          have filled : heard ≠ "" := by
            rintro rfl
            rw [said?_eq_empty_iff.mp said] at here
            cases here
          have later := ih there (.inl filled)
          cases read : rest.mapM said? with
          | none => simp
          | some others =>
              rw [read] at later
              simpa only [Option.bind_eq_bind, Option.bind_some, Option.pure_def,
                Option.map_some, List.getLastD_cons] using later

/-- What is overheard is not nothing. -/
theorem overheard?_ne_empty {bystanders : List Bystander} (some_ : voices bystanders ≠ []) :
    overheard? "" bystanders ≠ some "" := by
  refine said?_ne_empty (fun text mem => ?_) (.inr some_)
  simpa using (List.mem_filter.mp mem).2

/-- **Which description is reported.** From a document whose description is not closed at once, or
has only silence behind it, what the description says is reported with the name, and nothing else
counts: documents with the same content there report the same. A description that is closed at
once is reported as the last of what is said behind it, though it is empty. So an empty or absent
description is reported as empty exactly if it does not leak. -/
theorem reported_description_iff (d : Document) :
    (d.leaks = false → parse d.body = (said? d.content).map (d.name, ·) ∧
      ∀ d' : Document, d'.leaks = false → d'.content = d.content →
        (parse d'.body).map (·.2) = (parse d.body).map (·.2)) ∧
    (d.leaks = true → d.content = [] ∧
      parse d.body = (overheard? "" d.behind).map (d.name, ·)) ∧
    (isSilent d.content = true →
      ((parse d.body).map (·.2) = some "" ↔ d.leaks = false)) := by
  have sound : ∀ d : Document, d.leaks = false →
      parse d.body = (said? d.content).map (d.name, ·) :=
    fun d sound => by rw [parse_body, reported?_of_not_leaks sound]
  have description : ∀ d : Document, (parse d.body).map (·.2) = d.reported? := fun d => by
    rw [parse_body, Option.map_map]
    exact Option.map_id' ..
  refine ⟨fun here => ⟨sound d here, fun d' there same => ?_⟩, fun leaks => ?_, fun silent => ?_⟩
  · rw [description, description, reported?_of_not_leaks here, reported?_of_not_leaks there, same]
  · obtain ⟨reported, none, -⟩ := reported?_of_leaks leaks
    exact ⟨none, by rw [parse_body, reported]⟩
  · rw [description]
    cases leaks : d.leaks with
    | true =>
        obtain ⟨reported, -, voices⟩ := reported?_of_leaks leaks
        simpa [reported] using overheard?_ne_empty voices
    | false =>
        rw [reported?_of_not_leaks leaks, said?_eq_empty_iff.mpr silent]
        simp

/-- A description that is closed at once takes what is said behind it. -/
theorem closed_description_leaks :
    parse "<error name=\"X\"><description/><detail>leaked</detail></error>" =
      some ("X", "leaked") := by
  decide +kernel

end Deposit.ErrorDocument
