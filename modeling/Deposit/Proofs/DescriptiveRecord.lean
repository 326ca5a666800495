import Deposit.DescriptiveRecord
import Deposit.Proofs.Text.Tags
import Deposit.Proofs.Xml.Grammar
import Mathlib.Algebra.Group.Nat.Defs

/-!
The round trip of descriptive records: the entries that a record was written with are
read back (`readEntries_document`).

Reading goes over the events of the record one by one. What a part of the events does to
the state, whatever follows it, is what it *consumes* (`Consumes`, and `Turns` for any tag
before it): the elements in front of the entries leave no trace, however their texts may
look (`turns_of_holdsNone`), and the element of an entry completes the entry, in its normal
form (`turns_entry`).
-/

namespace Deposit

/-- The form in which an entry is read back: its texts without the blanks around them,
and its description without tags. -/
def ObjectEntry.normal (entry : ObjectEntry) : ObjectEntry where
  name := Xml.trimmed entry.name
  description := Xml.trimmed (Tags.stripText entry.description)
  size := entry.size
  format := Xml.trimmed entry.format

/-- A name or an address that is there, and not of blanks alone. -/
def Publisher.Has (field : Option String) : Prop :=
  ∃ text, field = some text ∧ Blank.isBlankText text = false

/-- A user with both names and an address can publish. -/
theorem Publisher.ofUser_ok {user : User} (firstName : Has user.firstName)
    (lastName : Has user.lastName) (email : Has user.email) :
    ∃ publisher, ofUser user = .ok publisher := by
  have found : ∀ {field : Option String}, Has field → ∃ text, present? field = some text := by
    rintro field ⟨text, rfl, visible⟩
    rw [present?, Option.bind_some]
    exact ⟨Blank.trim text, Blank.present?_eq_some visible⟩
  obtain ⟨first, isFirst⟩ := found firstName
  obtain ⟨last, isLast⟩ := found lastName
  obtain ⟨address, isAddress⟩ := found email
  exact ⟨⟨first, last, address⟩, by rw [ofUser, isFirst, isLast, isAddress]⟩

namespace DescriptiveRecord

/-! ### Sizes -/

theorem value?_digitChar {d : Nat} (h : d < 10) : Hex.value? (Nat.digitChar d) = some d := by
  revert d
  decide

theorem readNumber_append (base bits : Nat) (before after : List Char) :
    ∀ n, Xml.readNumber base bits n (before ++ after) =
      (Xml.readNumber base bits n before).bind fun m => Xml.readNumber base bits m after := by
  induction before with
  | nil =>
      intro n
      rfl
  | cons c rest ih =>
      intro n
      rw [List.cons_append, Xml.readNumber, Xml.readNumber]
      cases Hex.value? c with
      | none => rfl
      | some d =>
          by_cases digit : base ≤ d
          · simp [digit, Except.bind]
          · by_cases small : base * n + d < 2 ^ bits
            · simp [digit, small, ih]
            · simp [digit, small, Except.bind]

/-- The digits of a number are read as the number. -/
theorem readNumber_toDigits {bits n : Nat} (small : n < 2 ^ bits) :
    Xml.readNumber 10 bits 0 (Nat.toDigits 10 n) = .ok n := by
  induction n using Nat.strongRecOn with
  | ind n ih =>
      by_cases single : n < 10
      · rw [Nat.toDigits_of_lt_base single, Xml.readNumber, value?_digitChar single]
        simp [Nat.not_le.mpr single, small, Xml.readNumber]
      · have last : n % 10 < 10 := Nat.mod_lt _ (by decide)
        have digits := Nat.div_add_mod n 10
        rw [Nat.toDigits_of_base_le (by decide) (by omega), readNumber_append,
          ih (n / 10) (by omega) (by omega)]
        simp only [Except.bind]
        rw [Xml.readNumber, value?_digitChar last]
        simp [Nat.not_le.mpr last, digits, small, Xml.readNumber]

/-- A size is read back. -/
theorem size?_toString {n : Nat} (small : n < 2 ^ 64) : size? (toString n) = some n := by
  have chars : (toString n).toList = Nat.toDigits 10 n := Nat.toList_repr
  obtain ⟨c, rest, digits⟩ := List.exists_cons_of_ne_nil (Nat.toDigits_ne_nil (n := n) (b := 10))
  have digit : c.isDigit = true :=
    Nat.isDigit_of_mem_toDigits (b := 10) (n := n) (by decide) (by decide) (by simp [digits])
  have unsigned : c ≠ '+' := by
    rintro rfl
    cases digit
  have read := readNumber_toDigits small
  rw [digits] at read
  rw [size?, chars, digits]
  simp [unsigned, read]

theorem isBlankChar_of_isDigit {c : Char} (h : c.isDigit = true) : Xml.isBlankChar c = false := by
  rw [Xml.isBlankChar, Bool.or_eq_false_iff, Bool.or_eq_false_iff, Bool.or_eq_false_iff]
  refine ⟨⟨⟨?_, ?_⟩, ?_⟩, ?_⟩
  all_goals
    rw [beq_eq_false_iff_ne]
    rintro rfl
    cases h

/-- Nothing is cut off from a written size. -/
theorem trimmed_toString (n : Nat) : Xml.trimmed (toString n) = toString n := by
  have chars : (toString n).toList = Nat.toDigits 10 n := Nat.toList_repr
  rw [Xml.trimmed, Blank.trimBy_eq_self, String.ofList_toList]
  intro c mem
  rw [chars] at mem
  exact isBlankChar_of_isDigit (Nat.isDigit_of_mem_toDigits (by decide) (by decide) mem)

/-! ### Consuming events -/

/-- Events that complete entries and lead from one state of reading to another, whatever
follows them. -/
def Consumes (before : Reading) (events : List Xml.Event) (entries : List ObjectEntry)
    (after : Reading) : Prop :=
  ∀ rest, entriesOf before (events ++ rest) = (entriesOf after rest).map (entries ++ ·)

theorem consumes_nil (state : Reading) : Consumes state [] [] state := by
  intro rest
  rw [List.nil_append]
  cases entriesOf state rest <;> rfl

theorem Consumes.append {a b c : Reading} {events more : List Xml.Event}
    {entries others : List ObjectEntry} (h : Consumes a events entries b)
    (h' : Consumes b more others c) : Consumes a (events ++ more) (entries ++ others) c := by
  intro rest
  rw [List.append_assoc, h, h']
  cases entriesOf c rest with
  | error fault => rfl
  | ok read =>
      show Except.ok (entries ++ (others ++ read)) = Except.ok (entries ++ others ++ read)
      rw [List.append_assoc]

/-- One event does what its step does. -/
theorem consumes_of_step {before after : Reading} {event : Xml.Event}
    {completed : Option ObjectEntry} (h : step before event = .ok (after, completed)) :
    Consumes before [event] completed.toList after := by
  intro rest
  rw [List.singleton_append, entriesOf, h]
  simp only
  cases entriesOf after rest <;> rfl

theorem consumes_of_silent_step {before after : Reading} {event : Xml.Event}
    (h : step before event = .ok (after, none)) : Consumes before [event] [] after :=
  consumes_of_step h

theorem consumes_start {name : String} (other : name ≠ "otherEntity") (content : Bytes)
    (state : Reading) :
    Consumes state [.start (Utf8.bytes name) content] [] ⟨state.entry, Utf8.bytes name⟩ :=
  consumes_of_silent_step (if_neg fun same => other (Utf8.bytes_inj.mp same))

theorem consumes_close {name : String} (other : name ≠ "otherEntity") (state : Reading) :
    Consumes state [.close (Utf8.bytes name)] [] ⟨state.entry, []⟩ :=
  consumes_of_silent_step (if_neg fun same => other (Utf8.bytes_inj.mp same))

theorem consumes_open (content : Bytes) (state : Reading) :
    Consumes state [.start (Utf8.bytes "otherEntity") content] []
      ⟨some ⟨"", "", 0, ""⟩, Utf8.bytes "otherEntity"⟩ :=
  consumes_of_silent_step (by rw [step, if_pos rfl])

theorem consumes_complete (state : Reading) :
    Consumes state [.close (Utf8.bytes "otherEntity")] state.entry.toList ⟨none, []⟩ :=
  consumes_of_step (by rw [step, if_pos rfl])

/-- Events that complete entries and lead from one entry to another, whichever tag was
the last to open. -/
def Turns (before : Option ObjectEntry) (events : List Xml.Event) (entries : List ObjectEntry)
    (after : Option ObjectEntry) : Prop :=
  ∀ tag, ∃ tag', Consumes ⟨before, tag⟩ events entries ⟨after, tag'⟩

theorem turns_nil (entry : Option ObjectEntry) : Turns entry [] [] entry :=
  fun tag => ⟨tag, consumes_nil _⟩

theorem Turns.append {a b c : Option ObjectEntry} {events more : List Xml.Event}
    {entries others : List ObjectEntry} (h : Turns a events entries b)
    (h' : Turns b more others c) : Turns a (events ++ more) (entries ++ others) c := by
  intro tag
  obtain ⟨tag', first⟩ := h tag
  obtain ⟨tag'', second⟩ := h' tag'
  exact ⟨tag'', first.append second⟩

theorem Turns.alone {e : Xml.Element} {before after : Option ObjectEntry}
    {entries : List ObjectEntry} (h : Turns before e.events entries after) :
    Turns before (Xml.eventsOfAll [e]) entries after := by
  rw [Xml.eventsOfAll, Xml.eventsOfAll, List.append_nil]
  exact h

/-- An element with elements in it does what these do. -/
theorem turns_node {name : String} (other : name ≠ "otherEntity")
    (attributes : List Xml.Attribute) {children : List Xml.Element}
    {before after : Option ObjectEntry} {entries : List ObjectEntry}
    (h : Turns before (Xml.eventsOfAll children) entries after) :
    Turns before (Xml.Element.node name attributes children).events entries after := by
  intro tag
  obtain ⟨tag', inside⟩ := h (Utf8.bytes name)
  have whole := (consumes_start other (Xml.attributeBytes attributes) ⟨before, tag⟩).append
    (inside.append (consumes_close other ⟨after, tag'⟩))
  rw [List.append_nil] at whole
  exact ⟨[], whole⟩

/-- A text inside of an entry is put into it. -/
theorem consumes_text {tag : Bytes} {text : String} {entry filled : ObjectEntry}
    (fills : fill tag (Xml.trimmed text) entry = .ok filled)
    (blank : Xml.trimmed text = "" → filled = entry) :
    Consumes ⟨some entry, tag⟩ (Xml.textEvents text) [] ⟨some filled, tag⟩ := by
  have read := Xml.readText_trimmed text
  rw [Xml.textEvents]
  cases content : Blank.trimBy Xml.isBlank (Utf8.encode (Xml.escape text.toList)) with
  | nil =>
      -- What is blank makes no event, so nothing may be put in.
      rw [content] at read
      have empty : Xml.readText [] = .ok "" := Xml.readText_trimmed ""
      rw [blank (Except.ok.inj (read.symm.trans empty))]
      exact consumes_nil _
  | cons b rest =>
      rw [content] at read
      refine consumes_of_silent_step ?_
      rw [step]
      simp [read, fills]

/-- An element with a text, inside of an entry. -/
theorem turns_leaf {name text : String} {entry filled : ObjectEntry}
    (other : name ≠ "otherEntity") (attributes : List Xml.Attribute)
    (fills : fill (Utf8.bytes name) (Xml.trimmed text) entry = .ok filled)
    (blank : Xml.trimmed text = "" → filled = entry) :
    Turns (some entry) (Xml.Element.leaf name attributes text).events [] (some filled) := by
  intro tag
  have whole := (consumes_start other (Xml.attributeBytes attributes) ⟨some entry, tag⟩).append
    ((consumes_text fills blank).append (consumes_close other ⟨some filled, Utf8.bytes name⟩))
  rw [List.singleton_append, List.append_nil, List.append_nil] at whole
  rw [Xml.Element.events]
  exact ⟨[], whole⟩

/-! ### Elements in front of the entries -/

mutual
/-- Whether no entry begins in an element. -/
def holdsNone : Xml.Element → Bool
  | .leaf name .. => name != "otherEntity"
  | .node name _ children => name != "otherEntity" && allHoldNone children
  | .empty .. => true

/-- Whether no entry begins in some elements. -/
def allHoldNone : List Xml.Element → Bool
  | [] => true
  | e :: rest => holdsNone e && allHoldNone rest
end

/-- Outside of entries a text is passed over. -/
theorem consumes_text_outside (tag : Bytes) (text : String) :
    Consumes ⟨none, tag⟩ (Xml.textEvents text) [] ⟨none, tag⟩ := by
  rw [Xml.textEvents]
  split
  · exact consumes_nil _
  · exact consumes_of_silent_step rfl

mutual
/-- An element in which no entry begins leaves no trace, whatever its texts are. -/
theorem turns_of_holdsNone (e : Xml.Element) (h : holdsNone e = true) :
    Turns none e.events [] none := by
  match e with
  | .leaf name attributes text =>
      have other : name ≠ "otherEntity" := by simpa [holdsNone] using h
      intro tag
      have whole := (consumes_start other (Xml.attributeBytes attributes) ⟨none, tag⟩).append
        ((consumes_text_outside (Utf8.bytes name) text).append
          (consumes_close other ⟨none, Utf8.bytes name⟩))
      rw [List.singleton_append, List.append_nil, List.append_nil] at whole
      rw [Xml.Element.events]
      exact ⟨[], whole⟩
  | .node name attributes children =>
      obtain ⟨other, inside⟩ := Bool.and_eq_true_iff.mp h
      exact turns_node (by simpa using other) attributes (turns_of_allHoldNone children inside)
  | .empty name attributes =>
      exact fun tag => ⟨tag, consumes_of_silent_step rfl⟩

theorem turns_of_allHoldNone (elements : List Xml.Element) (h : allHoldNone elements = true) :
    Turns none (Xml.eventsOfAll elements) [] none := by
  match elements with
  | [] => exact turns_nil none
  | e :: rest =>
      obtain ⟨first, others⟩ := Bool.and_eq_true_iff.mp h
      exact (turns_of_holdsNone e first).append (turns_of_allHoldNone rest others)
end

/-! ### Entries -/

/-- A written size is put in as it is. -/
theorem turns_size (attributes : List Xml.Attribute) {entry : ObjectEntry} {n : Nat}
    (small : n < 2 ^ 64) :
    Turns (some entry) (Xml.Element.leaf "size" attributes (toString n)).events []
      (some { entry with size := n }) := by
  have read : size? (Xml.trimmed (toString n)) = some n := by
    rw [trimmed_toString, size?_toString small]
  refine turns_leaf (by decide) attributes ?_ fun blank => ?_
  · rw [fill, if_neg (by simp [Utf8.bytes_inj]), if_neg (by simp [Utf8.bytes_inj]), if_pos rfl,
      read]
  · rw [blank] at read
    cases read

/-- The description of an entry is put in, and left as it was if the element is left out. -/
theorem turns_description (entry : ObjectEntry) (description : String) :
    Turns (some { entry with description := "" })
      (Xml.eventsOfAll
        (if description.isEmpty then [] else [.leaf "entityDescription" [] description])) []
      (some { entry with description := Xml.trimmed description }) := by
  split
  · next empty =>
      have none : description = "" := String.isEmpty_iff.mp empty
      rw [none]
      exact turns_nil _
  · refine (turns_leaf (by decide) [] ?_ fun blank => ?_).alone
    · simp [fill, Utf8.bytes_inj]
    · rw [blank]

/-- The physical part of an entry: its name once more, its size and its format. -/
theorem turns_physical (entry : ObjectEntry) (written : ObjectEntry)
    (small : written.size < 2 ^ 64) :
    Turns (some { entry with format := "" })
      (Xml.Element.node "physical" []
        [.leaf "objectName" [] written.name,
         .leaf "size" [⟨"unit", "bytes"⟩] (toString written.size),
         .node "dataFormat" []
          [.node "externallyDefinedFormat" [] [.leaf "formatName" [] written.format]]]).events []
      (some { entry with size := written.size, format := Xml.trimmed written.format }) := by
  have name : Turns (some { entry with format := "" })
      (Xml.Element.leaf "objectName" [] written.name).events []
      (some { entry with format := "" }) := by
    refine turns_leaf (by decide) [] ?_ fun _ => rfl
    simp [fill, Utf8.bytes_inj]
  have format : Turns (some { entry with size := written.size, format := "" })
      (Xml.Element.leaf "formatName" [] written.format).events []
      (some { entry with size := written.size, format := Xml.trimmed written.format }) := by
    refine turns_leaf (by decide) [] ?_ fun blank => ?_
    · simp [fill, Utf8.bytes_inj]
    · rw [blank]
  have external : Turns (some { entry with size := written.size, format := "" })
      (Xml.Element.node "externallyDefinedFormat" []
        [.leaf "formatName" [] written.format]).events []
      (some { entry with size := written.size, format := Xml.trimmed written.format }) :=
    turns_node (by decide) [] format.alone
  have data : Turns (some { entry with size := written.size, format := "" })
      (Xml.Element.node "dataFormat" [] [.node "externallyDefinedFormat" []
        [.leaf "formatName" [] written.format]]).events []
      (some { entry with size := written.size, format := Xml.trimmed written.format }) :=
    turns_node (by decide) [] external.alone
  exact turns_node (by decide) []
    (name.append ((turns_size _ small).append data.alone))

/-- The element of an entry completes the entry, in its normal form. -/
theorem turns_entry {entry : ObjectEntry} (small : entry.size < 2 ^ 64) :
    Turns none (entryElement entry).events [entry.normal] none := by
  have name : Turns (some ⟨"", "", 0, ""⟩)
      (Xml.Element.leaf "entityName" [] entry.name).events []
      (some ⟨Xml.trimmed entry.name, "", 0, ""⟩) := by
    refine turns_leaf (by decide) [] ?_ fun blank => ?_
    · simp [fill]
    · rw [blank]
  have kind : Turns (some entry.normal) (Xml.Element.leaf "entityType" [] "dataTable").events []
      (some entry.normal) := by
    refine turns_leaf (by decide) [] ?_ fun _ => rfl
    simp [fill, Utf8.bytes_inj]
  have description := turns_description ⟨Xml.trimmed entry.name, "", 0, ""⟩
    (Tags.stripText entry.description)
  have physical := turns_physical
    ⟨Xml.trimmed entry.name, Xml.trimmed (Tags.stripText entry.description), 0, ""⟩ entry small
  intro tag
  obtain ⟨tag', inside⟩ := (name.append (description.append (physical.append kind)))
    (Utf8.bytes "otherEntity")
  have whole := (consumes_open (Xml.attributeBytes []) ⟨none, tag⟩).append
    (inside.append (consumes_complete ⟨some entry.normal, tag'⟩))
  refine ⟨[], ?_⟩
  rw [entryElement, Xml.Element.events]
  simpa [Xml.eventsOfAll, Xml.eventsOfAll_append] using whole

theorem turns_entries {items : List ObjectEntry} (small : ∀ entry ∈ items, entry.size < 2 ^ 64) :
    Turns none (Xml.eventsOfAll (items.map entryElement)) (items.map ObjectEntry.normal) none := by
  induction items with
  | nil => exact turns_nil none
  | cons entry rest ih =>
      obtain ⟨first, others⟩ := List.forall_mem_cons.mp small
      exact (turns_entry first).append (ih others)

/-! ### Records -/

/-- What stands in a record in front of the entries. -/
def preamble (tale : Tale) (publisher : Publisher) (licenseId userId : String) :
    List Xml.Element :=
  [.leaf "title" [] tale.title, publisher.element "creator" userId] ++
    abstractElements tale.description ++
    [rightsElement licenseId, publisher.element "contact" userId]

theorem element_eq (tale : Tale) (publisher : Publisher) (items : List ObjectEntry) (pid : Pid)
    (sizes : FileSizes) (licenseId userId : String) :
    element tale publisher items pid sizes licenseId userId =
      .node "eml:eml" (rootAttributes pid)
        [.node "dataset" [] (preamble tale publisher licenseId userId ++
          (items ++ generatedEntries sizes).map entryElement)] :=
  rfl

/-- No entry begins in front of the entries. -/
theorem allHoldNone_preamble (tale : Tale) (publisher : Publisher) (licenseId userId : String) :
    allHoldNone (preamble tale publisher licenseId userId) = true := by
  unfold preamble abstractElements
  split
  · rfl
  · split <;> rfl

theorem named_publisher (publisher : Publisher) {role : String}
    (named : Xml.isName role = true) (userId : String) :
    (publisher.element role userId).tags.all Xml.Tag.isNamed = true := by
  refine Xml.named_node named rfl (Xml.named_all_iff.mp ?_)
  simp only [Xml.tagsOfAll, Xml.Element.tags, Xml.keysOf, List.map_cons, List.map_nil]
  decide

theorem named_preamble (tale : Tale) (publisher : Publisher) (licenseId userId : String) :
    ∀ e ∈ preamble tale publisher licenseId userId, e.tags.all Xml.Tag.isNamed = true := by
  have abstract : ∀ e ∈ abstractElements tale.description,
      e.tags.all Xml.Tag.isNamed = true := by
    refine Xml.named_all_iff.mp ?_
    unfold abstractElements
    split
    · rfl
    · split <;> rfl
  intro e mem
  simp only [preamble, List.mem_append, List.mem_cons, List.not_mem_nil, or_false] at mem
  rcases mem with ((rfl | rfl) | mem) | (rfl | rfl)
  · rfl
  · exact named_publisher publisher (by decide) userId
  · exact abstract e mem
  · rfl
  · exact named_publisher publisher (by decide) userId

theorem named_entryElement (entry : ObjectEntry) :
    (entryElement entry).tags.all Xml.Tag.isNamed = true := by
  rw [entryElement]
  cases (Tags.stripText entry.description).isEmpty <;> rfl

theorem areNames_rootAttributes (pid : Pid) :
    Xml.areNames (Xml.keysOf (rootAttributes pid)) = true := by
  simp only [rootAttributes, Xml.keysOf, List.map_cons, List.map_nil]
  decide

/-- Names stand in the tags of a record. -/
theorem named_element (tale : Tale) (publisher : Publisher) (items : List ObjectEntry)
    (pid : Pid) (sizes : FileSizes) (licenseId userId : String) :
    (element tale publisher items pid sizes licenseId userId).tags.all Xml.Tag.isNamed =
      true := by
  rw [element_eq]
  refine Xml.named_node (by decide) (areNames_rootAttributes pid) ?_
  rw [List.forall_mem_singleton]
  refine Xml.named_node (by decide) rfl fun e mem => ?_
  rcases List.mem_append.mp mem with front | back
  · exact named_preamble tale publisher licenseId userId e front
  · obtain ⟨entry, -, rfl⟩ := List.mem_map.mp back
    exact named_entryElement entry

/-- The names that a record is written with can stand in tags. -/
theorem writable_element (tale : Tale) (publisher : Publisher) (items : List ObjectEntry)
    (pid : Pid) (sizes : FileSizes) (licenseId userId : String) :
    (element tale publisher items pid sizes licenseId userId).tags.all Xml.Tag.isWritable =
      true :=
  Xml.writable_of_named (named_element tale publisher items pid sizes licenseId userId)

/-- The root of a record names the identifier that the record was written for. -/
theorem packageId_document {tale : Tale} {user : User} {items : List ObjectEntry} {pid : Pid}
    {sizes : FileSizes} {licenseId userId : String} {xml : Bytes}
    (written : document tale user items pid sizes licenseId userId = .ok xml) :
    Xml.rootValue? "packageId" xml = some (.ok pid.text) := by
  rw [document] at written
  cases named : Publisher.ofUser user with
  | error missing => rw [named] at written; cases written
  | ok publisher =>
      rw [named] at written
      cases written
      obtain ⟨each, distinct⟩ := Xml.keys_of_areNames (areNames_rootAttributes pid)
      have keys : ∀ a ∈ rootAttributes pid, Xml.isKey a.name = true := fun a mem =>
        List.all_eq_true.mp each _ (List.mem_map_of_mem mem)
      have plain := Xml.isPlain_of_writable _
        (writable_element tale publisher items pid sizes licenseId userId)
      exact Xml.rootValue?_documentBytes plain keys distinct "packageId"

/-- The texts about a generated file: no tag begins in them, and no blanks are around them. -/
theorem generated_texts (file : GeneratedFile) :
    '<' ∉ file.description.toList ∧ Xml.trimmed file.fileName = file.fileName ∧
      Xml.trimmed file.description = file.description ∧
      Xml.trimmed file.recordFormat = file.recordFormat := by
  cases file
  all_goals decide +kernel

/-- The entry of a generated file is in its normal form. -/
theorem normal_ofGenerated (file : GeneratedFile) (size : Nat) :
    (ObjectEntry.ofGenerated file size).normal = .ofGenerated file size := by
  obtain ⟨tagless, name, description, format⟩ := generated_texts file
  rw [ObjectEntry.ofGenerated, ObjectEntry.normal]
  simp only [Tags.stripText_eq_self tagless, name, description, format]

theorem map_normal_generatedEntries (sizes : FileSizes) :
    (generatedEntries sizes).map ObjectEntry.normal = generatedEntries sizes := by
  simp [generatedEntries, normal_ofGenerated, apply_ite (List.map ObjectEntry.normal)]

/-- Reading a record completes its entries, in their normal forms. -/
theorem turns_element (tale : Tale) (publisher : Publisher) {items : List ObjectEntry}
    (pid : Pid) {sizes : FileSizes} (licenseId userId : String)
    (small : ∀ entry ∈ items ++ generatedEntries sizes, entry.size < 2 ^ 64) :
    Turns none (element tale publisher items pid sizes licenseId userId).events
      ((items ++ generatedEntries sizes).map ObjectEntry.normal) none := by
  have front := turns_of_allHoldNone _ (allHoldNone_preamble tale publisher licenseId userId)
  have whole := front.append (turns_entries small)
  rw [← Xml.eventsOfAll_append] at whole
  have dataset : Turns none (Xml.Element.node "dataset" []
      (preamble tale publisher licenseId userId ++
        (items ++ generatedEntries sizes).map entryElement)).events
      ((items ++ generatedEntries sizes).map ObjectEntry.normal) none :=
    turns_node (by decide) [] whole
  rw [element_eq]
  exact turns_node (by decide) (rootAttributes pid) dataset.alone

theorem size_lt_of_mem_generatedEntries {sizes : FileSizes} {entry : ObjectEntry}
    (packageInfo : sizes.packageInfo < 2 ^ 64) (license : sizes.license < 2 ^ 64)
    (environment : sizes.environment < 2 ^ 64) (mem : entry ∈ generatedEntries sizes) :
    entry.size < 2 ^ 64 := by
  simp only [generatedEntries, List.mem_append, List.mem_singleton, List.mem_ite_nil_right] at mem
  rcases mem with (rfl | ⟨-, rfl⟩) | ⟨-, rfl⟩
  · exact packageInfo
  · exact license
  · exact environment

/-- The entries that are read from a record are those that it was written with. -/
theorem readEntries_of_document {tale : Tale} {user : User} {items : List ObjectEntry} {pid : Pid}
    {sizes : FileSizes} {licenseId userId : String} {xml : Bytes}
    (small : ∀ entry ∈ items ++ generatedEntries sizes, entry.size < 2 ^ 64)
    (written : document tale user items pid sizes licenseId userId = .ok xml) :
    readEntries xml = .ok (items.map ObjectEntry.normal ++ generatedEntries sizes) := by
  rw [document] at written
  cases named : Publisher.ofUser user with
  | error missing => rw [named] at written; cases written
  | ok publisher =>
      rw [named] at written
      cases written
      have declared : Consumes ⟨none, []⟩ [.other] [] ⟨none, []⟩ := consumes_of_silent_step rfl
      obtain ⟨tag, record⟩ := turns_element tale publisher pid licenseId userId small []
      have read := (declared.append record) []
      rw [List.append_nil, List.singleton_append, List.nil_append] at read
      rw [readEntries, Xml.events_documentBytes (Xml.isPlain_of_writable _ (writable_element ..))]
      simp only [read]
      show Except.ok ((items ++ generatedEntries sizes).map ObjectEntry.normal ++ []) = _
      rw [List.append_nil, List.map_append, map_normal_generatedEntries]

/-- **The round trip of descriptive records.** For a user with both names and an address
that are not blank, the record of a package can be written, and the entries that are read
from it are those of the items, in order, and then those of the generated files that the
package holds. The entries of the items come in their normal forms; those of the generated
files have these. -/
theorem readEntries_document (tale : Tale) {user : User}
    (firstName : Publisher.Has user.firstName) (lastName : Publisher.Has user.lastName)
    (email : Publisher.Has user.email) {items : List ObjectEntry}
    (itemSizes : ∀ entry ∈ items, entry.size < 2 ^ 64) (pid : Pid) {sizes : FileSizes}
    (packageInfo : sizes.packageInfo < 2 ^ 64) (license : sizes.license < 2 ^ 64)
    (environment : sizes.environment < 2 ^ 64) (licenseId userId : String) :
    ∃ xml, document tale user items pid sizes licenseId userId = .ok xml ∧
      readEntries xml = .ok (items.map ObjectEntry.normal ++
        ([.ofGenerated .packageInfo sizes.packageInfo] ++
          (if 0 < sizes.license then [.ofGenerated .license sizes.license] else []) ++
          (if 0 < sizes.environment then [.ofGenerated .environment sizes.environment]
            else []))) := by
  obtain ⟨publisher, named⟩ := Publisher.ofUser_ok firstName lastName email
  have small : ∀ entry ∈ items ++ generatedEntries sizes, entry.size < 2 ^ 64 := by
    intro entry mem
    rcases List.mem_append.mp mem with mem | mem
    · exact itemSizes entry mem
    · exact size_lt_of_mem_generatedEntries packageInfo license environment mem
  have written : document tale user items pid sizes licenseId userId =
      .ok (Xml.documentBytes (element tale publisher items pid sizes licenseId userId)) := by
    rw [document, named]
    rfl
  exact ⟨_, written, readEntries_of_document small written⟩

/-- A title that looks like an entry is none, and a text with markup is one of the entry. -/
theorem readEntries_document_markup :
    ∃ xml, document ⟨"tale", "</title><otherEntity>", some "<b>", none, none, none, none⟩
        ⟨"user", some "Jane", some "Doe", some "jane@example.org"⟩
        [⟨" a & b\n", "<p>1 < 2</p> ", 5, "text/csv"⟩] ⟨"1"⟩ ⟨10, 0, 20⟩ "CC0-1.0" "user" =
          .ok xml ∧
      readEntries xml = .ok [⟨"a & b", "1 < 2", 5, "text/csv"⟩,
        .ofGenerated .packageInfo 10, .ofGenerated .environment 20] := by
  have normal : ObjectEntry.normal ⟨" a & b\n", "<p>1 < 2</p> ", 5, "text/csv"⟩ =
      ⟨"a & b", "1 < 2", 5, "text/csv"⟩ := by decide +kernel
  have items : ∀ entry ∈ [(⟨" a & b\n", "<p>1 < 2</p> ", 5, "text/csv"⟩ : ObjectEntry)],
      entry.size < 2 ^ 64 := by decide
  rw [← normal]
  exact readEntries_document _ ⟨"Jane", rfl, by decide⟩ ⟨"Doe", rfl, by decide⟩
    ⟨"jane@example.org", rfl, by decide⟩ items _ (by decide) (by decide) (by decide) _ _

end DescriptiveRecord

end Deposit
