import Deposit.Proofs.RecordMarkup
import Mathlib.Algebra.Order.BigOperators.Group.List
import Mathlib.Algebra.Order.Ring.Nat

/-!
Abstract and descriptions in descriptive records.

Tags are taken out of the descriptions of the tale and of the items before they are written. The
texts are read back from the elements that hold them (`textsOf`), and compared with what was
given.

* `textsOf_document`: the abstract, and the descriptions that are there, are those that were
  given, without their tags.
* `descriptions_tagged_iff`: when a tag is left in them.
* `descriptions_unchanged_iff`: when they are as they were given.
-/

namespace Deposit

/-! ### Texts of elements -/

namespace Xml

/-- The text in a place, if it is that of an element with the name. -/
def textAt? (name : String) : Place String × String → Option String
  | (place, text) => if place = .text name then some text else none

/-- The texts of the elements with a name, in the order of the document. -/
def textsOf (name : String) (document : Bytes) : List String :=
  (contentsFrom none ((pieces? document).getD [])).filterMap fun (place, raw) =>
    if place = .text (Utf8.bytes name) then (readText raw).toOption else none

theorem map_bytes_eq_text_iff {place : Place String} {name : String} :
    place.map Utf8.bytes = .text (Utf8.bytes name) ↔ place = .text name := by
  cases place with
  | text element => simp [Place.map, Utf8.bytes_inj]
  | value element key => simp [Place.map]
  | stray => simp [Place.map]

end Xml

namespace DescriptiveRecord

open Xml

/-- Escaped texts are read from their elements. -/
theorem textsOf_escaped {document : Bytes} {row : List Piece}
    {contents : List (Place String × String)} (read : pieces? document = some row)
    (held : contentsFrom none row = placed (escaped contents)) (name : String) :
    textsOf name document = contents.filterMap (textAt? name) := by
  rw [textsOf, read, Option.getD_some, held, placed, escaped, List.map_map, List.filterMap_map]
  congr 1
  funext content
  obtain ⟨place, text⟩ := content
  simp [textAt?, map_bytes_eq_text_iff, readText_valueBytes, Except.toOption]

/-! ### The descriptions -/

/-- What an entry of a record is described with. -/
def givenDescriptions (items : List ObjectEntry) (sizes : FileSizes) : List String :=
  (items ++ generatedEntries sizes).map (·.description)

theorem para_entryContents (entry : ObjectEntry) :
    (entryContents entry).filterMap (textAt? "para") = [] := by
  rw [entryContents]
  cases (Tags.stripText entry.description).isEmpty <;> simp [textAt?]

theorem description_entryContents (entry : ObjectEntry) :
    (entryContents entry).filterMap (textAt? "entityDescription") =
      [Tags.stripText entry.description].filter (!·.isEmpty) := by
  rw [entryContents]
  cases empty : (Tags.stripText entry.description).isEmpty <;> simp [textAt?, empty]

theorem para_abstractContents (description : Option String) :
    (abstractContents description).filterMap (textAt? "para") =
      (description.toList.filter (!·.isEmpty)).map Tags.stripText := by
  cases description with
  | none => rfl
  | some text => cases empty : text.isEmpty <;> simp [abstractContents, textAt?, empty]

theorem description_abstractContents (description : Option String) :
    (abstractContents description).filterMap (textAt? "entityDescription") = [] := by
  cases description with
  | none => rfl
  | some text => cases empty : text.isEmpty <;> simp [abstractContents, textAt?, empty]

theorem filterMap_entries {name : String} {f : ObjectEntry → List String}
    (each : ∀ entry, (entryContents entry).filterMap (textAt? name) = f entry)
    (items : List ObjectEntry) (sizes : FileSizes) :
    (items.flatMap entryContents ++
      entryContents (.ofGenerated .packageInfo sizes.packageInfo) ++
      (if 0 < sizes.license then entryContents (.ofGenerated .license sizes.license) else []) ++
      (if 0 < sizes.environment then entryContents (.ofGenerated .environment sizes.environment)
        else [])).filterMap (textAt? name) = (items ++ generatedEntries sizes).flatMap f := by
  simp [generatedEntries, List.filterMap_flatMap, each, apply_ite (List.filterMap _),
    apply_ite (List.flatMap _)]

/-- The abstract and the descriptions that are read from a record are those that were given,
without their tags: an abstract if a description was given, a description if anything is left
of it. -/
theorem textsOf_document {tale : Tale} {user : User} {items : List ObjectEntry} {pid : Pid}
    {sizes : FileSizes} {licenseId userId : String} {xml : Bytes}
    (made : document tale user items pid sizes licenseId userId = .ok xml) :
    textsOf "para" xml = (tale.description.toList.filter (!·.isEmpty)).map Tags.stripText ∧
      textsOf "entityDescription" xml =
        ((givenDescriptions items sizes).map Tags.stripText).filter (!·.isEmpty) := by
  obtain ⟨publisher, row, -, read, -, -, held⟩ := document_read made
  rw [textsOf_escaped read held, textsOf_escaped read held, recordContents]
  constructor
  · have entries := filterMap_entries para_entryContents items sizes
    simp only [List.append_assoc, List.filterMap_append] at entries ⊢
    rw [entries, para_abstractContents]
    simp [partyContents, textAt?]
  · have entries := filterMap_entries description_entryContents items sizes
    simp only [List.append_assoc, List.filterMap_append] at entries ⊢
    rw [entries, description_abstractContents, ← List.filter_flatMap, ← List.map_eq_flatMap,
      givenDescriptions, List.map_map]
    simp [partyContents, textAt?, Function.comp_def]

/-- What no text without a `<` has, no description of a generated file has. -/
theorem exists_givenDescriptions_iff {p : String → Prop} (items : List ObjectEntry)
    (sizes : FileSizes) (absent : ∀ text : String, '<' ∉ text.toList → ¬ p text) :
    (∃ text ∈ givenDescriptions items sizes, p text) ↔ ∃ item ∈ items, p item.description := by
  have generated : ∀ entry ∈ generatedEntries sizes, ¬ p entry.description := by
    intro entry mem
    obtain ⟨file, size, rfl⟩ : ∃ file size, entry = .ofGenerated file size := by
      simp only [generatedEntries, List.mem_append, List.mem_singleton,
        List.mem_ite_nil_right] at mem
      rcases mem with (rfl | ⟨-, rfl⟩) | ⟨-, rfl⟩
      all_goals exact ⟨_, _, rfl⟩
    exact absent _ (generated_texts file).1
  rw [givenDescriptions, List.map_append]
  constructor
  · rintro ⟨text, mem, has⟩
    rcases List.mem_append.mp mem with there | there
    · obtain ⟨item, mem', rfl⟩ := List.mem_map.mp there
      exact ⟨item, mem', has⟩
    · obtain ⟨entry, mem', rfl⟩ := List.mem_map.mp there
      exact absurd has (generated entry mem')
  · rintro ⟨item, mem, has⟩
    exact ⟨item.description, List.mem_append_left _ (List.mem_map_of_mem mem), has⟩

/-! ### Tags that are left -/

theorem toList_stripText (text : String) :
    (Tags.stripText text).toList = Tags.strip text.toList :=
  String.toList_ofList

theorem stripText_eq_iff {text : String} :
    Tags.stripText text = text ↔ ¬ Tags.HasTag text.toList := by
  rw [← Tags.strip_eq_self_iff, ← toList_stripText, String.toList_inj]

theorem hasTag_stripText_iff {text : String} :
    Tags.HasTag (Tags.stripText text).toList ↔ Tags.Encloses text.toList := by
  rw [toList_stripText, Tags.hasTag_strip_iff]

theorem toList_stripText_iterate (n : Nat) (text : String) :
    (Tags.stripText^[n] text).toList = Tags.strip^[n] text.toList := by
  induction n generalizing text with
  | zero => rfl
  | succ n ih => rw [Function.iterate_succ_apply, Function.iterate_succ_apply, ih,
      toList_stripText]

theorem not_isEmpty_of_mem {c : Char} {text : String} (h : c ∈ text.toList) :
    (!text.isEmpty) = true := by
  rw [Bool.not_eq_true', String.isEmpty_eq_false_iff]
  rintro rfl
  exact List.not_mem_nil h

/-- **Tags that are left in descriptions.** One pass over a text leaves a tag exactly if brackets
in the text stand around tags and around the body of a tag mixed with them; exactly then a second
pass changes the text once more, and as many passes as there are `<` leave no tag. So the abstract
and the descriptions that are read from a record hold a tag exactly if a description that was
given encloses some. -/
theorem descriptions_tagged_iff (text : String) (tale : Tale) (user : User)
    (items : List ObjectEntry) (pid : Pid) (sizes : FileSizes) (licenseId userId : String) :
    (Tags.HasTag (Tags.stripText text).toList ↔ Tags.Encloses text.toList) ∧
    (Tags.stripText (Tags.stripText text) = Tags.stripText text ↔ ¬ Tags.Encloses text.toList) ∧
    ¬ Tags.HasTag (Tags.stripText^[text.toList.count '<'] text).toList ∧
    ∀ xml, document tale user items pid sizes licenseId userId = .ok xml →
      ((∃ text ∈ textsOf "para" xml ++ textsOf "entityDescription" xml,
          Tags.HasTag text.toList) ↔
        (∃ text ∈ tale.description, Tags.Encloses text.toList) ∨
          ∃ item ∈ items, Tags.Encloses item.description.toList) := by
  refine ⟨hasTag_stripText_iff, ?_, ?_, ?_⟩
  · rw [stripText_eq_iff, hasTag_stripText_iff]
  · rw [toList_stripText_iterate]
    exact Tags.strip_iterate (Nat.le_refl _)
  · intro xml made
    obtain ⟨para, described⟩ := textsOf_document made
    simp only [List.mem_append, or_and_right, exists_or]
    refine or_congr ?_ ?_
    · rw [para]
      constructor
      · rintro ⟨text, mem, tagged⟩
        obtain ⟨given, there, rfl⟩ := List.mem_map.mp mem
        exact ⟨given, Option.mem_toList.mp (List.mem_filter.mp there).1,
          hasTag_stripText_iff.mp tagged⟩
      · rintro ⟨given, mem, encloses⟩
        have some := not_isEmpty_of_mem encloses.mem
        exact ⟨_, List.mem_map_of_mem (List.mem_filter.mpr ⟨Option.mem_toList.mpr mem, some⟩),
          hasTag_stripText_iff.mpr encloses⟩
    · have enclosing := exists_givenDescriptions_iff items sizes
        (p := fun text => Tags.Encloses text.toList) fun text plain encloses => plain encloses.mem
      rw [described, ← enclosing]
      constructor
      · rintro ⟨text, mem, tagged⟩
        obtain ⟨given, there, rfl⟩ := List.mem_map.mp (List.mem_filter.mp mem).1
        exact ⟨given, there, hasTag_stripText_iff.mp tagged⟩
      · rintro ⟨given, mem, encloses⟩
        have tagged := hasTag_stripText_iff.mpr encloses
        exact ⟨_, List.mem_filter.mpr ⟨List.mem_map_of_mem mem, not_isEmpty_of_mem tagged.mem⟩,
          tagged⟩

/-- A tag in a tag is taken out, and the brackets around it are a tag again. -/
theorem tag_left_of_nested :
    Tags.stripText "<<a>b>" = "<b>" ∧ Tags.HasTag "<b>".toList := by
  decide +kernel

/-! ### Descriptions that are unchanged -/

/-- Whether a character behind `<` begins a tag, a comment or a declaration of HTML. -/
def beginsMarkup (c : Char) : Bool := c.isAlpha || c == '/' || c == '!' || c == '?'

/-- Whether no `<` of a text begins anything of HTML. -/
def IsProse (text : List Char) : Prop :=
  ∀ before c behind, text = before ++ '<' :: c :: behind → beginsMarkup c = false

theorem isProse_cons_iff {c : Char} {text : List Char} :
    IsProse (c :: text) ↔ ¬ (c = '<' ∧ text.head?.any beginsMarkup = true) ∧ IsProse text := by
  constructor
  · intro prose
    refine ⟨?_, fun before d behind same => ?_⟩
    · rintro ⟨opening, begins⟩
      obtain ⟨d, first, begins⟩ := (Option.any_eq_true _ _).mp begins
      obtain ⟨behind, rfl⟩ := List.head?_eq_some_iff.mp first
      exact Bool.eq_false_iff.mp (prose [] d behind (opening ▸ rfl)) begins
    · exact prose (c :: before) d behind (same ▸ rfl)
  · rintro ⟨first, rest⟩ (_ | ⟨b, before⟩) d behind same
    · obtain ⟨rfl, rfl⟩ := List.cons.inj same
      exact Bool.eq_false_iff.mpr fun begins => first ⟨rfl, begins⟩
    · exact rest before d behind (List.cons.inj same).2

/-- Whether a text is prose is decided from its front. -/
instance decidableIsProse : (text : List Char) → Decidable (IsProse text)
  | [] => .isTrue fun before _ _ same => absurd same (by simp)
  | _ :: text =>
    have := decidableIsProse text
    decidable_of_iff _ isProse_cons_iff.symm

/-- The number of characters in some texts. -/
def totalLength (texts : List String) : Nat := (texts.map (·.toList.length)).sum

theorem totalLength_filter (texts : List String) :
    totalLength (texts.filter (!·.isEmpty)) = totalLength texts := by
  induction texts with
  | nil => rfl
  | cons text rest ih =>
      rw [totalLength] at ih
      cases empty : text.isEmpty with
      | true =>
          have nothing : text = "" := String.isEmpty_iff.mp empty
          simp [totalLength, ih, nothing]
      | false => simp [totalLength, ih, empty]

/-- Texts come through unchanged exactly if none of them holds a tag. -/
theorem map_stripText_eq_iff {texts : List String} :
    (texts.map Tags.stripText).filter (!·.isEmpty) = texts.filter (!·.isEmpty) ↔
      ∀ text ∈ texts, ¬ Tags.HasTag text.toList := by
  constructor
  · intro same text mem tagged
    -- A text with a tag comes through shorter, and no text longer.
    have lengths := congrArg totalLength same
    rw [totalLength_filter, totalLength_filter, totalLength, totalLength, List.map_map] at lengths
    refine absurd lengths (Nat.ne_of_lt (List.sum_lt_sum _ _ ?_ ⟨text, mem, ?_⟩))
    · intro text _
      rw [Function.comp_apply, toList_stripText]
      exact (Tags.strip_sublist _).length_le
    · rw [Function.comp_apply, toList_stripText]
      refine Nat.lt_of_le_of_ne (Tags.strip_sublist _).length_le fun same => ?_
      exact Tags.strip_eq_self_iff.mp ((Tags.strip_sublist _).eq_of_length same) tagged
  · intro plain
    rw [List.map_congr_left fun text mem => stripText_eq_iff.mpr (plain text mem), List.map_id']

/-- **Descriptions that come through unchanged.** A text comes through unchanged exactly if it
holds no tag. What is taken out need not be anything of HTML: prose is changed exactly if a `<` in
it is followed by something, without another `<`, and then by a `>`. So the abstract and the
descriptions that are read from a record are those that were given exactly if these hold no tags
in this sense. -/
theorem descriptions_unchanged_iff (text : String) (tale : Tale) (user : User)
    (items : List ObjectEntry) (pid : Pid) (sizes : FileSizes) (licenseId userId : String) :
    (Tags.stripText text = text ↔ ¬ Tags.HasTag text.toList) ∧
    (IsProse text.toList →
      (Tags.stripText text ≠ text ↔ ∃ before c inside behind,
        text.toList = before ++ '<' :: c :: (inside ++ '>' :: behind) ∧
          '<' ∉ c :: inside ∧ beginsMarkup c = false)) ∧
    ∀ xml, document tale user items pid sizes licenseId userId = .ok xml →
      (textsOf "para" xml = tale.description.toList.filter (!·.isEmpty) ↔
        ∀ text ∈ tale.description, ¬ Tags.HasTag text.toList) ∧
      (textsOf "entityDescription" xml =
          (givenDescriptions items sizes).filter (!·.isEmpty) ↔
        ∀ item ∈ items, ¬ Tags.HasTag item.description.toList) := by
  refine ⟨stripText_eq_iff, ?_, ?_⟩
  · intro prose
    rw [ne_eq, stripText_eq_iff, not_not]
    constructor
    · rintro ⟨before, body, behind, same, ne, absent⟩
      obtain ⟨c, inside, rfl⟩ := List.exists_cons_of_ne_nil ne
      exact ⟨before, c, inside, behind, same, absent, prose _ _ _ same⟩
    · rintro ⟨before, c, inside, behind, same, absent, -⟩
      exact ⟨before, c :: inside, behind, same, List.cons_ne_nil _ _, absent⟩
  · intro xml made
    obtain ⟨para, described⟩ := textsOf_document made
    constructor
    · rw [para]
      cases tale.description with
      | none => simp
      | some text =>
          cases empty : text.isEmpty with
          | true =>
              have nothing : text = "" := String.isEmpty_iff.mp empty
              simp [nothing, Tags.not_hasTag_nil]
          | false => simp [empty, stripText_eq_iff]
    · rw [described, map_stripText_eq_iff]
      have tagged := exists_givenDescriptions_iff items sizes
        (p := fun text => Tags.HasTag text.toList) fun text plain tagged => plain tagged.mem
      simpa using not_congr tagged

/-- Two comparisons are taken for a tag, and what stands between them is lost. -/
theorem comparisons_lost :
    IsProse "a < b and c > d".toList ∧ Tags.stripText "a < b and c > d" = "a  d" := by
  decide +kernel

end DescriptiveRecord

end Deposit
