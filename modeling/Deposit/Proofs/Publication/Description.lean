import Deposit.Proofs.Classification
import Deposit.Proofs.Publication.Parts
import Mathlib.Data.List.Forall2

/-!
What the descriptive record of a publication enumerates.

The storage is asked for an item more than once. A journal is *consistent* if it always
answers alike (`Journal.Consistent`); then there is one entry that its answers make for
an item (`Journal.Tells`).

* `Course.Parts.found`, `Course.Parts.recorded`: what a successful publication was told.
* `Members.described_eq`: the items in the network, the stored ones none of whose
  uploads failed, and those elsewhere.
* `publish_record_enumerates`: the entries of the record of a publication in any world,
  and exactly when every object of the package has one.
-/

namespace Deposit

/-! ### What the storage says -/

namespace Journal

/-- The storage answers all questions about one item alike, and all about its file. -/
structure Consistent (journal : Journal) : Prop where
  item : ∀ id answer answer', .read ("item/" ++ id) answer ∈ journal →
    .read ("item/" ++ id) answer' ∈ journal → answer = answer'
  file : ∀ id answer answer', .lookedUp id answer ∈ journal →
    .lookedUp id answer' ∈ journal → answer = answer'

/-- The answers of the storage on an item make an entry. -/
def Tells (journal : Journal) (id : String) (entry : ObjectEntry) : Prop :=
  ∃ document item file?, .read ("item/" ++ id) (.ok document) ∈ journal ∧
    Item.ofJson document = .ok item ∧ .lookedUp id (.ok file?) ∈ journal ∧
    entry = ⟨item.name, item.description.getD "", item.size,
      (file?.map (·.mimeType)).getD FileObject.defaultMimeType⟩

theorem Tells.mono {journal journal' : Journal} {id : String} {entry : ObjectEntry}
    (h : journal.Tells id entry) (within : ∀ event ∈ journal, event ∈ journal') :
    journal'.Tells id entry := by
  obtain ⟨document, item, file?, asked, read, looked, rfl⟩ := h
  exact ⟨document, item, file?, within _ asked, read, within _ looked, rfl⟩

/-- The storage answers the question about the file of an item with a file. -/
def Locates (journal : Journal) (item : String) (f : FoundItem) : Prop :=
  f.item = item ∧ .lookedUp item (.ok (some f.file)) ∈ journal

theorem Locates.mono {journal journal' : Journal} {item : String} {f : FoundItem}
    (h : journal.Locates item f) (within : ∀ event ∈ journal, event ∈ journal') :
    journal'.Locates item f :=
  ⟨h.1, within _ h.2⟩

theorem locates_all {journal : Journal} {items : List String} {found : List FoundItem}
    (h : List.Forall₂ journal.Locates items found) :
    found.map (·.item) = items ∧ ∀ f ∈ found, journal.Locates f.item f := by
  induction h with
  | nil => simp
  | cons here _ ih =>
      obtain ⟨rfl, looked⟩ := here
      exact ⟨by simp [ih.1], List.forall_mem_cons.mpr ⟨⟨rfl, looked⟩, ih.2⟩⟩

/-- If there is one entry for each item, the entries that the storage tells are these. -/
theorem tells_all {journal : Journal} {entryOf : String → ObjectEntry} {ids : List String}
    {entries : List ObjectEntry}
    (unique : ∀ id entry, journal.Tells id entry → entry = entryOf id)
    (h : List.Forall₂ journal.Tells ids entries) :
    entries = ids.map entryOf ∧ ∀ id ∈ ids, journal.Tells id (entryOf id) := by
  induction h with
  | nil => simp
  | cons here _ ih =>
      obtain rfl := unique _ _ here
      exact ⟨by simp [ih.1], List.forall_mem_cons.mpr ⟨here, ih.2⟩⟩

/-- Consistent answers make one entry for an item. -/
theorem Consistent.unique {journal : Journal} {id : String} {entry entry' : ObjectEntry}
    (consistent : journal.Consistent) (h : journal.Tells id entry)
    (h' : journal.Tells id entry') : entry = entry' := by
  obtain ⟨document, item, file?, asked, read, looked, rfl⟩ := h
  obtain ⟨document', item', file?', asked', read', looked', rfl⟩ := h'
  cases consistent.item id _ _ asked asked'
  cases consistent.file id _ _ looked looked'
  cases read.symm.trans read'
  rfl

theorem Consistent.entryOf {journal : Journal} (consistent : journal.Consistent) :
    ∃ entryOf : String → ObjectEntry, ∀ id entry, journal.Tells id entry → entry = entryOf id := by
  have one : ∀ id, ∃ entry, ∀ entry', journal.Tells id entry' → entry' = entry := by
    intro id
    by_cases told : ∃ entry, journal.Tells id entry
    · obtain ⟨entry, told⟩ := told
      exact ⟨entry, fun entry' told' => consistent.unique told' told⟩
    · exact ⟨default, fun entry' told' => absurd ⟨entry', told'⟩ told⟩
  exact Classical.skolem.mp one

/-- Consistent answers put no item into two places. -/
theorem Consistent.one_place {journal : Journal} (consistent : journal.Consistent)
    {network : Network} {found : List FoundItem}
    (located : ∀ f ∈ found, journal.Locates f.item f) {id : String} {place place' : Location}
    (h : id ∈ FoundItem.idsAt network place found)
    (h' : id ∈ FoundItem.idsAt network place' found) : place = place' := by
  obtain ⟨f, mem, rfl, rfl⟩ := FoundItem.mem_idsAt.mp h
  obtain ⟨g, mem', same, rfl⟩ := FoundItem.mem_idsAt.mp h'
  have looked := (located f mem).2
  have looked' := (located g mem').2
  rw [same] at looked'
  have files : f.file = g.file := by simpa using consistent.file _ _ _ looked looked'
  rw [files]

end Journal

/-! ### The described items -/

namespace Members

/-- Whether none of the uploads of an item failed. -/
def keeps (m : Members) (id : String) : Bool := !(m.failed.map (·.item)).contains id

theorem keeps_iff {m : Members} {id : String} :
    m.keeps id = true ↔ ∀ o ∈ m.stored, o.pid.isSome = false → o.item.item ≠ id := by
  simp [keeps, failed]

/-- If no item in the network or elsewhere is also a stored one, the described items are
those in the network, the stored ones none of whose uploads failed, and those elsewhere. -/
theorem described_eq {m : Members} {classified : Classified}
    (stored : m.stored.map (·.item) = classified.stored)
    (apart : ∀ id ∈ classified.inNetwork ++ classified.elsewhere, id ∉ classified.storedIds) :
    m.described classified = classified.inNetwork ++
      (m.stored.filter (m.keeps ·.item.item)).map (·.item.item) ++ classified.elsewhere := by
  have kept : ∀ id ∈ classified.inNetwork ++ classified.elsewhere, m.keeps id = true := by
    intro id mem
    refine keeps_iff.mpr fun o mem' _ same => apart id mem ?_
    rw [Classified.storedIds, ← stored, List.map_map]
    exact List.mem_map.mpr ⟨o, mem', same⟩
  have ids : classified.storedIds = m.stored.map (·.item.item) := by
    rw [Classified.storedIds, ← stored, List.map_map]
    rfl
  show classified.described.filter m.keeps = _
  rw [Classified.described, List.filter_append, List.filter_append, ids, List.filter_map]
  rw [List.filter_eq_self.mpr fun id mem => kept id (List.mem_append_left _ mem)]
  rw [List.filter_eq_self.mpr fun id mem => kept id (List.mem_append_right _ mem)]
  rfl

/-- The uploads of items none of whose uploads failed are among those that did not fail
themselves. -/
theorem kept_eq_filter (m : Members) :
    m.stored.filter (m.keeps ·.item.item) =
      (m.stored.filter (·.pid.isSome)).filter (m.keeps ·.item.item) := by
  rw [List.filter_filter]
  refine List.filter_congr fun o mem => ?_
  cases kept : m.keeps o.item.item with
  | false => simp
  | true =>
      cases some : o.pid.isSome with
      | true => simp
      | false => exact absurd rfl (keeps_iff.mp kept o mem some)

/-- Every upload that did not fail is kept if and only if no item has both an upload that
failed and one that did not. -/
theorem kept_eq_iff (m : Members) :
    m.stored.filter (m.keeps ·.item.item) = m.stored.filter (·.pid.isSome) ↔
      ∀ a ∈ m.stored, ∀ b ∈ m.stored, a.pid.isSome = true → b.pid.isSome = false →
        a.item.item ≠ b.item.item := by
  rw [kept_eq_filter, List.filter_eq_self]
  constructor
  · intro all a mem b mem' some none same
    exact keeps_iff.mp (all a (List.mem_filter.mpr ⟨mem, some⟩)) b mem' none same.symm
  · intro apart a mem
    obtain ⟨mem, some⟩ := List.mem_filter.mp mem
    exact keeps_iff.mpr fun b mem' none same => apart a mem b mem' some none same.symm

end Members

/-! ### The parts of a publication -/

namespace Course

variable {ε ε' α β σ : Type}

/-- What the journal of every single part says of it, the journal of all of them says of
all, element by element. -/
theorem each_forall₂ {c : α → Course ε β} {R : Journal → α → β → Prop}
    (mono : ∀ {j j' a b}, R j a b → (∀ event ∈ j, event ∈ j') → R j' a b)
    (single : ∀ {a trail b}, c a trail (.ok b) → R trail.journal a b) {as : List α}
    {trail : Trail ε} {bs : List β} (along : each c as trail (.ok bs)) :
    List.Forall₂ (R trail.journal) as bs := by
  induction as generalizing trail bs with
  | nil =>
      obtain ⟨rfl, same⟩ := each_nil.mp along
      cases same
      exact .nil
  | cons a rest ih =>
      obtain ⟨b, bs, before, after, rfl, rfl, first, then_⟩ := each_cons_ok.mp along
      rw [Trail.journal_append]
      refine .cons (mono (single first) fun event => List.mem_append_left _) ?_
      exact (ih then_).imp fun a b h => mono h fun event => List.mem_append_right _

theorem record_ok {step : Step} {read : Json → Except Json.Mismatch α} {path : String}
    {trail : Trail StorageError} {a : α} (along : record step read path trail (.ok a)) :
    ∃ document, trail.journal = [.read path (.ok document)] ∧ read document = .ok a := by
  obtain ⟨answer, rfl, said⟩ := along
  cases answer with
  | error e => cases said
  | ok document =>
      refine ⟨document, rfl, ?_⟩
      cases decoded : read document with
      | error mismatch => simp [World.decoded, decoded, Except.bind] at said
      | ok a' =>
          obtain rfl : a = a' := by simpa [World.decoded, decoded, Except.bind] using said
          rfl

/-- An entry of the descriptive record is what the storage tells on the item. -/
theorem objectEntry_tells {step : Step} {id : String} {trail : Trail StorageError}
    {entry : ObjectEntry} (along : objectEntry step id trail (.ok entry)) :
    trail.journal.Tells id entry := by
  obtain ⟨item, asking, _, rfl, asked, along⟩ := bind_ok.mp along
  obtain ⟨file?, looking, _, rfl, ⟨answer, rfl, said⟩, rfl, same⟩ := bind_ok.mp along
  cases same
  obtain rfl : answer = .ok file? := said.symm
  obtain ⟨document, journal, read⟩ := record_ok asked
  refine ⟨document, item, file?, ?_, read, ?_, rfl⟩
  · simp [journal]
  · simp [Trail.journal_cons, Happening.event?]

/-- The classified items are those that were asked for, each with the file that the
storage answered. -/
theorem classification_found {network : Network} {items : List String}
    {trail : Trail ClassificationError} {classified : Classified}
    (along : classification network items trail (.ok classified)) :
    ∃ found, classified = .ofFound network found ∧
      List.Forall₂ trail.journal.Locates items found := by
  obtain ⟨found, looking, _, rfl, asked, rfl, same⟩ := bind_ok.mp along
  cases same
  refine ⟨found, rfl, ?_⟩
  rw [List.append_nil]
  refine each_forall₂ (R := Journal.Locates) Journal.Locates.mono ?_ asked
  rintro item _ f ⟨answer, rfl, said⟩
  rcases answer with e | _ | file
  · cases said
  · cases said
  · cases said
    exact ⟨rfl, by simp [Trail.journal_cons, Happening.event?]⟩

/-- The preparation classifies the items of the request. -/
theorem preparation_found {network : Network} {request : PublishRequest}
    {trail : Trail PublishError} {prepared : Prepared}
    (along : preparation network request trail (.ok prepared)) :
    ∃ found, prepared.classified = .ofFound network found ∧
      List.Forall₂ trail.journal.Locates request.items found := by
  obtain ⟨rightsHolder, _, _, rfl, -, loaded⟩ := bind_ok.mp along
  obtain ⟨⟨tale, user⟩, _, _, rfl, -, located⟩ := bind_ok.mp loaded
  obtain ⟨classified, _, _, rfl, renamed, rfl, same⟩ := bind_ok.mp located
  cases same
  obtain ⟨looking, asked, rfl⟩ := rename_ok.mp renamed
  obtain ⟨found, rfl, answered⟩ := classification_found asked
  refine ⟨found, rfl, answered.imp fun item f h => h.mono fun event mem => ?_⟩
  simp [mem]

/-- The record that the repository takes is written over the entries of the items. -/
theorem recordUpload_ok {request : PublishRequest} {prepared : Prepared} {members : Members}
    {trail : Trail PublishError} {pid : Pid}
    (along : recordUpload request prepared members trail (.ok pid)) :
    ∃ entries document,
      List.Forall₂ trail.journal.Tells (members.described prepared.classified) entries ∧
      DescriptiveRecord.document prepared.tale prepared.user entries pid members.sizes
        request.licenseId prepared.rightsHolder = .ok document ∧
      .created (recordCall pid document prepared.rightsHolder) (.ok ()) ∈ trail.journal := by
  obtain ⟨entries, _, _, rfl, described, drawn⟩ := bind_ok.mp along
  obtain ⟨pid', _, _, rfl, ⟨_, rfl, same⟩, identified⟩ := bind_ok.mp drawn
  cases same
  obtain ⟨document, _, _, rfl, checked, uploaded⟩ := bind_ok.mp identified
  obtain ⟨describing, asked, rfl⟩ := rename_ok.mp described
  obtain ⟨_, verdict, rfl⟩ := rename_ok.mp checked
  obtain ⟨rfl, written⟩ := check_iff.mp verdict
  obtain ⟨_, ⟨answer, rfl, said⟩, rfl⟩ := rename_ok.mp uploaded
  cases answer with
  | error e => cases said
  | ok _ =>
      cases said
      have told := each_forall₂ (R := Journal.Tells) Journal.Tells.mono objectEntry_tells asked
      refine ⟨entries, document, ?_, written.symm, ?_⟩
      · exact told.imp fun id entry h => h.mono fun event mem => by simp [mem]
      · simp [Trail.journal_cons, Happening.event?, recordCall]

namespace Parts

variable {config : Config} {request : PublishRequest} {trail : Trail PublishError}
  {prepared : Prepared} {members : Members} {metadataPid : Pid}

/-- The files of the items were found along the way. -/
theorem found (parts : Parts config request trail prepared members metadataPid) :
    ∃ found, prepared.classified = .ofFound config.effectiveNetwork found ∧
      List.Forall₂ trail.journal.Locates request.items found := by
  obtain ⟨preparing, prepares, within⟩ := parts.preparation
  obtain ⟨found, classified, located⟩ := preparation_found prepares
  exact ⟨found, classified, located.imp fun item f h => h.mono within⟩

/-- The record was written over what the storage told on the described items. -/
theorem recorded (parts : Parts config request trail prepared members metadataPid) :
    ∃ entries document,
      List.Forall₂ (trail.ofStep .descriptiveRecord).journal.Tells
        (members.described prepared.classified) entries ∧
      DescriptiveRecord.document prepared.tale prepared.user entries metadataPid members.sizes
        request.licenseId prepared.rightsHolder = .ok document ∧
      .created (recordCall metadataPid document prepared.rightsHolder) (.ok ()) ∈
        trail.journal := by
  obtain ⟨entries, document, told, written, taken⟩ := recordUpload_ok parts.record
  exact ⟨entries, document, told, written, (Trail.journal_ofStep_sublist _ trail).subset taken⟩

end Parts

end Course

/-! ### The record of a publication -/

/-- Along a trail, the repository takes a descriptive record with some entries. -/
def Trail.Records {ε : Type} (trail : Trail ε) (licenseId : String) (pid : Pid)
    (entries : List ObjectEntry) : Prop :=
  ∃ tale user sizes rightsHolder document,
    DescriptiveRecord.document tale user entries pid sizes licenseId rightsHolder =
      .ok document ∧
    .created (Course.recordCall pid document rightsHolder) (.ok ()) ∈ trail.journal

/-- A publication that succeeds finds its items, uploads the stored ones, and takes a
record over what the storage tells on the described ones. -/
theorem Course.publication_ok {config : Config} {request : PublishRequest}
    {trail : Trail PublishError} {report : PublishReport}
    (along : publication config request trail (.ok report)) :
    ∃ found, ∃ prepared : Prepared, ∃ members : Members, ∃ entries,
      List.Forall₂ trail.journal.Locates request.items found ∧
      prepared.classified = .ofFound config.effectiveNetwork found ∧
      each (itemUpload prepared.rightsHolder) prepared.classified.stored
        (trail.ofStep .localObjects) (.ok members.stored) ∧
      List.Forall₂ trail.journal.Tells (members.described prepared.classified) entries ∧
      trail.Records request.licenseId report.metadataPid entries := by
  obtain ⟨prepared, members, parts, -, -⟩ := publication_parts along
  obtain ⟨found, classified, located⟩ := parts.found
  obtain ⟨entries, document, told, written, taken⟩ := parts.recorded
  refine ⟨found, prepared, members, entries, located, classified, parts.stored, ?_,
    ⟨_, _, _, _, document, written, taken⟩⟩
  exact told.imp fun id entry h => h.mono (Trail.journal_ofStep_sublist _ trail).subset

namespace World

variable (w : World)

/-- The descriptive record of a publication that succeeds, if the storage answers alike
throughout: the items in the network, the stored items none of whose uploads failed, and
the items elsewhere, each with the entry that the storage tells.

So the record has an entry for every upload that did not fail if and only if no item has
both an upload that failed and one that did not. -/
theorem publish_record_enumerates (config : Config) (request : PublishRequest) (s : Session) :
    ∃ trail seconds result s', w.publish config request s = (result, s') ∧
      s' = s.extend (trail.happenings ++ [.measured (.publication (outcome result) seconds)]) ∧
      Course.publication config request trail result ∧
      ∀ report, result = .ok report → trail.journal.Consistent →
        ∃ found rightsHolder, ∃ members : Members, ∃ entries entryOf,
          List.Forall₂ trail.journal.Locates request.items found ∧
          Course.each (Course.itemUpload rightsHolder)
            (found.filter (·.isAt config.effectiveNetwork .stored))
            (trail.ofStep .localObjects) (.ok members.stored) ∧
          (trail.ofStep .localObjects).acceptedPids = members.stored.filterMap (·.pid) ∧
          trail.Records request.licenseId report.metadataPid entries ∧
          (∀ id entry, trail.journal.Tells id entry → entry = entryOf id) ∧
          entries = (FoundItem.idsAt config.effectiveNetwork .inNetwork found ++
            (members.stored.filter (members.keeps ·.item.item)).map (·.item.item) ++
            FoundItem.idsAt config.effectiveNetwork .elsewhere found).map entryOf ∧
          (∀ id ∈ members.described (.ofFound config.effectiveNetwork found),
            trail.journal.Tells id (entryOf id)) ∧
          (entries = (FoundItem.idsAt config.effectiveNetwork .inNetwork found ++
              (members.stored.filter (·.pid.isSome)).map (·.item.item) ++
              FoundItem.idsAt config.effectiveNetwork .elsewhere found).map entryOf ↔
            ∀ a ∈ members.stored, ∀ b ∈ members.stored, a.pid.isSome = true →
              b.pid.isSome = false → a.item.item ≠ b.item.item) := by
  obtain ⟨trail, seconds, result, s', published, along, moved⟩ := w.publish_trail config request s
  refine ⟨trail, seconds, result, s', published, moved, along, ?_⟩
  rintro report rfl consistent
  obtain ⟨found, prepared, members, entries, located, classified, uploaded, told, recorded⟩ :=
    Course.publication_ok along
  obtain ⟨entryOf, unique⟩ := consistent.entryOf
  obtain ⟨credits, outcomes⟩ := Course.storedUploads_credits _ uploaded
  rw [classified] at uploaded told outcomes
  -- No item in the network or elsewhere is a stored one.
  have apart : ∀ id ∈ (Classified.ofFound config.effectiveNetwork found).inNetwork ++
      (Classified.ofFound config.effectiveNetwork found).elsewhere,
      id ∉ (Classified.ofFound config.effectiveNetwork found).storedIds := by
    rw [Classified.ofFound_eq]
    intro id remote stored
    have here := (Journal.locates_all located).2
    rcases List.mem_append.mp remote with there | there
    · cases consistent.one_place here there stored
    · cases consistent.one_place here there stored
  obtain ⟨entered, tells⟩ := Journal.tells_all unique told
  rw [Members.described_eq outcomes apart, Classified.ofFound_eq] at entered
  rw [Classified.ofFound_eq] at uploaded
  refine ⟨found, prepared.rightsHolder, members, entries, entryOf, located, uploaded,
    credits.accepted, recorded, unique, entered, tells, ?_⟩
  rw [← members.kept_eq_iff, entered]
  constructor
  · intro same
    have kept : (members.stored.filter (members.keeps ·.item.item)).Sublist
        (members.stored.filter (·.pid.isSome)) := by
      rw [members.kept_eq_filter]
      exact List.filter_sublist
    exact kept.eq_of_length (by simpa using congrArg List.length same)
  · intro same
    rw [same]

end World

end Deposit
