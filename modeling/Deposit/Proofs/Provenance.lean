import Deposit.Proofs.PackageInfo

/-!
Provenance in a package-info document: it replaces fields in place, and follows with what is none
of them. The document has a text exactly if provenance does (`provenance_overrides`).
-/

namespace Deposit

namespace PackageInfo

/-! ### The fields of a document -/

/-- What is written for a field of a tale: `None` if it is not set or null, a text as it is, and
the compact text of any other value. -/
inductive IsWritten : Option Json → String → Prop where
  | unset : IsWritten none "None"
  | null : IsWritten (some .null) "None"
  | text (s : String) : IsWritten (some (.str s)) s
  | value {v : Json} (notNull : v ≠ .null) (notText : ∀ s, v ≠ .str s) :
    IsWritten (some v) v.compact

theorem isWritten_fieldText (field : Option Json) : IsWritten field (fieldText field) := by
  match field with
  | none => exact .unset
  | some .null => exact .null
  | some (.str s) => exact .text s
  | some (.bool b) => exact .value (by simp) (by simp)
  | some (.num n) => exact .value (by simp) (by simp)
  | some (.arr items) => exact .value (by simp) (by simp)
  | some (.obj members) => exact .value (by simp) (by simp)

theorem isWritten_category (category : Option String) :
    IsWritten (category.map .str) (category.getD unset) := by
  cases category with
  | none => exact .unset
  | some s => exact .text s

/-- The names of the fields, in their order. -/
def fieldNames (files : Dictionary ExternalFile) : List String :=
  ["version", "identifier", "metadata", "category", "format", "config", "paths"] ++
    if files = [] then [] else ["external files"]

theorem keys_fixedEntries (info : PackageInfo) :
    info.fixedEntries.map (·.1) = (fieldNames info.externalFiles).map .str := by
  rw [fixedEntries, externalEntries, fieldNames]
  cases info.externalFiles <;> rfl

theorem named_fixedEntries (info : PackageInfo) : Yaml.Named info.fixedEntries := by
  intro field mem
  have key := List.mem_map_of_mem (f := (·.1)) mem
  rw [keys_fixedEntries] at key
  obtain ⟨name, -, text⟩ := List.mem_map.mp key
  exact ⟨name, text.symm⟩

theorem distinctKeys_fixedEntries (info : PackageInfo) : Yaml.DistinctKeys info.fixedEntries := by
  rw [Yaml.DistinctKeys, keys_fixedEntries, fieldNames]
  cases info.externalFiles with
  | nil => decide
  | cons file rest => rw [if_neg (by simp)]; decide

theorem writable_fixedEntries (info : PackageInfo) :
    ∀ field ∈ info.fixedEntries, Yaml.IsWritable field := by
  have texts (name value : String) : Yaml.IsWritable (.str name, .str value) :=
    ⟨Yaml.nestsTags_str name, Yaml.nestsTags_str value⟩
  have files : ∀ field ∈ externalEntries info.externalFiles, Yaml.IsWritable field := by
    rw [externalEntries]
    split
    · simp
    · refine List.forall_mem_singleton.mpr ⟨Yaml.nestsTags_str _, ?_⟩
      rw [Yaml.nestsTags, Yaml.entriesNestTags_eq_false_iff, List.forall_mem_map]
      exact fun entry _ => ⟨Yaml.nestsTags_str entry.1, Yaml.nestsTags_ofTexts _⟩
  refine List.forall_mem_append.mpr ⟨?_, files⟩
  simp only [List.forall_mem_cons, List.not_mem_nil, false_implies, implies_true, and_true, texts,
    true_and]
  exact ⟨Yaml.nestsTags_str _, Yaml.nestsTags_ofTexts _⟩

/-- The fields of a document with texts for category, format and settings of its tale: the places
of items by name, and address and checksum of the linked files, if there are any. -/
def fields (id category format config : String) (paths : Dictionary String)
    (files : Dictionary ExternalFile) : Yaml.Mapping :=
  [(.str "version", .str "2.1"), (.str "identifier", .str id),
    (.str "metadata", .str "Metadata: science_metadata.xml"), (.str "category", .str category),
    (.str "format", .str format), (.str "config", .str config),
    (.str "paths", .map (paths.map fun (name, path) => (.str name, .str path)))] ++
  if files = [] then []
  else
    [(.str "external files", .map (files.map fun (name, file) =>
      (.str name, .map [(.str "url", .str file.url), (.str "md5", .str file.md5)])))]

theorem fixedEntries_ofTale (tale : Tale) (paths : Dictionary String)
    (files : Dictionary ExternalFile) (provenance : Yaml.Mapping) :
    (ofTale tale paths files provenance).fixedEntries =
      fields tale.id (tale.category.getD unset) (fieldText tale.format) (fieldText tale.config)
        paths files := by
  cases files <;> rfl

/-- **Provenance overrides the fields in place.** A document is the text of a mapping. It has one
exactly if no tag stands directly on a tag in provenance.

* No key of it is there twice.
* Its keys are the names of the fields, with that of the linked files exactly if there are any,
  and then the keys of provenance that are none of these, in the order of provenance.
* The value under a key is that of provenance, if it has the key, and that of the field otherwise:
  `None` for a category, format or setting that is not set, a text as it is, and the compact text
  of any other value.
* To merge the same provenance once more changes nothing. -/
theorem provenance_overrides (tale : Tale) (paths : Dictionary String)
    (files : Dictionary ExternalFile) {provenance : Yaml.Mapping}
    (once : Yaml.DistinctKeys provenance) :
    let info := ofTale tale paths files provenance
    ∃ category format config,
      IsWritten (tale.category.map .str) category ∧ IsWritten tale.format format ∧
      IsWritten tale.config config ∧
      let fields := fields tale.id category format config paths files
      info.text = Yaml.document info.entries ∧
      ((∃ text, info.text = .ok text) ↔ ∀ entry ∈ provenance, Yaml.IsWritable entry) ∧
      Yaml.DistinctKeys info.entries ∧
      info.entries.map (·.1) =
        (fieldNames files).map .str ++
          (provenance.map (·.1)).filter (fun key => !Yaml.hasKey key fields) ∧
      (∀ key, Yaml.get? key info.entries =
        (Yaml.get? key provenance).or (Yaml.get? key fields)) ∧
      Yaml.insertAll provenance info.entries = info.entries := by
  intro info
  have fixed : info.fixedEntries = _ := fixedEntries_ofTale tale paths files provenance
  have named := info.named_fixedEntries
  have distinct := info.distinctKeys_fixedEntries
  refine ⟨_, _, _, isWritten_category tale.category, isWritten_fieldText tale.format,
    isWritten_fieldText tale.config, ?_⟩
  rw [← fixed]
  have written := Yaml.writable_insertAll_iff named distinct once info.writable_fixedEntries
  refine ⟨rfl, Yaml.exists_document_iff.trans written, distinct.insertAll provenance, ?_,
    Yaml.get?_insertAll named distinct once, Yaml.insertAll_again named distinct once⟩
  have names : info.fixedEntries.map (·.1) = (fieldNames files).map .str := info.keys_fixedEntries
  rw [← names]
  exact Yaml.keys_insertAll named distinct once

/-- Provenance with a key of a field, with that of linked files that are not there, and with keys
that are no texts. A tagged key is found with the mark of its tag and without. -/
theorem provenance_overrides_sample :
    let tagged (tag : Yaml.Tag) (name : String) : Yaml := .tagged tag (.str name)
    let provenance : Yaml.Mapping :=
      [(.int 1, .bool true), (.str "category", tagged ⟨"land", by decide⟩ "soil"),
        (tagged ⟨"unit", by decide⟩ "depth", .seq [.null]), (.str "external files", .str "none")]
    let tale : Tale := ⟨"t1", "", none, none, some .null, some (.arr [.bool true]), none⟩
    let info := ofTale tale [("a.csv", "/a.csv")] [] provenance
    Yaml.DistinctKeys provenance ∧
      (∃ text, info.text = .ok text) ∧
      info.entries.map (·.1) =
        [.str "version", .str "identifier", .str "metadata", .str "category", .str "format",
          .str "config", .str "paths", .int 1, tagged ⟨"unit", by decide⟩ "depth",
          .str "external files"] ∧
      Yaml.get? (.str "category") info.entries = some (tagged ⟨"land", by decide⟩ "soil") ∧
      Yaml.get? (tagged ⟨"!unit", by decide⟩ "depth") info.entries = some (.seq [.null]) ∧
      Yaml.get? (.str "format") info.entries = some (.str "None") ∧
      Yaml.get? (.str "external files") info.entries = some (.str "none") := by
  intro tagged provenance tale info
  have once : Yaml.DistinctKeys provenance := by decide
  have writable : ∀ entry ∈ provenance, Yaml.IsWritable entry :=
    Yaml.entriesNestTags_eq_false_iff.mp rfl
  obtain ⟨category, format, config, -, written, -, -, text, -, keys, values, -⟩ :=
    provenance_overrides tale [("a.csv", "/a.csv")] [] once
  refine ⟨once, text.mpr writable, keys.trans rfl, ?_, ?_, ?_, ?_⟩
  · exact (values _).trans rfl
  · exact (values _).trans rfl
  · cases written with
    | null => exact (values _).trans rfl
    | value notNull => exact absurd rfl notNull
  · exact (values _).trans rfl

end PackageInfo

end Deposit
