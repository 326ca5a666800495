import Deposit.PackageInfo
import Deposit.Proofs.Text.Dictionary
import Deposit.Proofs.Yaml.Mapping

/-!
The sections of a package-info document.

Provenance replaces what it has a key for. A section that it has no key for holds what was
collected: the last path with each name (`valueAt?_paths`), and the last linked file with
each name (`valueAt?_externalFiles`).
-/

namespace Deposit

namespace Yaml

/-! ### Looking up texts -/

/-- The value under a text in a mapping. -/
def valueAt? (key : String) (entries : Mapping) : Option Yaml :=
  (entries.find? (·.1.same (.str key))).map (·.2)

/-- The entries of the mapping under a text; none if there is no mapping. -/
def sectionAt (key : String) (entries : Mapping) : Mapping :=
  match valueAt? key entries with
  | some (.map entries) => entries
  | _ => []

theorem valueAt?_cons (k v : Yaml) (rest : Mapping) (key : String) :
    valueAt? key ((k, v) :: rest) = if k.same (.str key) then some v else valueAt? key rest :=
  get?_cons k v rest (.str key)

/-- An entry under another key changes nothing. -/
theorem valueAt?_insert {k : Yaml} {key : String} (other : k.same (.str key) = false) (v : Yaml)
    (entries : Mapping) : valueAt? key (insert k v entries) = valueAt? key entries := by
  induction entries with
  | nil => rw [insert, valueAt?_cons, if_neg (by simp [other])]
  | cons entry rest ih =>
      obtain ⟨k', v'⟩ := entry
      rw [insert]
      cases replaced : k'.same k with
      | false => rw [if_neg Bool.false_ne_true, valueAt?_cons, valueAt?_cons, ih]
      | true =>
          -- The key that is replaced is not the text either.
          have apart : k'.same (.str key) = false := by
            refine Bool.eq_false_iff.mpr fun here => ?_
            obtain rfl := same_str_iff.mp here
            cases k <;> simp_all [same]
          rw [if_pos rfl, valueAt?_cons, valueAt?_cons, apart]
          rfl

/-- Entries without a key leave what is under it. -/
theorem valueAt?_insertAll {key : String} {more : Mapping} (absent : valueAt? key more = none) :
    ∀ entries, valueAt? key (insertAll more entries) = valueAt? key entries := by
  induction more with
  | nil => exact fun entries => rfl
  | cons entry rest ih =>
      obtain ⟨k, v⟩ := entry
      rw [valueAt?_cons] at absent
      cases here : k.same (.str key) with
      | true => rw [here] at absent; cases absent
      | false =>
          rw [here] at absent
          exact fun entries => (ih absent _).trans (valueAt?_insert here v entries)

/-- A mapping of entries with texts for keys has the values of the entries. -/
theorem valueAt?_map {α : Type} (value : α → Yaml) (entries : List (String × α)) (key : String) :
    valueAt? key (entries.map fun (k, a) => (.str k, value a)) =
      (entries.lookup key).map value := by
  induction entries with
  | nil => rfl
  | cons entry rest ih =>
      obtain ⟨k, a⟩ := entry
      rw [List.map_cons, valueAt?_cons, Dictionary.lookup_entry, ih]
      by_cases here : k = key
      · simp [here, same]
      · simp [here, Ne.symm here, same]

end Yaml

namespace PackageInfo

/-! ### Sections -/

/-- The section of paths, unless provenance replaces it. -/
theorem sectionAt_paths {info : PackageInfo}
    (absent : Yaml.valueAt? "paths" info.provenance = none) :
    Yaml.sectionAt "paths" info.entries = info.paths.map fun (k, v) => (.str k, .str v) := by
  have fixed : Yaml.valueAt? "paths" info.fixedEntries = some (Yaml.ofTexts info.paths) := by
    simp [fixedEntries, Yaml.valueAt?_cons, Yaml.same]
  rw [Yaml.sectionAt, entries, Yaml.valueAt?_insertAll absent, fixed]
  rfl

/-- The section of linked files, unless provenance replaces it; none stands for no files. -/
theorem sectionAt_externalFiles {info : PackageInfo}
    (absent : Yaml.valueAt? "external files" info.provenance = none) :
    Yaml.sectionAt "external files" info.entries =
      info.externalFiles.map fun (k, file) => (.str k, externalValue file) := by
  have fixed : Yaml.valueAt? "external files" info.fixedEntries =
      Yaml.valueAt? "external files" (externalEntries info.externalFiles) := by
    simp [fixedEntries, Yaml.valueAt?_cons, Yaml.same]
  rw [Yaml.sectionAt, entries, Yaml.valueAt?_insertAll absent, fixed, externalEntries]
  cases files : info.externalFiles with
  | nil => rfl
  | cons file rest => simp [Yaml.valueAt?_cons, Yaml.same]

theorem externalValue_inj {file file' : ExternalFile} :
    externalValue file = externalValue file' ↔ file = file' := by
  cases file
  cases file'
  simp [externalValue, Yaml.ofTexts]

variable {tale : Tale} {placed : List (String × String)} {linked : List (String × ExternalFile)}
  {provenance : Yaml.Mapping}

/-- Under a name, a document has the last path with it. -/
theorem valueAt?_paths (files : Dictionary ExternalFile)
    (absent : Yaml.valueAt? "paths" provenance = none) (name : String) :
    Yaml.valueAt? name (Yaml.sectionAt "paths"
      (ofTale tale (.ofList placed) files provenance).entries) =
        (placed.reverse.lookup name).map .str := by
  rw [sectionAt_paths absent, Yaml.valueAt?_map, ← Dictionary.lookup_ofList]
  rfl

/-- Under a name, a document has the last linked file with it. -/
theorem valueAt?_externalFiles (paths : Dictionary String)
    (absent : Yaml.valueAt? "external files" provenance = none) (name : String) :
    Yaml.valueAt? name (Yaml.sectionAt "external files"
      (ofTale tale paths (.ofList linked) provenance).entries) =
        (linked.reverse.lookup name).map externalValue := by
  rw [sectionAt_externalFiles absent, Yaml.valueAt?_map, ← Dictionary.lookup_ofList]
  rfl

end PackageInfo

end Deposit
