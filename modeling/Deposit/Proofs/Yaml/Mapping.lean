import Deposit.Yaml.Printer
import Mathlib.Data.List.Basic
import Mathlib.Data.List.Induction

/-!
What a mapping keeps of the entries that are put into it.

* `DistinctKeys.insertAll`: each key once, whatever is put in.
* `insertAll_eq_append`: entries that are put into fields, whose keys are names, replace the values
  of those that they have a key for, in place, and the rest of them follow in their order.
* `get?_insertAll`: so a value is that of the entries, if they have its key, and that of the
  fields otherwise.
* `insertAll_again`: to put the entries in once more changes nothing.
* `exists_document_iff`, `writable_insertAll_iff`: a mapping has a text exactly if each entry can
  be written, and fields with entries put in have one exactly if the entries do.
-/

namespace Deposit

namespace Yaml

/-! ### Keys -/

theorem Tag.same_refl (tag : Tag) : tag.same tag = true := beq_self_eq_true tag.name

mutual

/-- Every value is one key with itself. -/
theorem same_refl : ∀ v : Yaml, v.same v = true
  | .null => by rw [same]
  | .bool b => by rw [same, beq_self_eq_true]
  | .int n => by rw [same, beq_self_eq_true]
  | .float x => by
      rw [same]
      cases x <;> simp [Float.same, Binary64.sameValue]
  | .str s => by rw [same, beq_self_eq_true]
  | .seq items => by rw [same, sameItems_refl items]
  | .map entries => by
      rw [same, beq_self_eq_true, sameEntries_of_subset entries entries (List.Subset.refl _)]
      rfl
  | .tagged tag v => by rw [same, tag.same_refl, same_refl v, Bool.and_self]

theorem sameItems_refl : ∀ items : List Yaml, sameItems items items = true
  | [] => by rw [sameItems]
  | v :: rest => by rw [sameItems, same_refl v, sameItems_refl rest, Bool.true_and]

theorem sameEntries_of_subset :
    ∀ (entries all : Mapping), entries ⊆ all → sameEntries entries all = true
  | [], all, _ => by rw [sameEntries]
  | (k, v) :: rest, all, sub => by
      have here : (all.any fun (k', v') => same k k' && same v v') = true :=
        List.any_eq_true.mpr ⟨(k, v), sub (List.mem_cons_self ..), by
          simp only [same_refl k, same_refl v, Bool.and_self]⟩
      rw [sameEntries, here, Bool.true_and]
      exact sameEntries_of_subset rest all fun e mem => sub (List.mem_cons_of_mem _ mem)

end

theorem same_str_iff {k : Yaml} {key : String} : k.same (.str key) = true ↔ k = .str key := by
  cases k <;> simp [same]

/-- A text is compared from both sides alike. -/
theorem str_same_comm (name : String) (key : Yaml) : (str name).same key = key.same (str name) := by
  cases key with
  | str s => rw [same, same, BEq.comm]
  | _ => simp only [same]

/-- No key stands in a mapping twice. -/
def DistinctKeys (entries : Mapping) : Prop :=
  (entries.map (·.1)).Pairwise fun k k' => k.same k' = false

instance (entries : Mapping) : Decidable (DistinctKeys entries) :=
  inferInstanceAs (Decidable ((entries.map (·.1)).Pairwise fun k k' => k.same k' = false))

/-- Whether a mapping has a key. -/
def hasKey (key : Yaml) (entries : Mapping) : Bool := entries.any (·.1.same key)

theorem hasKey_cons (k v : Yaml) (rest : Mapping) (key : Yaml) :
    hasKey key ((k, v) :: rest) = (k.same key || hasKey key rest) := List.any_cons

theorem hasKey_eq_false_iff {key : Yaml} {entries : Mapping} :
    hasKey key entries = false ↔ ∀ entry ∈ entries, entry.1.same key = false := by
  simp [hasKey]

/-- The value under a key. -/
def get? (key : Yaml) (entries : Mapping) : Option Yaml :=
  (entries.find? (·.1.same key)).map (·.2)

theorem get?_cons (k v : Yaml) (rest : Mapping) (key : Yaml) :
    get? key ((k, v) :: rest) = if k.same key then some v else get? key rest := by
  rw [get?, List.find?_cons, get?]
  cases k.same key <;> rfl

theorem get?_append (key : Yaml) (entries more : Mapping) :
    get? key (entries ++ more) = (get? key entries).or (get? key more) := by
  simp only [get?, List.find?_append, Option.map_or]

theorem get?_eq_none_iff {key : Yaml} {entries : Mapping} :
    get? key entries = none ↔ hasKey key entries = false := by
  simp [get?, hasKey]

/-- Each entry is found under its key. -/
theorem get?_of_mem {entries : Mapping} (distinct : DistinctKeys entries) {key value : Yaml}
    (mem : (key, value) ∈ entries) : get? key entries = some value := by
  induction entries with
  | nil => cases mem
  | cons entry rest ih =>
      obtain ⟨k, v⟩ := entry
      obtain ⟨first, distinct⟩ := List.pairwise_cons.mp distinct
      rw [get?_cons]
      rcases List.mem_cons.mp mem with here | later
      · obtain ⟨rfl, rfl⟩ := Prod.mk.inj here
        rw [if_pos (same_refl key)]
      · have other := first key (List.mem_map.mpr ⟨_, later, rfl⟩)
        rw [other, if_neg Bool.false_ne_true, ih distinct later]

/-! ### Putting an entry in -/

theorem insert_append (key value : Yaml) (entries more : Mapping) :
    insert key value (entries ++ more) =
      if hasKey key entries then insert key value entries ++ more
      else entries ++ insert key value more := by
  induction entries with
  | nil => rfl
  | cons entry rest ih =>
      obtain ⟨k, v⟩ := entry
      rw [List.cons_append, insert, insert, ih, hasKey_cons]
      cases k.same key with
      | true => rfl
      | false => cases hasKey key rest <;> rfl

theorem insert_of_not_hasKey {key : Yaml} {entries : Mapping} (absent : hasKey key entries = false)
    (value : Yaml) : insert key value entries = entries ++ [(key, value)] := by
  have put := insert_append key value entries []
  rw [absent, List.append_nil] at put
  exact put

theorem keys_insert (key value : Yaml) (entries : Mapping) :
    (insert key value entries).map (·.1) =
      if hasKey key entries then entries.map (·.1) else entries.map (·.1) ++ [key] := by
  induction entries with
  | nil => rfl
  | cons entry rest ih =>
      obtain ⟨k, v⟩ := entry
      rw [insert, hasKey_cons]
      cases k.same key with
      | true => rfl
      | false =>
          rw [if_neg Bool.false_ne_true, List.map_cons, ih]
          cases hasKey key rest <;> rfl

/-- To put in what is there changes nothing. -/
theorem insert_eq_self {key value : Yaml} {entries : Mapping}
    (found : get? key entries = some value) : insert key value entries = entries := by
  induction entries with
  | nil => cases found
  | cons entry rest ih =>
      obtain ⟨k, v⟩ := entry
      rw [get?_cons] at found
      rw [insert]
      cases here : k.same key with
      | true =>
          rw [here, if_pos rfl] at found
          obtain rfl := Option.some.inj found
          rfl
      | false =>
          rw [here, if_neg Bool.false_ne_true] at found
          rw [if_neg Bool.false_ne_true, ih found]

theorem DistinctKeys.insert {entries : Mapping} (distinct : DistinctKeys entries)
    (key value : Yaml) : DistinctKeys (insert key value entries) := by
  rw [DistinctKeys, keys_insert]
  cases present : hasKey key entries with
  | true => exact distinct
  | false =>
      refine List.pairwise_append.mpr ⟨distinct, List.pairwise_singleton _ _, ?_⟩
      intro k mem key' mem'
      obtain rfl := List.mem_singleton.mp mem'
      obtain ⟨entry, inside, rfl⟩ := List.mem_map.mp mem
      exact hasKey_eq_false_iff.mp present entry inside

/-- A mapping that entries are put into keeps each key once, whatever they are. -/
theorem DistinctKeys.insertAll {entries : Mapping} (distinct : DistinctKeys entries)
    (more : Mapping) : DistinctKeys (insertAll more entries) := by
  induction more generalizing entries with
  | nil => exact distinct
  | cons entry rest ih => exact ih (distinct.insert entry.1 entry.2)

theorem insertAll_cons (key value : Yaml) (more entries : Mapping) :
    insertAll ((key, value) :: more) entries = insertAll more (insert key value entries) := rfl

theorem insertAll_concat (more : Mapping) (key value : Yaml) (entries : Mapping) :
    insertAll (more ++ [(key, value)]) entries = insert key value (insertAll more entries) := by
  rw [insertAll, List.foldl_append, ← insertAll]
  rfl

/-- Entries that are all there change nothing. -/
theorem insertAll_eq_self {more entries : Mapping}
    (found : ∀ entry ∈ more, get? entry.1 entries = some entry.2) :
    insertAll more entries = entries := by
  induction more with
  | nil => rfl
  | cons entry rest ih =>
      obtain ⟨key, value⟩ := entry
      rw [insertAll_cons, insert_eq_self (found _ (List.mem_cons_self ..))]
      exact ih fun e mem => found e (List.mem_cons_of_mem _ mem)

/-! ### Putting entries into fields -/

/-- A mapping of fields: its keys are names. -/
def Named (fields : Mapping) : Prop := ∀ field ∈ fields, ∃ name, field.1 = .str name

/-- Fields with the values that other entries have for their keys. -/
def replaced (fields more : Mapping) : Mapping :=
  fields.map fun (key, value) => (key, (get? key more).getD value)

/-- The entries whose keys are none of the fields'. -/
def others (fields more : Mapping) : Mapping := more.filter fun entry => !hasKey entry.1 fields

variable {fields more : Mapping}

theorem replaced_cons (key value : Yaml) (rest more : Mapping) :
    replaced ((key, value) :: rest) more =
      (key, (get? key more).getD value) :: replaced rest more := rfl

theorem keys_replaced (fields more : Mapping) :
    (replaced fields more).map (·.1) = fields.map (·.1) := by
  simp [replaced, Function.comp_def]

theorem hasKey_replaced (key : Yaml) (fields more : Mapping) :
    hasKey key (replaced fields more) = hasKey key fields := by
  simp [hasKey, replaced, Function.comp_def]

theorem Named.same_comm (named : Named fields) {field : Yaml × Yaml} (mem : field ∈ fields)
    (key : Yaml) : field.1.same key = key.same field.1 := by
  obtain ⟨name, text⟩ := named field mem
  rw [text, str_same_comm]

/-- Only the key of a field itself is one key with it. -/
theorem Named.eq_of_same (named : Named fields) {field : Yaml × Yaml} (mem : field ∈ fields)
    {key : Yaml} (here : field.1.same key = true) : key = field.1 := by
  rw [named.same_comm mem] at here
  obtain ⟨name, text⟩ := named field mem
  rw [text] at here ⊢
  exact same_str_iff.mp here

theorem Named.get?_replaced (named : Named fields) (key : Yaml) (more : Mapping) :
    get? key (replaced fields more) =
      (get? key fields).map fun value => (get? key more).getD value := by
  induction fields with
  | nil => rfl
  | cons field rest ih =>
      obtain ⟨k, v⟩ := field
      have ih := ih fun field mem => named field (List.mem_cons_of_mem _ mem)
      rw [replaced_cons, get?_cons, get?_cons, ih]
      cases here : k.same key with
      | true =>
          rw [named.eq_of_same (List.mem_cons_self ..) here]
          rfl
      | false => rfl

/-- An entry with another key leaves the values of fields. -/
theorem Named.replaced_concat (named : Named fields) {key : Yaml}
    (absent : hasKey key fields = false) (value : Yaml) (more : Mapping) :
    replaced fields (more ++ [(key, value)]) = replaced fields more := by
  refine List.map_congr_left fun field mem => ?_
  have other : key.same field.1 = false :=
    (named.same_comm mem key).symm.trans (hasKey_eq_false_iff.mp absent field mem)
  simp only [get?_append, get?_cons, other, if_neg Bool.false_ne_true]
  simp [get?]

/-- The value of a field is replaced in place. -/
theorem Named.insert_replaced (named : Named fields) (distinct : DistinctKeys fields) {key : Yaml}
    (present : hasKey key fields = true) (fresh : hasKey key more = false) (value : Yaml) :
    insert key value (replaced fields more) = replaced fields (more ++ [(key, value)]) := by
  induction fields with
  | nil => cases present
  | cons field rest ih =>
      obtain ⟨k, v⟩ := field
      obtain ⟨first, distinct⟩ := List.pairwise_cons.mp distinct
      have namedRest : Named rest := fun field mem => named field (List.mem_cons_of_mem _ mem)
      have comm := named.same_comm (List.mem_cons_self ..) key
      rw [replaced_cons, replaced_cons, insert, get?_append, get?_cons, ← comm]
      cases here : k.same key with
      | true =>
          obtain rfl := named.eq_of_same (List.mem_cons_self ..) here
          have absent : hasKey key rest = false := hasKey_eq_false_iff.mpr fun field mem =>
            (namedRest.same_comm mem key).trans (first field.1 (List.mem_map_of_mem mem))
          rw [namedRest.replaced_concat absent, get?_eq_none_iff.mpr fresh]
          rfl
      | false =>
          rw [hasKey_cons, here, Bool.false_or] at present
          rw [if_neg Bool.false_ne_true, if_neg Bool.false_ne_true, ih namedRest distinct present]
          simp [get?]

/-- Entries that are put into fields replace their values in place, and those with other keys
follow in their order. -/
theorem insertAll_eq_append (named : Named fields) (distinct : DistinctKeys fields)
    (once : DistinctKeys more) :
    insertAll more fields = replaced fields more ++ others fields more := by
  induction more using List.reverseRecOn with
  | nil => simp [insertAll, others, replaced, get?]
  | append_singleton more entry ih =>
      obtain ⟨key, value⟩ := entry
      rw [DistinctKeys, List.map_append] at once
      obtain ⟨before, -, last⟩ := List.pairwise_append.mp once
      have fresh : hasKey key more = false := hasKey_eq_false_iff.mpr fun entry mem =>
        last entry.1 (List.mem_map_of_mem mem) key (by simp)
      rw [insertAll_concat, ih before, insert_append, hasKey_replaced]
      cases present : hasKey key fields with
      | true =>
          rw [if_pos rfl, named.insert_replaced distinct present fresh, others, others,
            List.filter_append, List.filter_cons_of_neg (by simp [present])]
          simp
      | false =>
          have fresh' : hasKey key (others fields more) = false :=
            hasKey_eq_false_iff.mpr fun entry mem =>
              hasKey_eq_false_iff.mp fresh entry (List.mem_filter.mp mem).1
          rw [if_neg Bool.false_ne_true, insert_of_not_hasKey fresh', named.replaced_concat present,
            others, others, List.filter_append, List.filter_cons_of_pos (by simp [present])]
          rfl

/-- The value under a key is that of the entries, if they have the key, and that of the fields
otherwise. -/
theorem get?_insertAll (named : Named fields) (distinct : DistinctKeys fields)
    (once : DistinctKeys more) (key : Yaml) :
    get? key (insertAll more fields) = (get? key more).or (get? key fields) := by
  rw [insertAll_eq_append named distinct once, get?_append, named.get?_replaced]
  cases field : get? key fields with
  | some value =>
      cases get? key more <;> rfl
  | none =>
      have absent := get?_eq_none_iff.mp field
      -- An entry with the key is none of those that are left out.
      have unlisted (entry : Yaml × Yaml) :
          decide ((!hasKey entry.1 fields) = true ∧ entry.1.same key = true) =
            entry.1.same key := by
        cases listed : hasKey entry.1 fields with
        | false => simp
        | true =>
            obtain ⟨field, mem, same⟩ := List.any_eq_true.mp listed
            rw [named.eq_of_same mem same, hasKey_eq_false_iff.mp absent field mem]
            simp
      rw [Option.map_none, Option.none_or, Option.or_none, get?, others, List.find?_filter, get?]
      simp only [unlisted]

/-- To put the entries in once more changes nothing. -/
theorem insertAll_again (named : Named fields) (distinct : DistinctKeys fields)
    (once : DistinctKeys more) :
    insertAll more (insertAll more fields) = insertAll more fields := by
  refine insertAll_eq_self fun entry mem => ?_
  rw [get?_insertAll named distinct once, get?_of_mem once mem, Option.some_or]

theorem keys_insertAll (named : Named fields) (distinct : DistinctKeys fields)
    (once : DistinctKeys more) :
    (insertAll more fields).map (·.1) =
      fields.map (·.1) ++ (more.map (·.1)).filter fun key => !hasKey key fields := by
  rw [insertAll_eq_append named distinct once, List.map_append, keys_replaced, others,
    List.filter_map]
  rfl

/-! ### Which mappings have a text -/

/-- An entry in which no tag stands directly on a tag. -/
def IsWritable (entry : Yaml × Yaml) : Prop :=
  nestsTags entry.1 = false ∧ nestsTags entry.2 = false

theorem entriesNestTags_eq_false_iff {entries : Mapping} :
    entriesNestTags entries = false ↔ ∀ entry ∈ entries, IsWritable entry := by
  induction entries with
  | nil => simp [entriesNestTags]
  | cons entry rest ih => simp [entriesNestTags, ih, IsWritable]

theorem exists_document_iff {entries : Mapping} :
    (∃ text, document entries = .ok text) ↔ ∀ entry ∈ entries, IsWritable entry := by
  rw [← entriesNestTags_eq_false_iff]
  unfold document
  cases nested : entriesNestTags entries with
  | true => simp
  | false => cases entries <;> simp

theorem nestsTags_str (s : String) : nestsTags (.str s) = false := by simp [nestsTags]

theorem nestsTags_ofTexts (entries : List (String × String)) :
    nestsTags (ofTexts entries) = false := by
  rw [ofTexts, nestsTags, entriesNestTags_eq_false_iff, List.forall_mem_map]
  exact fun (key, value) _ => ⟨nestsTags_str key, nestsTags_str value⟩

/-- Fields that can be written have a text with entries put in exactly if the entries have one. -/
theorem writable_insertAll_iff (named : Named fields) (distinct : DistinctKeys fields)
    (once : DistinctKeys more) (writable : ∀ field ∈ fields, IsWritable field) :
    (∀ entry ∈ insertAll more fields, IsWritable entry) ↔ ∀ entry ∈ more, IsWritable entry := by
  rw [insertAll_eq_append named distinct once, List.forall_mem_append, replaced,
    List.forall_mem_map]
  constructor
  · rintro ⟨replacing, following⟩ ⟨key, value⟩ mem
    cases present : hasKey key fields with
    | true =>
        obtain ⟨⟨k, v⟩, inside, same⟩ := List.any_eq_true.mp present
        obtain rfl := named.eq_of_same inside same
        have here : IsWritable (key, (get? key more).getD v) := replacing (key, v) inside
        rwa [get?_of_mem once mem] at here
    | false => exact following _ (List.mem_filter.mpr ⟨mem, by simp [present]⟩)
  · intro entries
    refine ⟨fun (key, value) inside => ?_,
      fun entry mem => entries entry (List.mem_filter.mp mem).1⟩
    obtain ⟨keyWritable, valueWritable⟩ := writable (key, value) inside
    show IsWritable (key, (get? key more).getD value)
    cases found : get? key more with
    | none => exact ⟨keyWritable, valueWritable⟩
    | some replacement =>
        obtain ⟨entry, first, rfl⟩ := Option.map_eq_some_iff.mp found
        exact ⟨keyWritable, (entries entry (List.mem_of_find?_eq_some first)).2⟩

end Yaml

end Deposit
