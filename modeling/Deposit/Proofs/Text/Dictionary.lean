import Deposit.Text.Dictionary
import Mathlib.Data.List.Basic
import Mathlib.Data.String.Basic

/-!
What a dictionary keeps of the entries it is made of: under each key, the last of them
(`lookup_ofList`). So it keeps them all if and only if entries with one key have one value
(`forall_lookup_ofList_iff`), and then their order does not matter (`ofList_perm`).
-/

namespace Deposit.Dictionary

variable {α : Type}

theorem lookup_entry (key k : String) (value : α) (rest : List (String × α)) :
    ((key, value) :: rest).lookup k = if k = key then some value else rest.lookup k := by
  rw [List.lookup_cons]
  by_cases same : k = key
  · simp [same]
  · rw [beq_eq_false_iff_ne.mpr same, if_neg same]

/-- An entry that is put in is found under its key, and the others stay. -/
theorem lookup_insert (key : String) (value : α) (d : Dictionary α) (k : String) :
    (insert key value d).lookup k = if k = key then some value else d.lookup k := by
  induction d with
  | nil => exact lookup_entry key k value []
  | cons entry rest ih =>
      obtain ⟨k', v⟩ := entry
      rw [insert]
      by_cases before : key < k'
      · rw [if_pos before, lookup_entry]
      · rw [if_neg before, lookup_entry k' k v rest]
        by_cases there : key = k'
        · rw [if_pos there, lookup_entry, ← there]
          by_cases same : k = key <;> simp [same]
        · rw [if_neg there, lookup_entry, ih]
          by_cases same : k = key
          · simp [same, there]
          · simp [same]

theorem lookup_foldl_insert (entries : List (String × α)) (k : String) :
    ∀ d : Dictionary α, (entries.foldl (fun d (key, value) => insert key value d) d).lookup k =
      (entries.reverse ++ d).lookup k := by
  induction entries with
  | nil => exact fun d => rfl
  | cons entry rest ih =>
      obtain ⟨key, value⟩ := entry
      intro d
      rw [List.foldl_cons, ih, List.reverse_cons, List.append_assoc, List.lookup_append,
        List.lookup_append, lookup_insert, List.singleton_append, lookup_entry]

/-- Under a key, a dictionary has the last entry with it. -/
theorem lookup_ofList (entries : List (String × α)) (k : String) :
    (ofList entries).lookup k = entries.reverse.lookup k := by
  rw [ofList, lookup_foldl_insert, List.append_nil]

/-- The last of the entries with a key. -/
def Last (key : String) (value : α) (entries : List (String × α)) : Prop :=
  ∃ earlier later, entries = earlier ++ (key, value) :: later ∧ ∀ entry ∈ later, entry.1 ≠ key

theorem lookup_ofList_eq_some_iff {entries : List (String × α)} {k : String} {value : α} :
    (ofList entries).lookup k = some value ↔ Last k value entries := by
  rw [lookup_ofList, List.lookup_eq_some_iff]
  constructor
  · rintro ⟨before, after, split, none⟩
    refine ⟨after.reverse, before.reverse, ?_, fun entry mem => ?_⟩
    · rw [← List.reverse_reverse entries, split]
      simp
    · have other := none entry (List.mem_reverse.mp mem)
      exact (bne_iff_ne.mp other).symm
  · rintro ⟨earlier, later, rfl, none⟩
    refine ⟨later.reverse, earlier.reverse, by simp, fun entry mem => ?_⟩
    exact bne_iff_ne.mpr (none entry (List.mem_reverse.mp mem)).symm

/-- What is found in a dictionary is one of its entries. -/
theorem mem_of_lookup_ofList {entries : List (String × α)} {k : String} {value : α}
    (found : (ofList entries).lookup k = some value) : (k, value) ∈ entries := by
  obtain ⟨earlier, later, rfl, -⟩ := lookup_ofList_eq_some_iff.mp found
  simp

/-- Every key of an entry is found. -/
theorem lookup_ofList_isSome {entries : List (String × α)} {entry : String × α}
    (mem : entry ∈ entries) : ∃ value, (ofList entries).lookup entry.1 = some value := by
  rw [lookup_ofList]
  refine Option.ne_none_iff_exists'.mp fun none => ?_
  have := List.lookup_eq_none_iff.mp none entry (List.mem_reverse.mpr mem)
  simp at this

theorem mem_keys_iff {entries : List (String × α)} {k : String} :
    k ∈ entries.map (·.1) ↔ ∃ value, entries.lookup k = some value := by
  induction entries with
  | nil => simp
  | cons entry rest ih =>
      obtain ⟨key, v⟩ := entry
      rw [List.map_cons, List.mem_cons, ih, lookup_entry]
      by_cases same : k = key <;> simp [same]

/-- The keys of a dictionary are those of its entries. -/
theorem mem_keys_ofList {entries : List (String × α)} {k : String} :
    k ∈ (ofList entries).map (·.1) ↔ k ∈ entries.map (·.1) := by
  rw [mem_keys_iff, lookup_ofList, ← mem_keys_iff, List.map_reverse, List.mem_reverse]

/-- A dictionary keeps all entries if and only if those with one key have one value. -/
theorem forall_lookup_ofList_iff (entries : List (String × α)) :
    (∀ entry ∈ entries, (ofList entries).lookup entry.1 = some entry.2) ↔
      ∀ a ∈ entries, ∀ b ∈ entries, a.1 = b.1 → a.2 = b.2 := by
  constructor
  · intro all a mem b mem' same
    have here := all a mem
    rw [same, all b mem'] at here
    exact (Option.some.inj here).symm
  · intro agree entry mem
    obtain ⟨value, found⟩ := lookup_ofList_isSome mem
    rw [found, agree entry mem _ (mem_of_lookup_ofList found) rfl]

/-! ### The order of entries -/

/-- Entries with different keys are put in in any order. -/
theorem insert_comm {key key' : String} (apart : key ≠ key') (value value' : α)
    (d : Dictionary α) :
    insert key value (insert key' value' d) = insert key' value' (insert key value d) := by
  induction d with
  | nil => grind [insert]
  | cons entry rest ih => grind [insert]

/-- If entries with one key are the same, a dictionary does not depend on their order. -/
theorem ofList_perm {entries entries' : List (String × α)} (perm : entries.Perm entries')
    (agree : ∀ a ∈ entries, ∀ b ∈ entries, a.1 = b.1 → a = b) :
    ofList entries = ofList entries' := by
  refine perm.foldl_eq' (fun a mem b mem' d => ?_) []
  by_cases same : a.1 = b.1
  · rw [agree a mem b mem' same]
  · exact insert_comm (Ne.symm same) b.2 a.2 d

end Deposit.Dictionary
