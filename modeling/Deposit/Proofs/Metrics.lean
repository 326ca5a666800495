import Deposit.Metrics
import Mathlib.Algebra.BigOperators.Group.List.Basic
import Mathlib.Algebra.Ring.Nat
import Mathlib.Data.List.Nodup

/-!
Totals of a log over all kinds of objects.

A log counts create calls and bytes by kind. Each measured call is of one kind, and the kinds
of a log are listed once each (`nodup_kinds`), so the counts of all kinds together are those of
the measured calls (`uploadTotal_eq`, `byteTotal_eq`), and grow by those of what is added.
-/

namespace Deposit.MeasurementLog

/-! ### Labels -/

theorem nodup_eraseDups (texts : List String) : texts.eraseDups.Nodup := by
  induction h : texts.length using Nat.strongRecOn generalizing texts with
  | ind n ih =>
      cases texts with
      | nil => simp
      | cons text rest =>
          rw [List.eraseDups_cons, List.nodup_cons]
          refine ⟨by simp, ih _ ?_ _ rfl⟩
          rw [← h, List.length_cons]
          exact Nat.lt_succ_of_le (List.length_filter_le _ _)

theorem nodup_distinct (texts : List String) : (distinct texts).Nodup :=
  (List.mergeSort_perm _ _).nodup_iff.mpr (nodup_eraseDups texts)

theorem mem_distinct {text : String} {texts : List String} :
    text ∈ distinct texts ↔ text ∈ texts := by
  rw [distinct, List.mem_mergeSort, List.mem_eraseDups]

/-! ### Totals -/

/-- The create calls of a log that were accepted, or refused, each with its kind and bytes. -/
def calls (log : MeasurementLog) (success : Bool) : List (String × Nat) :=
  log.filterMap fun
    | .upload kind s bytes => if s == success then some (kind, bytes) else none
    | _ => none

@[simp] theorem calls_append (log more : MeasurementLog) (success : Bool) :
    calls (log ++ more) success = log.calls success ++ calls more success :=
  List.filterMap_append

/-- The create calls for all kinds of objects that were accepted, or refused. -/
def uploadTotal (log : MeasurementLog) (success : Bool) : Nat :=
  (log.kinds.map (log.uploads · success)).sum

/-- The bytes of the accepted objects of all kinds. -/
def byteTotal (log : MeasurementLog) : Nat := (log.kinds.map log.uploadedBytes).sum

/-- What entries weigh key by key is what they weigh together, if each key is listed once. -/
theorem sum_by_key {keys : List String} (once : keys.Nodup) (weight : String × Nat → Nat)
    {entries : List (String × Nat)} (listed : ∀ e ∈ entries, e.1 ∈ keys) :
    (keys.map fun key => ((entries.filter (·.1 == key)).map weight).sum).sum =
      (entries.map weight).sum := by
  induction entries with
  | nil => simp
  | cons e rest ih =>
      obtain ⟨here, listed⟩ := List.forall_mem_cons.mp listed
      have split : ∀ key, (((e :: rest).filter (·.1 == key)).map weight).sum =
          (if e.1 = key then weight e else 0) +
            ((rest.filter (·.1 == key)).map weight).sum := by
        intro key
        by_cases same : e.1 = key <;> simp [same]
      have first : (keys.map fun key => if e.1 = key then weight e else 0).sum = weight e := by
        rw [List.sum_map_eq_nsmul_single e.1 _ fun key other _ => if_neg other.symm,
          List.count_eq_one_of_mem once here]
        simp
      simp only [split, List.sum_map_add, first, ih listed, List.map_cons, List.sum_cons]

theorem nodup_kinds (log : MeasurementLog) : log.kinds.Nodup := nodup_distinct _

theorem mem_kinds {log : MeasurementLog} {success : Bool} {e : String × Nat}
    (mem : e ∈ log.calls success) : e.1 ∈ log.kinds := by
  obtain ⟨m, mem, made⟩ := List.mem_filterMap.mp mem
  refine mem_distinct.mpr (List.mem_filterMap.mpr ⟨m, mem, ?_⟩)
  cases m with
  | upload kind s bytes =>
      by_cases same : s = success
      · simp [same] at made
        simp [← made]
      · simp [same] at made
  | publication outcome seconds => cases made
  | degraded step => cases made

theorem uploads_eq (log : MeasurementLog) (kind : String) (success : Bool) :
    log.uploads kind success = ((log.calls success).filter (·.1 == kind)).length := by
  induction log with
  | nil => rfl
  | cons m rest ih =>
      rw [uploads] at ih ⊢
      cases m with
      | publication outcome seconds => simpa [calls] using ih
      | degraded step => simpa [calls] using ih
      | upload k s bytes =>
          by_cases same : s = success
          · by_cases here : k = kind <;> simpa [calls, same, here] using ih
          · simpa [calls, same] using ih

theorem uploadedBytes_eq (log : MeasurementLog) (kind : String) :
    log.uploadedBytes kind = (((log.calls true).filter (·.1 == kind)).map (·.2)).sum := by
  rw [uploadedBytes, ← List.sum_eq_foldl]
  congr 1
  induction log with
  | nil => rfl
  | cons m rest ih =>
      rw [uploadedSizes] at ih ⊢
      cases m with
      | publication outcome seconds => simpa [calls] using ih
      | degraded step => simpa [calls] using ih
      | upload k s bytes =>
          cases s with
          | false => simpa [calls] using ih
          | true => by_cases here : k = kind <;> simpa [calls, here] using ih

/-- The counts of all kinds together are those of the measured calls. -/
theorem uploadTotal_eq (log : MeasurementLog) (success : Bool) :
    log.uploadTotal success = (log.calls success).length := by
  have total := sum_by_key log.nodup_kinds (fun _ => 1) fun e (mem : e ∈ log.calls success) =>
    mem_kinds mem
  simp only [List.map_const', List.sum_replicate_nat, Nat.mul_one] at total
  simp only [uploadTotal, uploads_eq, total]

/-- The bytes of all kinds together are those of the accepted calls. -/
theorem byteTotal_eq (log : MeasurementLog) :
    log.byteTotal = ((log.calls true).map (·.2)).sum := by
  rw [byteTotal, funext log.uploadedBytes_eq]
  exact sum_by_key log.nodup_kinds (·.2) fun e mem => mem_kinds mem

theorem publications_append (log more : MeasurementLog) (outcome : String) :
    publications (log ++ more) outcome = log.publications outcome + publications more outcome :=
  List.countP_append

theorem publications_publication (made : String) (seconds : Binary64) (outcome : String) :
    publications [.publication made seconds] outcome = if outcome = made then 1 else 0 := by
  by_cases same : outcome = made
  · simp [publications, same]
  · simp [publications, same, Ne.symm same]

end Deposit.MeasurementLog
