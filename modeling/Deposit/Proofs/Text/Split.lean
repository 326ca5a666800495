import Deposit.Text.Split
import Mathlib.Data.List.Basic

/-!
Splitting at separators, told by what is put together again: the first separator stands behind what
has none (`first?_eq_some_iff`), and the pieces of a list are what stands in front of its first
separator and the pieces of what stands behind it (`pieces_append`).
-/

namespace Deposit.Split

variable {α : Type} [BEq α] [LawfulBEq α] {separator : α} {before behind l : List α}

/-! ### The first separator -/

theorem first?_append (absent : separator ∉ before) (behind : List α) :
    first? separator (before ++ separator :: behind) = some (before, behind) := by
  induction before with
  | nil => simp [first?]
  | cons c rest ih =>
      obtain ⟨other, absent⟩ : separator ≠ c ∧ separator ∉ rest := by simpa using absent
      have here : (c == separator) = false := beq_eq_false_iff_ne.mpr (Ne.symm other)
      rw [List.cons_append, first?, here, ih absent]
      rfl

theorem first?_eq_none_iff : first? separator l = none ↔ separator ∉ l := by
  induction l with
  | nil => simp [first?]
  | cons c rest ih =>
      by_cases here : c = separator
      · simp [first?, here]
      · simp [first?, here, ih, Ne.symm here]

theorem first?_eq_some_iff :
    first? separator l = some (before, behind) ↔
      l = before ++ separator :: behind ∧ separator ∉ before := by
  constructor
  · intro found
    by_cases mem : separator ∈ l
    · obtain ⟨before', behind', rfl, absent⟩ := List.eq_append_cons_of_mem mem
      rw [first?_append absent] at found
      obtain ⟨rfl, rfl⟩ := Prod.mk.inj (Option.some.inj found)
      exact ⟨rfl, absent⟩
    · rw [first?_eq_none_iff.mpr mem] at found
      cases found
  · rintro ⟨rfl, absent⟩
    exact first?_append absent behind

/-! ### The front -/

theorem behind?_eq_some_iff {start : List α} :
    behind? start l = some behind ↔ l = start ++ behind := by
  induction start generalizing l with
  | nil => simp [behind?, eq_comm]
  | cons a start ih =>
      cases l with
      | nil => simp [behind?]
      | cons b rest =>
          by_cases same : a = b
          · simp [behind?, same, ih]
          · simp [behind?, same, Ne.symm same]

/-! ### Pieces -/

theorem pieces_of_not_mem (absent : separator ∉ l) : pieces separator l = [l] := by
  induction l with
  | nil => rfl
  | cons c rest ih =>
      obtain ⟨other, absent⟩ : separator ≠ c ∧ separator ∉ rest := by simpa using absent
      have here : (c == separator) = false := beq_eq_false_iff_ne.mpr (Ne.symm other)
      rw [pieces, here, ih absent]
      rfl

theorem pieces_append (absent : separator ∉ before) (behind : List α) :
    pieces separator (before ++ separator :: behind) = before :: pieces separator behind := by
  induction before with
  | nil => simp [pieces]
  | cons c rest ih =>
      obtain ⟨other, absent⟩ : separator ≠ c ∧ separator ∉ rest := by simpa using absent
      have here : (c == separator) = false := beq_eq_false_iff_ne.mpr (Ne.symm other)
      rw [List.cons_append, pieces, here, ih absent]
      rfl

/-- A list is one piece, or its first piece, a separator and the other pieces. -/
theorem pieces_cases (separator : α) (l : List α) :
    (separator ∉ l ∧ pieces separator l = [l]) ∨
      ∃ before behind, l = before ++ separator :: behind ∧ separator ∉ before ∧
        pieces separator l = before :: pieces separator behind := by
  by_cases mem : separator ∈ l
  · obtain ⟨before, behind, rfl, absent⟩ := List.eq_append_cons_of_mem mem
    exact .inr ⟨before, behind, rfl, absent, pieces_append absent behind⟩
  · exact .inl ⟨mem, pieces_of_not_mem mem⟩

theorem pieces_ne_nil (separator : α) (l : List α) : pieces separator l ≠ [] := by
  rcases pieces_cases separator l with ⟨-, one⟩ | ⟨_, _, -, -, more⟩
  · simp [one]
  · simp [more]

/-- A separator ends the pieces in front of it. -/
theorem pieces_append_pieces (separator : α) (before behind : List α) :
    pieces separator (before ++ separator :: behind) =
      pieces separator before ++ pieces separator behind := by
  induction before with
  | nil => simp [pieces]
  | cons c rest ih =>
      obtain ⟨piece, others, made⟩ := List.exists_cons_of_ne_nil (pieces_ne_nil separator rest)
      rw [List.cons_append, pieces, pieces, ih, made]
      cases c == separator <;> rfl

/-- What has no separator lengthens the last piece. -/
theorem exists_pieces_append {after : List α} (absent : separator ∉ after) (l : List α) :
    ∃ front last, pieces separator l = front ++ [last] ∧
      pieces separator (l ++ after) = front ++ [last ++ after] := by
  induction l with
  | nil => exact ⟨[], [], rfl, pieces_of_not_mem absent⟩
  | cons c rest ih =>
      obtain ⟨front, last, here, there⟩ := ih
      rw [List.cons_append, pieces, pieces, here, there]
      by_cases same : (c == separator) = true
      · exact ⟨[] :: front, last, by simp [same], by simp [same]⟩
      · cases front with
        | nil => exact ⟨[], c :: last, by simp [same], by simp [same]⟩
        | cons piece front => exact ⟨(c :: piece) :: front, last, by simp [same], by simp [same]⟩

/-- The pieces make up the list again, each behind a separator. -/
theorem flatMap_pieces (separator : α) (l : List α) :
    (pieces separator l).flatMap (separator :: ·) = separator :: l := by
  induction l with
  | nil => rfl
  | cons c rest ih =>
      rw [pieces]
      split_ifs with here
      · rw [List.flatMap_cons, ih, beq_iff_eq.mp here]
        rfl
      · obtain ⟨piece, others, made⟩ := List.exists_cons_of_ne_nil (pieces_ne_nil separator rest)
        rw [made, List.flatMap_cons, List.cons_append, List.cons.injEq] at ih
        simp only [made, List.flatMap_cons, List.cons_append, ih.2]

end Deposit.Split
