import Deposit.Text.Blank
import Mathlib.Data.List.TakeWhile
import Mathlib.Tactic.SplitIfs

/-!
Trimming what is made of pieces.

If all members of a piece belong to a class, or none does, then to trim the pieces by
the class is to trim what they are made of (`trimBy_flatMap`).
-/

namespace Deposit.Blank

section Pieces

variable {α β : Type} {p : β → Bool} {q : α → Bool} {piece : α → List β}

theorem dropWhile_flatMap (same : ∀ a, ∀ b ∈ piece a, p b = q a) (ne : ∀ a, piece a ≠ [])
    (l : List α) : (l.flatMap piece).dropWhile p = (l.dropWhile q).flatMap piece := by
  induction l with
  | nil => rfl
  | cons a rest ih =>
      rw [List.flatMap_cons]
      cases inside : q a with
      | true =>
          rw [List.dropWhile_append_of_pos fun b mem => by rw [same a b mem, inside], ih,
            List.dropWhile_cons_of_pos inside]
      | false =>
          obtain ⟨b, more, made⟩ := List.exists_cons_of_ne_nil (ne a)
          have outside : ¬ p b = true := by
            rw [same a b (by simp [made]), inside]
            exact Bool.false_ne_true
          have outside' : ¬ q a = true := by simp [inside]
          rw [List.dropWhile_cons_of_neg outside', List.flatMap_cons, made, List.cons_append,
            List.dropWhile_cons_of_neg outside]

theorem trimBy_flatMap (same : ∀ a, ∀ b ∈ piece a, p b = q a) (ne : ∀ a, piece a ≠ [])
    (l : List α) : trimBy p (l.flatMap piece) = (trimBy q l).flatMap piece := by
  have backward : ∀ l : List α, (l.flatMap piece).reverse =
      l.reverse.flatMap (List.reverse ∘ piece) := fun l => List.reverse_flatMap ..
  have same' : ∀ a, ∀ b ∈ (List.reverse ∘ piece) a, p b = q a :=
    fun a b mem => same a b (List.mem_reverse.mp mem)
  have ne' : ∀ a, (List.reverse ∘ piece) a ≠ [] := fun a => by simp [ne a]
  rw [trimBy, dropWhile_flatMap same ne, backward, dropWhile_flatMap same' ne',
    List.reverse_flatMap, trimBy]
  simp [Function.comp_def]

end Pieces

/-- Nothing is left of what is all blanks, and of nothing else. -/
theorem trimBy_eq_nil_iff {α : Type} {p : α → Bool} {l : List α} :
    trimBy p l = [] ↔ ∀ a ∈ l, p a = true := by
  rw [trimBy, List.reverse_eq_nil_iff, List.dropWhile_eq_nil_iff]
  constructor
  · intro all a mem
    by_cases inside : p a = true
    · exact inside
    · -- The first member outside of the class would be left.
      obtain ⟨b, more, left⟩ : ∃ b more, l.dropWhile p = b :: more := by
        refine List.exists_cons_of_ne_nil fun none => ?_
        exact absurd (List.dropWhile_eq_nil_iff.mp none a mem) inside
      have first := List.head?_dropWhile_not p l
      rw [left] at first
      have second := all b (by simp [left])
      simp [second] at first
  · intro all a mem
    exact all a ((List.dropWhile_sublist p).subset (List.mem_reverse.mp mem))

theorem dropWhile_eq_self {α : Type} {p : α → Bool} {l : List α} (h : ∀ a ∈ l, p a = false) :
    l.dropWhile p = l := by
  cases l with
  | nil => rfl
  | cons a rest => exact List.dropWhile_cons_of_neg (by simp [h a])

/-- Nothing is cut off from what has no blanks. -/
theorem trimBy_eq_self {α : Type} {p : α → Bool} {l : List α} (h : ∀ a ∈ l, p a = false) :
    trimBy p l = l := by
  rw [trimBy, dropWhile_eq_self h,
    dropWhile_eq_self (l := l.reverse) fun a mem => h a (List.mem_reverse.mp mem),
    List.reverse_reverse]

/-- What is trimmed does not depend on what is cut off. -/
theorem trimBy_append {α : Type} {p : α → Bool} {before after : List α}
    (front : ∀ a ∈ before, p a = true) (back : ∀ a ∈ after, p a = true) (l : List α) :
    trimBy p (before ++ l ++ after) = trimBy p l := by
  by_cases all : ∀ a ∈ l, p a = true
  · rw [trimBy_eq_nil_iff.mpr all, trimBy_eq_nil_iff]
    intro a mem
    rw [List.mem_append, List.mem_append] at mem
    rcases mem with (mem | mem) | mem
    exacts [front a mem, all a mem, back a mem]
  · have left : l.dropWhile p ≠ [] := fun none => all (List.dropWhile_eq_nil_iff.mp none)
    have back' : ∀ a ∈ after.reverse, p a = true := fun a mem => back a (List.mem_reverse.mp mem)
    rw [trimBy, List.append_assoc, List.dropWhile_append_of_pos front, List.dropWhile_append,
      if_neg (by simpa using left), List.reverse_append, List.dropWhile_append_of_pos back', trimBy]

theorem takeWhile_append_cons {α : Type} {p : α → Bool} {a : α} (outside : p a = false)
    (l rest : List α) : (l ++ a :: rest).takeWhile p = l.takeWhile p := by
  induction l with
  | nil => exact List.takeWhile_cons_of_neg (by simp [outside])
  | cons b l ih =>
      rw [List.cons_append, List.takeWhile_cons, List.takeWhile_cons, ih]

theorem dropWhile_append_cons {α : Type} {p : α → Bool} {a : α} (outside : p a = false)
    (l rest : List α) : (l ++ a :: rest).dropWhile p = l.dropWhile p ++ a :: rest := by
  induction l with
  | nil => exact List.dropWhile_cons_of_neg (by simp [outside])
  | cons b l ih =>
      rw [List.cons_append, List.dropWhile_cons, List.dropWhile_cons, ih]
      split_ifs <;> rfl

/-- Nothing is cut off from the end of a text that goes on without blanks. -/
theorem trimBy_append_of_not {α : Type} {p : α → Bool} {behind : List α} (ne : behind ≠ [])
    (outside : ∀ a ∈ behind, p a = false) (l : List α) :
    trimBy p (l ++ behind) = l.dropWhile p ++ behind := by
  obtain ⟨a, rest, made⟩ := List.exists_cons_of_ne_nil ne
  obtain ⟨b, front, made'⟩ := List.exists_cons_of_ne_nil (List.reverse_ne_nil_iff.mpr ne)
  have first : p a = false := outside a (made ▸ List.mem_cons_self)
  have last : p b = false := outside b (List.mem_reverse.mp (made' ▸ List.mem_cons_self))
  rw [trimBy, made, dropWhile_append_cons first, ← made, List.reverse_append, made',
    List.cons_append, List.dropWhile_cons_of_neg (by simp [last]), ← List.cons_append, ← made',
    List.reverse_append, List.reverse_reverse, List.reverse_reverse]

/-- What is cut off at the end stands behind what is left, if anything is. -/
theorem trimBy_append_reverse {α : Type} {p : α → Bool} {l : List α} (left : trimBy p l ≠ []) :
    trimBy p l ++ (l.reverse.takeWhile p).reverse = l.dropWhile p := by
  obtain ⟨a, rest, dropped⟩ : ∃ a rest, l.dropWhile p = a :: rest := by
    refine List.exists_cons_of_ne_nil fun none => left ?_
    rw [trimBy, none]
    rfl
  have outside : p a = false := by
    have first := List.head?_dropWhile_not p l
    rwa [dropped] at first
  have whole : l = l.takeWhile p ++ a :: rest := by
    rw [← dropped, List.takeWhile_append_dropWhile]
  have back : l.reverse.takeWhile p = (a :: rest).reverse.takeWhile p := by
    rw [whole, List.reverse_append, List.reverse_cons, List.append_assoc, List.singleton_append,
      takeWhile_append_cons outside, takeWhile_append_cons outside]
  rw [trimBy, back, dropped, ← List.reverse_append, List.takeWhile_append_dropWhile,
    List.reverse_reverse]

/-- Blanks around a text do not matter once it is trimmed. -/
theorem trim_append {before after : String} (front : isBlankText before = true)
    (back : isBlankText after = true) (s : String) : trim (before ++ s ++ after) = trim s := by
  rw [trim, String.toList_append, String.toList_append,
    trimBy_append (List.all_eq_true.mp front) (List.all_eq_true.mp back), trim]

/-- What is not all white space is present. -/
theorem present?_eq_some {text : String} (h : isBlankText text = false) :
    present? text = some (trim text) := by
  have left : (trim text).isEmpty = false := by
    rw [trim, String.isEmpty_eq_false_iff, ne_eq, ← String.toList_eq_nil_iff,
      String.toList_ofList, trimBy_eq_nil_iff]
    intro all
    rw [isBlankText, List.all_eq_true.mpr all] at h
    exact absurd h (by decide)
  rw [present?]
  simp [left]

/-- What is all white space counts as nothing. -/
theorem present?_eq_none {text : String} (h : isBlankText text = true) :
    present? text = none := by
  have gone : (trim text).isEmpty = true := by
    rw [trim, String.isEmpty_iff, ← String.toList_eq_nil_iff, String.toList_ofList,
      trimBy_eq_nil_iff]
    exact List.all_eq_true.mp h
  rw [present?]
  simp [gone]

/-! ### Characters at the end -/

/-- What is dropped at the end of a text is any number of the one character. -/
theorem exists_dropTrailing (c : Char) (s : List Char) :
    ∃ n, s = (dropTrailing c (String.ofList s)).toList ++ List.replicate n c := by
  refine ⟨(s.reverse.takeWhile (· == c)).length, ?_⟩
  have same : s.reverse.takeWhile (· == c) =
      List.replicate (s.reverse.takeWhile (· == c)).length c := by
    refine List.eq_replicate_iff.mpr ⟨rfl, fun b mem => ?_⟩
    exact beq_iff_eq.mp (List.mem_takeWhile_imp (p := (· == c)) mem)
  rw [dropTrailing, String.toList_ofList, String.toList_ofList, ← List.reverse_replicate, ← same,
    ← List.reverse_append, List.takeWhile_append_dropWhile, List.reverse_reverse]

theorem length_dropTrailing_le (c : Char) (s : String) :
    (dropTrailing c s).toList.length ≤ s.toList.length := by
  obtain ⟨n, made⟩ := exists_dropTrailing c s.toList
  rw [String.ofList_toList] at made
  have length := congrArg List.length made
  rw [List.length_append] at length
  omega

theorem dropTrailing_append_replicate (c : Char) (t : List Char) (n : Nat) :
    dropTrailing c (String.ofList (t ++ List.replicate n c)) =
      dropTrailing c (String.ofList t) := by
  have all : ∀ b ∈ List.replicate n c, (b == c) = true :=
    fun b mem => beq_iff_eq.mpr (List.eq_of_mem_replicate mem)
  rw [dropTrailing, dropTrailing, String.toList_ofList, String.toList_ofList, List.reverse_append,
    List.reverse_replicate, List.dropWhile_append_of_pos all]

/-- Nothing is dropped from a text that ends otherwise. -/
theorem dropTrailing_eq_self_iff {c : Char} {t : List Char} :
    (dropTrailing c (String.ofList t)).toList = t ↔ ¬ [c] <:+ t := by
  rw [dropTrailing, String.toList_ofList, String.toList_ofList, List.reverse_eq_iff]
  rw [← List.reverse_prefix, List.reverse_singleton]
  cases t.reverse with
  | nil => simp
  | cons b rest =>
      by_cases same : b = c
      · subst same
        simp only [List.dropWhile_cons, beq_self_eq_true, if_true]
        have short := (List.dropWhile_suffix (· == b) (l := rest)).length_le
        constructor
        · intro whole
          have := congrArg List.length whole
          simp at this
          omega
        · simp
      · simp [same, Ne.symm same]

theorem dropTrailing_append {c : Char} {t : List Char} (absent : c ∉ t) (n : Nat) :
    dropTrailing c (String.ofList (t ++ List.replicate n c)) = String.ofList t := by
  rw [dropTrailing_append_replicate, ← String.toList_inj, String.toList_ofList,
    dropTrailing_eq_self_iff]
  exact fun ends => absent (ends.subset List.mem_cons_self)

end Deposit.Blank
