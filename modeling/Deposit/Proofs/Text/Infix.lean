import Deposit.Proofs.Text.Split
import Deposit.Text.Blank
import Mathlib.Data.List.Infix
import Mathlib.Tactic.SplitIfs

/-!
Texts inside of texts, and where they still stand when the text around them is cut, trimmed, split
or mapped: what has no separator in it stands on one side of every cut (`infix_append_cons`) and in
one of the pieces (`infix_pieces`).
-/

namespace Deposit

variable {α β : Type} {part a b l : List α}

/-- What stands across no place of which the next element is none of its own stands on one side. -/
theorem infix_append_of_head (apart : ∀ c ∈ b.head?, c ∉ part) (stands : part <:+: a ++ b) :
    part <:+: a ∨ part <:+: b := by
  rcases List.infix_append_iff.mp stands with left | right | ⟨part₁, part₂, rfl, back, front⟩
  · exact .inl left
  · exact .inr right
  · cases part₂ with
    | nil => exact .inl ((List.append_nil part₁).symm ▸ back.isInfix)
    | cons c rest =>
        obtain ⟨more, rfl⟩ := front
        exact absurd (by simp) (apart c rfl)

theorem infix_of_cons {c : α} (absent : c ∉ part) (stands : part <:+: c :: b) : part <:+: b := by
  rcases List.infix_cons_iff.mp stands with front | later
  · cases part with
    | nil => exact List.nil_infix
    | cons d more =>
        obtain ⟨rfl, -⟩ := List.cons_prefix_cons.mp front
        exact absurd List.mem_cons_self absent
  · exact later

/-- A separator that a text does not have leaves it on one side. -/
theorem infix_append_cons {c : α} (absent : c ∉ part) (stands : part <:+: a ++ c :: b) :
    part <:+: a ∨ part <:+: b :=
  (infix_append_of_head (b := c :: b) (by rintro _ ⟨⟩; exact absent) stands).imp_right
    (infix_of_cons absent)

/-- What stands in a list stands behind any front of it that has none of its elements. -/
theorem infix_dropWhile {p : α → Bool} (none : ∀ c ∈ part, p c = false) (stands : part <:+: l) :
    part <:+: l.dropWhile p := by
  induction l with
  | nil => exact stands
  | cons c rest ih =>
      rw [List.dropWhile_cons]
      split_ifs with drop
      · refine ih (infix_of_cons (fun mem => ?_) stands)
        rw [none c mem] at drop
        cases drop
      · exact stands

theorem mem_dropWhile {p : α → Bool} {a : α} (kept : p a = false)
    (mem : a ∈ l) : a ∈ l.dropWhile p :=
  (List.singleton_infix_iff a _).mp (infix_dropWhile (by simpa using kept)
    ((List.singleton_infix_iff a l).mpr mem))

theorem drop_takeWhile (p : α → Bool) (l : List α) :
    l.drop (l.takeWhile p).length = l.dropWhile p := by
  conv => lhs; rhs; rw [← List.takeWhile_append_dropWhile (p := p) (l := l)]
  exact List.drop_left

theorem takeWhile_append_of_dropWhile {p : α → Bool} {l : List α} (ends : l.dropWhile p ≠ [])
    (more : List α) : (l ++ more).takeWhile p = l.takeWhile p := by
  rw [List.takeWhile_append, if_neg]
  intro full
  refine ends ?_
  rw [← drop_takeWhile, full, List.drop_length]

/-- What is of a class stands on one side of the place where the class ends. -/
theorem infix_takeWhile {p : α → Bool} (all : ∀ c ∈ part, p c = true) (stands : part <:+: l) :
    part <:+: l.takeWhile p ∨ part <:+: l.drop (l.takeWhile p).length := by
  rw [drop_takeWhile]
  rw [← List.takeWhile_append_dropWhile (p := p) (l := l)] at stands
  refine infix_append_of_head (fun c head mem => ?_) stands
  have ended := List.head?_dropWhile_not p l
  rw [Option.mem_def.mp head] at ended
  have other : p c = false := ended
  rw [all c mem] at other
  cases other

theorem infix_trimBy {p : α → Bool} (none : ∀ c ∈ part, p c = false) (stands : part <:+: l) :
    part <:+: Blank.trimBy p l := by
  rw [Blank.trimBy, ← List.reverse_infix, List.reverse_reverse]
  refine infix_dropWhile (fun c mem => none c (List.mem_reverse.mp mem)) ?_
  exact List.reverse_infix.mpr (infix_dropWhile none stands)

/-- A front that ends otherwise stands in front of what is repeated at the end. -/
theorem exists_of_append_eq_replicate {x : α} {n : Nat} (last : ¬ [x] <:+ a)
    (same : a ++ b = l ++ List.replicate n x) :
    ∃ rest, l = a ++ rest ∧ b = rest ++ List.replicate n x := by
  rcases List.append_eq_append_iff.mp same with front | ⟨more, rfl, repeated⟩
  · exact front
  · rcases List.eq_nil_or_concat' more with rfl | ⟨before, y, rfl⟩
    · exact ⟨[], by simp, repeated.symm⟩
    · have same : y = x := List.eq_of_mem_replicate (n := n) (by simp [repeated])
      rw [same, ← List.append_assoc] at last
      exact absurd (List.suffix_append _ _) last

/-! ### Pieces -/

/-- What has no separator stands in one of the pieces. -/
theorem infix_pieces [BEq α] [LawfulBEq α] {separator : α} (absent : separator ∉ part) :
    ∀ {l : List α}, part <:+: l → ∃ piece ∈ Split.pieces separator l, part <:+: piece := by
  intro l
  induction n : l.length using Nat.strong_induction_on generalizing l with
  | _ n ih =>
      intro stands
      rcases Split.pieces_cases separator l with ⟨-, one⟩ | ⟨before, behind, rfl, -, more⟩
      · exact ⟨l, by simp [one], stands⟩
      · rw [more]
        rcases infix_append_cons absent stands with front | later
        · exact ⟨before, List.mem_cons_self, front⟩
        · obtain ⟨piece, mem, stands⟩ := ih behind.length (by simp at n; omega) rfl later
          exact ⟨piece, List.mem_cons_of_mem _ mem, stands⟩

theorem mem_pieces [BEq α] [LawfulBEq α] (separator : α) {c : α} {l : List α} (mem : c ∈ l) :
    c = separator ∨ ∃ piece ∈ Split.pieces separator l, c ∈ piece := by
  by_cases same : c = separator
  · exact .inl same
  · have alone : separator ∉ [c] := by simpa using fun same' => same same'.symm
    obtain ⟨piece, there, stands⟩ := infix_pieces alone (List.singleton_infix_iff c l |>.mpr mem)
    exact .inr ⟨piece, there, (List.singleton_infix_iff c piece).mp stands⟩

theorem intercalate_pieces [BEq α] [LawfulBEq α] (separator : α) (l : List α) :
    List.intercalate [separator] (Split.pieces separator l) = l := by
  induction n : l.length using Nat.strong_induction_on generalizing l with
  | _ n ih =>
      rcases Split.pieces_cases separator l with ⟨-, one⟩ | ⟨before, behind, rfl, -, more⟩
      · rw [one, List.intercalate_singleton]
      · rw [more, List.intercalate_cons_of_ne_nil (Split.pieces_ne_nil separator behind),
          ih behind.length (by simp at n; omega) behind rfl, List.append_assoc,
          List.singleton_append]

theorem pieces_inj [BEq α] [LawfulBEq α] {separator : α} {l l' : List α} :
    Split.pieces separator l = Split.pieces separator l' ↔ l = l' := by
  refine ⟨fun same => ?_, fun same => same ▸ rfl⟩
  rw [← intercalate_pieces separator l, same, intercalate_pieces]

/-- The pieces of a list are the last ones of another if it is the end of the other behind a
separator, or all of it. -/
theorem suffix_pieces_iff [BEq α] [LawfulBEq α] {separator : α} {name l : List α} :
    Split.pieces separator name <:+ Split.pieces separator l ↔
      l = name ∨ separator :: name <:+ l := by
  constructor
  · induction n : l.length using Nat.strong_induction_on generalizing l with
    | _ n ih =>
        intro last
        rcases Split.pieces_cases separator l with ⟨-, one⟩ | ⟨before, behind, rfl, -, more⟩
        · have whole : Split.pieces separator name = [l] := by
            rcases List.suffix_cons_iff.mp (one ▸ last) with whole | none
            · exact whole
            · exact absurd (List.suffix_nil.mp none) (Split.pieces_ne_nil separator name)
          exact .inl (pieces_inj.mp (one.trans whole.symm))
        · rw [more, List.suffix_cons_iff, ← more, pieces_inj] at last
          rcases last with same | last
          · exact .inl same.symm
          · rcases ih behind.length (by simp at n; omega) rfl last with same | last
            · exact .inr (same ▸ List.suffix_append before _)
            · exact .inr (last.trans ((List.suffix_cons _ _).trans (List.suffix_append before _)))
  · rintro (rfl | ⟨before, rfl⟩)
    · exact List.suffix_rfl
    · rw [Split.pieces_append_pieces]
      exact List.suffix_append _ _

theorem infix_intercalate {separator piece : List α} {pieces : List (List α)}
    (mem : piece ∈ pieces) : piece <:+: List.intercalate separator pieces := by
  induction pieces with
  | nil => cases mem
  | cons first rest ih =>
      cases rest with
      | nil =>
          rw [List.mem_singleton.mp mem, List.intercalate_singleton]
      | cons second rest =>
          rw [List.intercalate_cons_cons]
          rcases List.mem_cons.mp mem with rfl | mem
          · exact (List.prefix_append _ _).isInfix.trans (List.prefix_append _ _).isInfix
          · exact (ih mem).trans (List.suffix_append _ _).isInfix

/-! ### Maps that may fail -/

theorem exists_of_mapM {f : α → Option β} {l : List α} :
    ∀ {r : List β}, l.mapM f = some r → ∀ a ∈ l, ∃ b ∈ r, f a = some b := by
  induction l with
  | nil => exact fun _ _ mem => by cases mem
  | cons a rest ih =>
      intro r read a' mem
      rw [List.mapM_cons] at read
      simp only [bind, Option.bind_eq_some_iff, pure, Option.some.injEq] at read
      obtain ⟨b, here, bs, there, rfl⟩ := read
      rcases List.mem_cons.mp mem with rfl | mem
      · exact ⟨b, List.mem_cons_self, here⟩
      · obtain ⟨b', mem', made⟩ := ih there a' mem
        exact ⟨b', List.mem_cons_of_mem _ mem', made⟩

theorem eq_of_mapM {f : α → Option α} {l : List α} : ∀ {r : List α},
    l.mapM f = some r → (∀ a ∈ l, ∀ b ∈ r, f a = some b → b = a) → r = l := by
  induction l with
  | nil =>
      intro r each _
      cases each
      rfl
  | cons a rest ih =>
      intro r each same
      rw [List.mapM_cons] at each
      simp only [bind, Option.bind_eq_some_iff, pure, Option.some.injEq] at each
      obtain ⟨b, here, bs, there, rfl⟩ := each
      rw [same a List.mem_cons_self b List.mem_cons_self here, ih there fun a mem b mem' =>
        same a (List.mem_cons_of_mem _ mem) b (List.mem_cons_of_mem _ mem')]

/-- Elements that stand for themselves. -/
theorem flatten_of_mapM {f : α → Option (List α)} {l : List α} :
    ∀ {r : List (List α)}, l.mapM f = some r → (∀ a ∈ l, f a = some [a]) → r.flatten = l := by
  induction l with
  | nil =>
      intro r each _
      cases each
      rfl
  | cons a rest ih =>
      intro r each kept
      rw [List.mapM_cons, kept a List.mem_cons_self] at each
      simp only [bind, Option.bind_some, Option.bind_eq_some_iff, pure, Option.some.injEq] at each
      obtain ⟨bs, there, rfl⟩ := each
      rw [List.flatten_cons, ih there fun a mem => kept a (List.mem_cons_of_mem _ mem)]
      rfl

theorem infix_flatten_of_mapM {f : α → Option (List α)} {r : List (List α)}
    (each : l.mapM f = some r) (kept : ∀ a ∈ part, f a = some [a]) (stands : part <:+: l) :
    part <:+: r.flatten := by
  obtain ⟨before, after, rfl⟩ := stands
  rw [List.mapM_append, List.mapM_append] at each
  simp only [bind, Option.bind_eq_some_iff, pure, Option.some.injEq] at each
  obtain ⟨_, ⟨front, -, middle, here, rfl⟩, back, -, rfl⟩ := each
  rw [List.flatten_append, List.flatten_append, flatten_of_mapM here kept]
  exact ⟨_, _, rfl⟩

end Deposit
