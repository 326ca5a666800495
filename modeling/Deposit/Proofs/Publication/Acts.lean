import Deposit.Publication.Act
import Mathlib.Data.List.Perm.Basic

/-!
What an act does that is made of others.

An act that goes on with another one succeeds exactly if both do, and fails where the first of
them fails. An act for each element of a list *passes* elements (`Act.Passes`): it succeeds
exactly if it passes all of them (`Act.each_eq_ok_iff`), and it fails exactly if it fails at an
element behind those that it passes, and then nothing happens behind that (`Act.each_eq_error_iff`).
An act that has the same result in all sessions (`Act.Steady`) gives each element its own
(`Act.each_ok_iff_of_steady`).
-/

namespace Deposit.Act

variable {ε ε' α β : Type} {s s' : Session}

/-! ### Single acts -/

theorem ofExcept_eq_iff {result r : Except ε α} :
    ofExcept result s = (r, s') ↔ result = r ∧ s = s' := by
  rw [ofExcept, Prod.mk.injEq]

/-- A question is answered, and the answer stays in the history. -/
theorem ask_eq_iff {answer : Session → Except ε α} {record : Except ε α → Happening}
    {r : Except ε α} :
    ask answer record s = (r, s') ↔ answer s = r ∧ s' = s.extend [record r] := by
  rw [ask, Prod.mk.injEq]
  exact and_congr_right fun same => by rw [same, eq_comm]

theorem call_eq_iff {answer : Journal → Except ε α} {event : Except ε α → Event}
    {r : Except ε α} :
    call answer event s = (r, s') ↔
      answer s.journal = r ∧ s' = s.extend [.called (event r)] :=
  ask_eq_iff

/-! ### One act, and another one -/

theorem pure_eq_iff {a b : α} :
    (pure a : Act ε α) s = (.ok b, s') ↔ a = b ∧ s = s' := by
  show ((Except.ok a, s) : Except ε α × Session) = _ ↔ _
  simp

theorem pure_ne_error {a : α} {e : ε} : (pure a : Act ε α) s ≠ (.error e, s') := by
  show ((Except.ok a, s) : Except ε α × Session) ≠ _
  simp

theorem bind_of_ok {act : Act ε α} {a : α} {s₁ : Session} (done : act s = (.ok a, s₁))
    (next : α → Act ε β) : (act >>= next) s = next a s₁ := by
  show andThen act next s = _
  rw [andThen, done]

theorem bind_eq_ok_iff {act : Act ε α} {next : α → Act ε β} {b : β} :
    (act >>= next) s = (.ok b, s') ↔
      ∃ a s₁, act s = (.ok a, s₁) ∧ next a s₁ = (.ok b, s') := by
  rcases done : act s with ⟨e | a, s₁⟩
  · show andThen act next s = _ ↔ _
    simp [andThen, done]
  · rw [bind_of_ok done]
    refine ⟨fun then_ => ⟨a, s₁, rfl, then_⟩, ?_⟩
    rintro ⟨_, _, same, then_⟩
    cases same
    exact then_

/-- An act whose value is put in another form. -/
theorem bind_pure_fst_eq_ok_iff {act : Act ε α} {f : α → β} {b : β} :
    ((act >>= fun a => pure (f a)) s).1 = .ok b ↔ ∃ a, (act s).1 = .ok a ∧ f a = b := by
  rcases done : act s with ⟨e | a, s₁⟩
  · show (andThen act _ s).1 = _ ↔ _
    simp [andThen, done]
  · rw [bind_of_ok done]
    show Except.ok (f a) = _ ↔ _
    simp

theorem bind_eq_error_iff {act : Act ε α} {next : α → Act ε β} {e : ε} :
    (act >>= next) s = (.error e, s') ↔
      act s = (.error e, s') ∨ ∃ a s₁, act s = (.ok a, s₁) ∧ next a s₁ = (.error e, s') := by
  rcases done : act s with ⟨e | a, s₁⟩
  · show andThen act next s = _ ↔ _
    simp [andThen, done]
  · rw [bind_of_ok done]
    refine ⟨fun then_ => .inr ⟨a, s₁, rfl, then_⟩, ?_⟩
    rintro (failed | ⟨_, _, same, then_⟩)
    · cases failed
    · cases same
      exact then_

theorem rename_eq_ok_iff {act : Act ε α} {f : ε → ε'} {a : α} :
    act.rename f s = (.ok a, s') ↔ act s = (.ok a, s') := by
  rcases done : act s with ⟨e | a, s₁⟩ <;> simp [Act.rename, done]

theorem rename_eq_error_iff {act : Act ε α} {f : ε → ε'} {e' : ε'} :
    act.rename f s = (.error e', s') ↔ ∃ e, act s = (.error e, s') ∧ f e = e' := by
  rcases done : act s with ⟨e | a, s₁⟩
  · rw [Act.rename, done]
    constructor
    · intro failed
      cases failed
      exact ⟨e, rfl, rfl⟩
    · rintro ⟨_, same, rfl⟩
      cases same
      rfl
  · simp [Act.rename, done]

/-! ### One act for each element -/

/-- An act passes elements one after the other, each with a result. -/
inductive Passes (act : α → Act ε β) : Session → List α → List β → Session → Prop where
  | none (s : Session) : Passes act s [] [] s
  | one {s s₁ s₂ : Session} {a : α} {as : List α} {b : β} {bs : List β} :
      act a s = (.ok b, s₁) → Passes act s₁ as bs s₂ → Passes act s (a :: as) (b :: bs) s₂

variable {act : α → Act ε β}

theorem each_cons_eq_ok_iff {a : α} {as : List α} {bs : List β} :
    each act (a :: as) s = (.ok bs, s') ↔
      ∃ b s₁ rest, act a s = (.ok b, s₁) ∧ each act as s₁ = (.ok rest, s') ∧ bs = b :: rest := by
  simp only [each, bind_eq_ok_iff, pure_eq_iff]
  constructor
  · rintro ⟨b, s₁, first, rest, _, later, rfl, rfl⟩
    exact ⟨b, s₁, rest, first, later, rfl⟩
  · rintro ⟨b, s₁, rest, first, later, rfl⟩
    exact ⟨b, s₁, first, rest, s', later, rfl, rfl⟩

theorem each_cons_eq_error_iff {a : α} {as : List α} {e : ε} :
    each act (a :: as) s = (.error e, s') ↔
      act a s = (.error e, s') ∨
        ∃ b s₁, act a s = (.ok b, s₁) ∧ each act as s₁ = (.error e, s') := by
  simp only [each, bind_eq_error_iff, pure_ne_error, and_false, exists_false, or_false]

/-- An act for each element succeeds exactly if it passes all of them. -/
theorem each_eq_ok_iff {as : List α} {bs : List β} :
    each act as s = (.ok bs, s') ↔ Passes act s as bs s' := by
  constructor
  · intro done
    induction as generalizing s bs with
    | nil =>
        obtain ⟨rfl, rfl⟩ := pure_eq_iff.mp done
        exact .none s
    | cons a as ih =>
        obtain ⟨b, s₁, rest, first, later, rfl⟩ := each_cons_eq_ok_iff.mp done
        exact .one first (ih later)
  · intro passed
    induction passed with
    | none s => rfl
    | one first _ ih => exact each_cons_eq_ok_iff.mpr ⟨_, _, _, first, ih, rfl⟩

/-- An act for each element fails exactly if it fails at one behind those that it passes. -/
theorem each_eq_error_iff {as : List α} {e : ε} :
    each act as s = (.error e, s') ↔
      ∃ before a after bs s₁, as = before ++ a :: after ∧ Passes act s before bs s₁ ∧
        act a s₁ = (.error e, s') := by
  constructor
  · intro failed
    induction as generalizing s with
    | nil => exact absurd failed pure_ne_error
    | cons a as ih =>
        rcases each_cons_eq_error_iff.mp failed with here | ⟨b, s₁, first, later⟩
        · exact ⟨[], a, as, [], s, rfl, .none s, here⟩
        · obtain ⟨before, a', after, bs, s₂, rfl, passed, stuck⟩ := ih later
          exact ⟨a :: before, a', after, b :: bs, s₂, rfl, .one first passed, stuck⟩
  · rintro ⟨before, a, after, bs, s₁, rfl, passed, stuck⟩
    induction passed with
    | none s => exact each_cons_eq_error_iff.mpr (.inl stuck)
    | one first _ ih => exact each_cons_eq_error_iff.mpr (.inr ⟨_, _, first, ih stuck⟩)

/-! ### Steady acts -/

/-- An act is steady if it has the same result in all sessions. -/
structure Steady (act : Act ε α) : Prop where
  same : ∀ s s', (act s).1 = (act s').1

theorem Steady.of_ok {act : Act ε α} (h : act.Steady) {a : α} (done : (act s).1 = .ok a)
    (s' : Session) : act s' = (.ok a, (act s').2) :=
  Prod.ext ((h.same s' s).trans done) rfl

theorem steady_pure (a : α) : (pure a : Act ε α).Steady := ⟨fun _ _ => rfl⟩

theorem steady_ofExcept (result : Except ε α) : (ofExcept result).Steady := ⟨fun _ _ => rfl⟩

theorem steady_ask {answer : Session → Except ε α} {record : Except ε α → Happening}
    (same : ∀ s s', answer s = answer s') : (ask answer record).Steady :=
  ⟨same⟩

theorem steady_call {answer : Journal → Except ε α} {event : Except ε α → Event}
    (same : ∀ journal journal', answer journal = answer journal') : (call answer event).Steady :=
  steady_ask fun s s' => same s.journal s'.journal

theorem Steady.rename {act : Act ε α} (h : act.Steady) (f : ε → ε') :
    (act.rename f).Steady where
  same s s' := by
    have same := h.same s s'
    rcases left : act s with ⟨e | a, _⟩ <;> rcases right : act s' with ⟨e' | a', _⟩ <;>
      rw [left, right] at same <;> cases same <;> simp [Act.rename, left, right]

theorem Steady.bind {act : Act ε α} {next : α → Act ε β} (h : act.Steady)
    (rest : ∀ a, (next a).Steady) : (act >>= next).Steady where
  same s s' := by
    have same := h.same s s'
    rcases left : act s with ⟨e | a, s₁⟩ <;> rcases right : act s' with ⟨e' | a', s₁'⟩ <;>
      rw [left, right] at same <;> cases same
    · show (andThen act next s).1 = (andThen act next s').1
      simp only [andThen, left, right]
    · rw [bind_of_ok left, bind_of_ok right]
      exact (rest a).same s₁ s₁'

/-- A steady act for each element gives each its own result. -/
theorem each_ok_iff_of_steady (steady : ∀ a, (act a).Steady) {as : List α} {bs : List β} :
    (each act as s).1 = .ok bs ↔
      List.Forall₂ (fun a b => (act a .start).1 = .ok b) as bs := by
  constructor
  · intro done
    have passed : Passes act s as bs (each act as s).2 := each_eq_ok_iff.mp (Prod.ext done rfl)
    generalize (each act as s).2 = s' at passed
    clear done
    induction passed with
    | none s => exact .nil
    | @one s _ _ a _ _ _ first _ ih =>
        exact .cons (((steady a).same .start s).trans (congrArg Prod.fst first)) ih
  · intro own
    induction own generalizing s with
    | nil => rfl
    | @cons a b as bs first _ ih =>
        exact congrArg Prod.fst (each_cons_eq_ok_iff.mpr ⟨b, (act a s).2, bs,
          (steady a).of_ok first s, Prod.ext ih rfl, rfl⟩)

/-- A result of a steady act for each element is that of one of them. -/
theorem each_mem_of_steady (steady : ∀ a, (act a).Steady) {as : List α} {bs : List β}
    (done : (each act as s).1 = .ok bs) {b : β} (mem : b ∈ bs) :
    ∃ a ∈ as, (act a .start).1 = .ok b := by
  have own := (each_ok_iff_of_steady steady).mp done
  clear done
  induction own with
  | nil => cases mem
  | cons first _ ih =>
      rcases List.mem_cons.mp mem with rfl | mem
      · exact ⟨_, List.mem_cons_self, first⟩
      · obtain ⟨a, there, same⟩ := ih mem
        exact ⟨a, List.mem_cons_of_mem _ there, same⟩

/-- A steady act for each element gives the same results in any order of the elements. -/
theorem each_perm_of_steady (steady : ∀ a, (act a).Steady) {as as' : List α} (perm : as.Perm as')
    {bs : List β} (done : (each act as s).1 = .ok bs) (s' : Session) :
    ∃ bs', (each act as' s').1 = .ok bs' ∧ bs'.Perm bs := by
  obtain ⟨bs', own, same⟩ :=
    List.perm_comp_forall₂ perm.symm ((each_ok_iff_of_steady steady).mp done)
  exact ⟨bs', (each_ok_iff_of_steady steady).mpr own, same⟩

end Deposit.Act
