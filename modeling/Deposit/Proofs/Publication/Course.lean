import Deposit.Proofs.Publication.Trail

/-!
Courses: which trails a part of a publication may leave, and with which results.

A course knows nothing of the world. Where an act asks a service or the machine, its
course admits every answer, and says what the answer comes to.

The second half of the file takes courses apart: `bind_ok`, `bind_error`, `each_nil`,
`each_cons_ok` and the like say what a trail of a course with a given result looks
like.
-/

namespace Deposit

/-- The trails of a part of a publication, each with its result. -/
def Course (ε α : Type) : Type := Trail ε → Except ε α → Prop

namespace Course

variable {ε ε' α β σ : Type}

/-! ### Building courses -/

/-- The failure of a result, if it is one. -/
def failure? : Except ε α → Option ε
  | .ok _ => none
  | .error e => some e

/-- Nothing is left to do. -/
def give (a : α) : Course ε α := fun trail r => trail = [] ∧ r = .ok a

/-- One course, and unless it fails another one on what it gives. -/
def andThen (c : Course ε α) (next : α → Course ε β) : Course ε β := fun trail r =>
  (∃ e, c trail (.error e) ∧ r = .error e) ∨
    ∃ a before after, trail = before ++ after ∧ c before (.ok a) ∧ next a after r

instance : Monad (Course ε) where
  pure := give
  bind := andThen

theorem andThen_assoc {γ : Type} (c : Course ε α) (next : α → Course ε β)
    (last : β → Course ε γ) :
    (c.andThen next).andThen last = c.andThen fun a => (next a).andThen last := by
  funext trail r
  refine propext ⟨?_, ?_⟩
  · rintro (⟨e, ⟨e', h, same⟩ | ⟨a, before, after, rfl, h, h'⟩, rfl⟩ |
      ⟨b, _, after, rfl, ⟨e', -, same⟩ | ⟨a, start, middle, rfl, h, h'⟩, h''⟩)
    · cases same
      exact .inl ⟨e, h, rfl⟩
    · exact .inr ⟨a, before, after, rfl, h, .inl ⟨e, h', rfl⟩⟩
    · cases same
    · exact .inr ⟨a, start, middle ++ after, by simp, h, .inr ⟨b, middle, after, rfl, h', h''⟩⟩
  · rintro (⟨e, h, rfl⟩ | ⟨a, before, _, rfl, h, ⟨e, h', rfl⟩ | ⟨b, middle, after, rfl, h', h''⟩⟩)
    · exact .inl ⟨e, .inl ⟨e, h, rfl⟩, rfl⟩
    · exact .inl ⟨e, .inr ⟨a, before, _, rfl, h, h'⟩, rfl⟩
    · exact .inr ⟨b, before ++ middle, after, by simp, .inr ⟨a, before, middle, rfl, h, h'⟩, h''⟩

theorem give_andThen (a : α) (next : α → Course ε β) : (give a).andThen next = next a := by
  funext trail r
  refine propext ⟨?_, fun h => .inr ⟨a, [], trail, rfl, ⟨rfl, rfl⟩, h⟩⟩
  rintro (⟨e, ⟨-, same⟩, -⟩ | ⟨a', before, after, rfl, ⟨rfl, same⟩, h⟩)
  · cases same
  · cases same
    exact h

theorem andThen_give (c : Course ε α) : c.andThen give = c := by
  funext trail r
  refine propext ⟨?_, fun h => ?_⟩
  · rintro (⟨e, h, rfl⟩ | ⟨a, before, _, rfl, h, rfl, rfl⟩)
    · exact h
    · simpa using h
  · cases r with
    | error e => exact .inl ⟨e, h, rfl⟩
    | ok a => exact .inr ⟨a, trail, [], by simp, h, rfl, rfl⟩

instance : LawfulMonad (Course ε) :=
  .mk' _ andThen_give give_andThen andThen_assoc

/-- A question that is answered somehow: what the answer leaves in the history, and
what it comes to. -/
def ask (step : Step) (record : σ → List Happening) (verdict : σ → Except ε α) : Course ε α :=
  fun trail r => ∃ answer,
    trail = [⟨step, record answer, failure? (verdict answer)⟩] ∧ r = verdict answer

/-- A check that asks nothing. -/
def check (step : Step) (verdict : Except ε α) : Course ε α :=
  ask step (fun _ : Unit => []) fun _ => verdict

/-- A course whose failures are put in other words. -/
def rename (f : ε → ε') (c : Course ε α) : Course ε' α := fun trail r =>
  ∃ trail₀ r₀, c trail₀ r₀ ∧ trail = trail₀.map (Mark.rename f) ∧ r = r₀.mapError f

/-- One course for each element, in order, until one fails. -/
def each (c : α → Course ε β) : List α → Course ε (List β)
  | [] => pure []
  | a :: rest => do
    let b ← c a
    let bs ← each c rest
    pure (b :: bs)

/-- A course that the publication can do without: its failure is measured. -/
def bestEffort (step : Step) (c : Course PublishError α) : Course PublishError (Option α) :=
  fun trail r =>
    (∃ a, c trail (.ok a) ∧ r = .ok (some a)) ∨
      ∃ e before, c before (.error e) ∧ r = .ok none ∧
        trail = before ++ [⟨step, [.measured (.degraded step.text)], none⟩]

/-! ### Taking courses apart -/

@[simp] theorem pure_iff {a : α} {trail : Trail ε} {r : Except ε α} :
    (pure a : Course ε α) trail r ↔ trail = [] ∧ r = .ok a := Iff.rfl

@[simp] theorem bind_ok {c : Course ε α} {next : α → Course ε β} {trail : Trail ε} {b : β} :
    (c >>= next) trail (.ok b) ↔
      ∃ a before after, trail = before ++ after ∧ c before (.ok a) ∧ next a after (.ok b) := by
  refine ⟨fun h => ?_, Or.inr⟩
  rcases h with ⟨e, -, absurd⟩ | h
  · cases absurd
  · exact h

@[simp] theorem bind_error {c : Course ε α} {next : α → Course ε β} {trail : Trail ε} {e : ε} :
    (c >>= next) trail (.error e) ↔
      c trail (.error e) ∨
        ∃ a before after, trail = before ++ after ∧ c before (.ok a) ∧
          next a after (.error e) := by
  constructor
  · rintro (⟨e', h, same⟩ | h)
    · cases same
      exact Or.inl h
    · exact Or.inr h
  · rintro (h | h)
    · exact Or.inl ⟨e, h, rfl⟩
    · exact Or.inr h

@[simp] theorem check_iff {step : Step} {verdict : Except ε α} {trail : Trail ε}
    {r : Except ε α} :
    check step verdict trail r ↔ trail = [⟨step, [], failure? verdict⟩] ∧ r = verdict :=
  ⟨fun ⟨_, h⟩ => h, fun h => ⟨(), h⟩⟩

@[simp] theorem rename_ok {f : ε → ε'} {c : Course ε α} {trail : Trail ε'} {a : α} :
    c.rename f trail (.ok a) ↔
      ∃ trail₀, c trail₀ (.ok a) ∧ trail = trail₀.map (Mark.rename f) := by
  constructor
  · rintro ⟨trail₀, r₀, h, rfl, same⟩
    cases r₀ with
    | ok a' =>
        cases same
        exact ⟨trail₀, h, rfl⟩
    | error e => cases same
  · rintro ⟨trail₀, h, rfl⟩
    exact ⟨trail₀, .ok a, h, rfl, rfl⟩

@[simp] theorem rename_error {f : ε → ε'} {c : Course ε α} {trail : Trail ε'} {e' : ε'} :
    c.rename f trail (.error e') ↔
      ∃ trail₀ e, c trail₀ (.error e) ∧ trail = trail₀.map (Mark.rename f) ∧ e' = f e := by
  constructor
  · rintro ⟨trail₀, r₀, h, rfl, same⟩
    cases r₀ with
    | ok a => cases same
    | error e =>
        cases same
        exact ⟨trail₀, e, h, rfl, rfl⟩
  · rintro ⟨trail₀, e, h, rfl, rfl⟩
    exact ⟨trail₀, .error e, h, rfl, rfl⟩

@[simp] theorem each_nil {c : α → Course ε β} {trail : Trail ε} {r : Except ε (List β)} :
    each c [] trail r ↔ trail = [] ∧ r = .ok [] := Iff.rfl

theorem each_cons_ok {c : α → Course ε β} {a : α} {rest : List α} {trail : Trail ε}
    {results : List β} :
    each c (a :: rest) trail (.ok results) ↔
      ∃ b bs before after, results = b :: bs ∧ trail = before ++ after ∧ c a before (.ok b) ∧
        each c rest after (.ok bs) := by
  simp only [each, bind_ok, pure_iff]
  constructor
  · rintro ⟨b, before, _, rfl, hb, bs, after, _, rfl, hbs, rfl, same⟩
    cases same
    exact ⟨b, bs, before, after, rfl, by simp, hb, hbs⟩
  · rintro ⟨b, bs, before, after, rfl, rfl, hb, hbs⟩
    exact ⟨b, before, after, rfl, hb, bs, after, [], by simp, hbs, rfl, rfl⟩

/-- An optional part never fails. -/
theorem bestEffort_ok {step : Step} {c : Course PublishError α} {trail : Trail PublishError}
    {r : Except PublishError (Option α)} (h : bestEffort step c trail r) :
    ∃ a?, r = .ok a? := by
  rcases h with ⟨a, -, rfl⟩ | ⟨e, before, -, rfl, -⟩
  · exact ⟨some a, rfl⟩
  · exact ⟨none, rfl⟩

end Course

end Deposit
