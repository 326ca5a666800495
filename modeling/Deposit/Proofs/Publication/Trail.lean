import Deposit.Publication.Run
import Mathlib.Data.List.Flatten

/-!
Trails: what a publication does, one mark for each call or check.

A mark belongs to a step, and says what happened and whether it came to a failure.
The files of the storage, the license and the environment are optional: a publication
can do without them, and a failed mark of theirs leaves the others alone. A trail
*settles* for a result if every mark of the other steps passes, except that a failure
is the failure of the last mark (`Trail.Settles`).
-/

namespace Deposit

/-! ### Steps -/

/-- The place of a step in the order of a publication. -/
def Step.rank : Step → Nat
  | .configure => 0
  | .authenticate => 1
  | .loadTale => 2
  | .classify => 3
  | .localObjects => 4
  | .packageInfo => 5
  | .license => 6
  | .environment => 7
  | .descriptiveRecord => 8
  | .resourceMap => 9

theorem Step.eq_of_rank_eq {a b : Step} (h : a.rank = b.rank) : a = b := by
  cases a <;> cases b <;> first | rfl | cases h

/-- Whether a publication can do without what a step makes. -/
def Step.isOptional : Step → Bool
  | .localObjects | .license | .environment => true
  | _ => false

/-! ### Marks -/

/-- A call or a check: the step it belongs to, what happened in it, and the failure it
came to, if any. -/
structure Mark (ε : Type) where
  step : Step
  happenings : List Happening
  failure : Option ε

namespace Mark

variable {ε ε' : Type}

/-- A mark passes if it has no failure, or belongs to an optional step. -/
def Passes (m : Mark ε) : Prop := m.step.isOptional = true ∨ m.failure = none

/-- A mark whose failure is put in other words. -/
def rename (f : ε → ε') (m : Mark ε) : Mark ε' := ⟨m.step, m.happenings, m.failure.map f⟩

@[simp] theorem rename_step (f : ε → ε') (m : Mark ε) : (m.rename f).step = m.step := rfl

@[simp] theorem rename_happenings (f : ε → ε') (m : Mark ε) :
    (m.rename f).happenings = m.happenings := rfl

@[simp] theorem rename_failure (f : ε → ε') (m : Mark ε) :
    (m.rename f).failure = m.failure.map f := rfl

@[simp] theorem rename_passes (f : ε → ε') (m : Mark ε) : (m.rename f).Passes ↔ m.Passes := by
  simp [Passes]

end Mark

/-! ### Calls of a journal -/

namespace Journal

@[simp] theorem accepted_append (before after : Journal) :
    accepted (before ++ after) = before.accepted ++ after.accepted :=
  List.filterMap_append

theorem mem_accepted {journal : Journal} {call : CreateCall} :
    call ∈ journal.accepted ↔ .created call (.ok ()) ∈ journal := by
  rw [accepted, List.mem_filterMap]
  constructor
  · rintro ⟨event, mem, same⟩
    cases event with
    | created call' answer =>
        cases answer with
        | ok _ =>
            cases same
            exact mem
        | error e => cases same
    | _ => cases same
  · exact fun mem => ⟨_, mem, rfl⟩

/-- What the repository takes was given to it. -/
theorem accepted_sublist (journal : Journal) : journal.accepted.Sublist journal.creations := by
  induction journal with
  | nil => exact .slnil
  | cons event rest ih =>
      cases event with
      | created call answer =>
          cases answer with
          | ok _ => exact ih.cons_cons call
          | error e => exact ih.cons call
      | _ => exact ih

end Journal

/-! ### Trails -/

/-- Marks in the order they were made. -/
abbrev Trail (ε : Type) := List (Mark ε)

namespace Trail

variable {ε ε' α β : Type}

/-- All that happened along a trail. -/
def happenings (trail : Trail ε) : List Happening := trail.flatMap (·.happenings)

@[simp] theorem happenings_nil : happenings ([] : Trail ε) = [] := rfl

@[simp] theorem happenings_cons (m : Mark ε) (trail : Trail ε) :
    happenings (m :: trail) = m.happenings ++ trail.happenings := rfl

@[simp] theorem happenings_append (before after : Trail ε) :
    happenings (before ++ after) = before.happenings ++ after.happenings :=
  List.flatMap_append

@[simp] theorem happenings_rename (f : ε → ε') (trail : Trail ε) :
    happenings (trail.map (Mark.rename f)) = trail.happenings := by
  simp [happenings, List.flatMap_map]

/-- The calls along a trail. -/
def journal (trail : Trail ε) : Journal := trail.happenings.filterMap Happening.event?

@[simp] theorem journal_nil : journal ([] : Trail ε) = [] := rfl

theorem journal_cons (m : Mark ε) (trail : Trail ε) :
    journal (m :: trail) = m.happenings.filterMap Happening.event? ++ trail.journal := by
  simp [journal]

@[simp] theorem journal_append (before after : Trail ε) :
    journal (before ++ after) = before.journal ++ after.journal := by
  simp [journal]

@[simp] theorem journal_rename (f : ε → ε') (trail : Trail ε) :
    journal (trail.map (Mark.rename f)) = trail.journal := by
  simp [journal]

/-- The identifiers that were drawn along a trail. -/
def drawn (trail : Trail ε) : List Pid := trail.happenings.filterMap Happening.pid?

@[simp] theorem drawn_nil : drawn ([] : Trail ε) = [] := rfl

@[simp] theorem drawn_append (before after : Trail ε) :
    drawn (before ++ after) = before.drawn ++ after.drawn := by
  simp [drawn]

@[simp] theorem drawn_rename (f : ε → ε') (trail : Trail ε) :
    drawn (trail.map (Mark.rename f)) = trail.drawn := by
  simp [drawn]

/-- The identifiers of the objects that the repository took along a trail. -/
def acceptedPids (trail : Trail ε) : List Pid := trail.journal.acceptedPids

@[simp] theorem acceptedPids_nil : acceptedPids ([] : Trail ε) = [] := rfl

@[simp] theorem acceptedPids_append (before after : Trail ε) :
    acceptedPids (before ++ after) = before.acceptedPids ++ after.acceptedPids := by
  simp [acceptedPids, Journal.acceptedPids, Journal.accepted]

@[simp] theorem acceptedPids_rename (f : ε → ε') (trail : Trail ε) :
    acceptedPids (trail.map (Mark.rename f)) = trail.acceptedPids := by
  simp [acceptedPids]

/-- The marks of one step. -/
def ofStep (step : Step) (trail : Trail ε) : Trail ε := trail.filter (·.step = step)

@[simp] theorem ofStep_append (step : Step) (before after : Trail ε) :
    ofStep step (before ++ after) = before.ofStep step ++ after.ofStep step :=
  List.filter_append ..

theorem ofStep_eq_self {step : Step} {trail : Trail ε} (h : ∀ m ∈ trail, m.step = step) :
    trail.ofStep step = trail :=
  List.filter_eq_self.mpr fun m mem => by simp [h m mem]

theorem ofStep_eq_nil {step : Step} {trail : Trail ε} (h : ∀ m ∈ trail, m.step ≠ step) :
    trail.ofStep step = [] :=
  List.filter_eq_nil_iff.mpr fun m mem => by simp [h m mem]

theorem journal_ofStep_sublist (step : Step) (trail : Trail ε) :
    (trail.ofStep step).journal.Sublist trail.journal :=
  (List.filter_sublist.flatMap _).filterMap _

theorem drawn_ofStep_sublist (step : Step) (trail : Trail ε) :
    (trail.ofStep step).drawn.Sublist trail.drawn :=
  (List.filter_sublist.flatMap _).filterMap _

/-! ### Settled trails -/

/-- Every mark passes, except that a failure is that of the last mark, which belongs to
a step that is not optional. -/
def Settles (trail : Trail ε) : Except ε α → Prop
  | .ok _ => ∀ m ∈ trail, m.Passes
  | .error e => ∃ before last, trail = before ++ [last] ∧ last.step.isOptional = false ∧
      last.failure = some e ∧ ∀ m ∈ before, m.Passes

/-- Passed marks in front of a settled trail leave it settled. -/
theorem Settles.append_left {before after : Trail ε} {r : Except ε α}
    (passed : ∀ m ∈ before, m.Passes) (settled : after.Settles r) :
    Settles (before ++ after) r := by
  cases r with
  | ok a =>
      intro m mem
      rcases List.mem_append.mp mem with mem | mem
      · exact passed m mem
      · exact settled m mem
  | error e =>
      obtain ⟨start, last, rfl, fatal, failed, rest⟩ := settled
      refine ⟨before ++ start, last, by simp, fatal, failed, fun m mem => ?_⟩
      rcases List.mem_append.mp mem with mem | mem
      · exact passed m mem
      · exact rest m mem

/-- A settled trail stays settled when its failures are put in other words. -/
theorem Settles.rename {trail : Trail ε} {r : Except ε α} (f : ε → ε')
    (settled : trail.Settles r) : Settles (trail.map (Mark.rename f)) (r.mapError f) := by
  cases r with
  | ok a => simpa [Settles, Except.mapError] using settled
  | error e =>
      obtain ⟨before, last, rfl, fatal, failed, passed⟩ := settled
      refine ⟨before.map (Mark.rename f), last.rename f, by simp, fatal, by simp [failed], ?_⟩
      simpa using passed

/-- A mark that is not in front of the last one is the last one. -/
theorem eq_last_of_not_mem {before after start : Trail ε} {m last : Mark ε}
    (split : before ++ m :: after = start ++ [last]) (new : m ∉ start) :
    before = start ∧ m = last ∧ after = [] := by
  rcases List.eq_nil_or_concat after with rfl | ⟨rest, final, rfl⟩
  · obtain ⟨same, same'⟩ := List.append_inj' split rfl
    exact ⟨same, by simpa using same', rfl⟩
  · have split' : (before ++ m :: rest) ++ [final] = start ++ [last] := by simpa using split
    obtain ⟨same, -⟩ := List.append_inj' split' rfl
    exact absurd (by simp [← same]) new

/-- A failed mark of a step that is not optional is where its trail ends, and gives the
result. -/
theorem Settles.of_failed {before after : Trail ε} {m : Mark ε} {e : ε} {r : Except ε α}
    (settled : Settles (before ++ m :: after) r) (fatal : m.step.isOptional = false)
    (failed : m.failure = some e) : after = [] ∧ r = .error e := by
  have stuck : ¬ m.Passes := by simp [Mark.Passes, fatal, failed]
  cases r with
  | ok a => exact absurd (settled m (by simp)) stuck
  | error e' =>
      obtain ⟨start, last, split, -, lastFailed, passed⟩ := settled
      obtain ⟨-, rfl, rfl⟩ := eq_last_of_not_mem split fun mem => stuck (passed m mem)
      cases failed.symm.trans lastFailed
      exact ⟨rfl, rfl⟩

end Trail

end Deposit
