import Deposit.Proofs.Publication.Itinerary

/-!
What happens in the marks of a course, mark by mark.

If something holds of what happens in every question of a course, it holds of every mark that
the course leaves (`Course.Marked`). Most parts of a publication are *silent*: they give nothing
to the repository and measure nothing (`Happening.Silent`).
-/

namespace Deposit

/-- Nothing is given to the repository, and nothing is measured. -/
structure Happening.Silent (happenings : List Happening) : Prop where
  uncalled : Journal.creations (happenings.filterMap event?) = []
  unmeasured : happenings.filterMap measurement? = []

namespace Course

variable {ε ε' α β σ : Type} {P : List Happening → Prop}

/-! ### Marked courses -/

/-- Something holds of what happens in every mark of a course. -/
structure Marked (P : List Happening → Prop) (c : Course ε α) : Prop where
  marks : ∀ {trail r}, c trail r → ∀ m ∈ trail, P m.happenings

theorem marked_pure (a : α) : Marked P (pure a : Course ε α) where
  marks := by
    rintro _ _ ⟨rfl, rfl⟩ m mem
    exact absurd mem List.not_mem_nil

theorem marked_ask {step : Step} {record : σ → List Happening} {verdict : σ → Except ε α}
    (holds : ∀ answer, P (record answer)) : Marked P (ask step record verdict) where
  marks := by
    rintro _ _ ⟨answer, rfl, rfl⟩ m mem
    rw [List.mem_singleton.mp mem]
    exact holds answer

theorem Marked.bind {c : Course ε α} {next : α → Course ε β} (h : Marked P c)
    (rest : ∀ a, Marked P (next a)) : Marked P (c >>= next) where
  marks := by
    rintro _ _ (⟨e, first, rfl⟩ | ⟨a, before, after, rfl, first, then_⟩) m mem
    · exact h.marks first m mem
    · rcases List.mem_append.mp mem with mem | mem
      · exact h.marks first m mem
      · exact (rest a).marks then_ m mem

theorem Marked.rename {c : Course ε α} (f : ε → ε') (h : Marked P c) :
    Marked P (c.rename f) where
  marks := by
    rintro _ _ ⟨trail, r, along, rfl, rfl⟩ m mem
    obtain ⟨m₀, mem₀, rfl⟩ := List.mem_map.mp mem
    exact h.marks along m₀ mem₀

theorem Marked.each {c : α → Course ε β} (h : ∀ a, Marked P (c a)) :
    ∀ as, Marked P (each c as)
  | [] => marked_pure []
  | a :: rest => (h a).bind fun _ => (Marked.each h rest).bind fun _ => marked_pure _

/-- A course without its object is marked with the measurement of the step. -/
theorem Marked.bestEffort {step : Step} {c : Course PublishError α} (h : Marked P c)
    (degraded : P [.measured (.degraded step.text)]) : Marked P (bestEffort step c) where
  marks := by
    rintro _ _ (⟨a, along, rfl⟩ | ⟨e, before, along, rfl, rfl⟩) m mem
    · exact h.marks along m mem
    · rcases List.mem_append.mp mem with mem | mem
      · exact h.marks along m mem
      · rw [List.mem_singleton.mp mem]
        exact degraded

theorem Marked.mono {Q : List Happening → Prop} {c : Course ε α} (h : Marked P c)
    (weaker : ∀ happenings, P happenings → Q happenings) : Marked Q c where
  marks along m mem := weaker _ (h.marks along m mem)

/-! ### Silent parts -/

/-- All marks of a course are silent. -/
abbrev Silent (c : Course ε α) : Prop := Marked Happening.Silent c

theorem silent_check (step : Step) (verdict : Except ε α) : Silent (check step verdict) :=
  marked_ask fun _ => ⟨rfl, rfl⟩

theorem silent_record (step : Step) (read : Json → Except Json.Mismatch α) (path : String) :
    Silent (record step read path) :=
  marked_ask fun _ => ⟨rfl, rfl⟩

theorem silent_file? (step : Step) (id : String) : Silent (file? step id) :=
  marked_ask fun _ => ⟨rfl, rfl⟩

theorem silent_download (step : Step) (file : String) : Silent (download step file) :=
  marked_ask fun _ => ⟨rfl, rfl⟩

theorem silent_fetch (step : Step) (url : String) : Silent (fetch step url) :=
  marked_ask fun _ => ⟨rfl, rfl⟩

theorem silent_scratch (step : Step) : Silent (scratch step) :=
  marked_ask fun _ => ⟨rfl, rfl⟩

theorem silent_licenseText (step : Step) (path : String) : Silent (licenseText step path) :=
  marked_ask fun _ => ⟨rfl, rfl⟩

theorem silent_drawPid (step : Step) : Silent (drawPid step : Course ε Pid) :=
  marked_ask fun _ => ⟨rfl, rfl⟩

theorem silent_preparation (network : Network) (request : PublishRequest) :
    Silent (preparation network request) := by
  have authenticated : Silent (authentication request.repositoryToken) :=
    (Marked.rename _ (marked_ask fun _ => ⟨rfl, rfl⟩)).bind fun _ => silent_check ..
  have loaded : Silent (loading request.taleId request.userId) :=
    ((silent_record ..).rename _).bind fun _ =>
      ((silent_record ..).rename _).bind fun _ => marked_pure _
  have classified : Silent (classification network request.items) :=
    (Marked.each (fun _ => marked_ask fun _ => ⟨rfl, rfl⟩) _).bind fun _ => marked_pure _
  exact authenticated.bind fun _ => loaded.bind fun _ =>
    (classified.rename _).bind fun _ => marked_pure _

theorem silent_paths (step : Step) (items : List String) : Silent (paths step items) :=
  (Marked.each (fun _ => (silent_record ..).bind fun _ =>
    (marked_ask fun _ => ⟨rfl, rfl⟩).bind fun _ => marked_pure _) items).bind fun _ =>
      marked_pure _

theorem silent_externalFiles (step : Step) (items : List String) :
    Silent (externalFiles step items) := by
  refine (Marked.each (fun id => ?_) items).bind fun _ => marked_pure _
  refine ((silent_file? ..).rename _).bind fun file? => ?_
  rcases linkOf file? with _ | ⟨name, url⟩
  · exact marked_pure _
  · refine Marked.bind ?_ fun _ => marked_pure _
    exact ((silent_scratch _).rename _).bind fun _ =>
      ((silent_fetch ..).rename _).bind fun _ =>
        ((silent_check ..).rename _).bind fun _ => marked_pure _

theorem silent_archiveUrl (step : Step) (tale : Tale) : Silent (archiveUrl step tale) :=
  (silent_check ..).bind fun _ => (silent_record ..).bind fun _ =>
    (silent_record ..).bind fun _ => marked_pure _

theorem silent_objectEntry (step : Step) (id : String) : Silent (objectEntry step id) :=
  (silent_record ..).bind fun _ => (silent_file? ..).bind fun _ => marked_pure _

end Course

end Deposit
