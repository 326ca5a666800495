import Deposit.Proofs.Publication.Itinerary
import Mathlib.Data.List.Forall2

/-!
Sending: what a publication may give to the repository, and when.

A requirement says which object may be sent at a step, in view of all that has happened
before (`Requirement`). A trail *meets* a requirement if each of its marks makes no create
call, or one that the requirement allows (`Trail.Meets`). A course *sends* by a requirement
if its trails meet it from where a condition holds, and what it gives comes with another
condition (`Course.Sends`): so what an answer tells is known where the object is sent.

* `Trail.Meets.allows`: a create call along a trail is allowed where it is made.
* `Trail.Meets.creations_sublist`: objects that are sent under identifiers drawn for them
  have one each.
-/

namespace Deposit

variable {ε ε' α β σ : Type}

/-- The calls among what has happened. -/
def calls (history : List Happening) : Journal := history.filterMap Happening.event?

theorem mem_calls {history : List Happening} {event : Event} :
    event ∈ calls history ↔ .called event ∈ history := by
  rw [calls, List.mem_filterMap]
  constructor
  · rintro ⟨happening, mem, same⟩
    cases happening with
    | called event' =>
        obtain rfl : event' = event := by simpa [Happening.event?] using same
        exact mem
    | _ => cases same
  · exact fun mem => ⟨_, mem, rfl⟩

theorem Journal.mem_creations {journal : Journal} {call : CreateCall} :
    call ∈ journal.creations ↔ ∃ answer, .created call answer ∈ journal := by
  rw [creations, List.mem_filterMap]
  constructor
  · rintro ⟨event, mem, same⟩
    cases event with
    | created call' answer =>
        obtain rfl : call' = call := by simpa using same
        exact ⟨answer, mem⟩
    | _ => cases same
  · rintro ⟨answer, mem⟩
    exact ⟨_, mem, rfl⟩

/-! ### Requirements -/

/-- Which object may be sent at a step, in view of what has happened. -/
abbrev Requirement := List Happening → Step → CreateCall → Prop

/-- A mark without a create call, or with one that is allowed, and measured. -/
def Mark.Meets (allowed : Requirement) (history : List Happening) (m : Mark ε) : Prop :=
  (∀ call answer, .called (.created call answer) ∉ m.happenings) ∨
    ∃ call answer, m.happenings = [.called (.created call answer),
      .measured (Course.uploadMeasurement call answer)] ∧ allowed history m.step call

namespace Trail

variable {allowed : Requirement} {history : List Happening}

/-- Each mark of a trail meets a requirement, in view of all that happened before it. -/
def Meets (allowed : Requirement) (history : List Happening) : Trail ε → Prop
  | [] => True
  | m :: rest => m.Meets allowed history ∧ Meets allowed (history ++ m.happenings) rest

theorem meets_append {before after : Trail ε} :
    Meets allowed history (before ++ after) ↔
      before.Meets allowed history ∧ after.Meets allowed (history ++ before.happenings) := by
  induction before generalizing history with
  | nil => simp [Meets]
  | cons m rest ih => simp [Meets, ih, and_assoc]

theorem meets_rename (f : ε → ε') {trail : Trail ε} :
    Meets allowed history (trail.map (Mark.rename f)) ↔ trail.Meets allowed history := by
  induction trail generalizing history with
  | nil => exact Iff.rfl
  | cons m rest ih => exact and_congr Iff.rfl ih

/-- A create call along a trail is allowed where it is made. -/
theorem Meets.allows {before after : Trail ε} {m : Mark ε} {call : CreateCall}
    {answer : Except UploadError Unit} (h : Meets allowed history (before ++ m :: after))
    (called : .called (.created call answer) ∈ m.happenings) :
    allowed (history ++ before.happenings) m.step call := by
  obtain ⟨-, silent | ⟨call', answer', happened, fits⟩, -⟩ := meets_append.mp h
  · exact absurd called (silent call answer)
  · rw [happened] at called
    obtain ⟨rfl, -⟩ : call = call' ∧ answer = answer' := by simpa using called
    exact fits

end Trail

/-! ### Identifiers -/

/-- The identifier that was drawn last, if nothing has happened since. -/
def lastDrawn (history : List Happening) : List Pid :=
  (history.getLast?.bind Happening.pid?).toList

theorem lastDrawn_append (history more : List Happening) :
    (lastDrawn (history ++ more)).Sublist
      (lastDrawn history ++ more.filterMap Happening.pid?) := by
  rcases List.eq_nil_or_concat more with rfl | ⟨start, last, rfl⟩
  · simp
  · have ends : lastDrawn (history ++ (start ++ [last])) = (last.pid?).toList := by
      rw [lastDrawn, ← List.append_assoc, List.getLast?_concat, Option.bind_some]
    rw [List.concat_eq_append, ends, List.filterMap_append]
    refine List.Sublist.trans ?_ (List.sublist_append_right ..)
    refine List.Sublist.trans ?_ (List.sublist_append_right ..)
    cases drawn : last.pid? <;> simp [drawn]

/-- If every object is sent right behind the drawing of its identifier, the objects that are
sent have identifiers that were drawn for them, one each. -/
theorem Trail.Meets.creations_sublist {allowed : Requirement}
    (own : ∀ {history step call}, allowed history step call →
      ∃ earlier, history = earlier ++ [.drawn call.pid]) {trail : Trail ε} :
    ∀ {history}, trail.Meets allowed history →
      (trail.journal.creations.map (·.pid)).Sublist (lastDrawn history ++ trail.drawn) := by
  induction trail with
  | nil => exact fun _ => List.nil_sublist _
  | cons m rest ih =>
      rintro history ⟨here, there⟩
      have later := ih there
      have drawn : Trail.drawn (m :: rest) =
          m.happenings.filterMap Happening.pid? ++ Trail.drawn rest := by simp [Trail.drawn]
      have creations : (Trail.journal (m :: rest)).creations =
          Journal.creations (m.happenings.filterMap Happening.event?) ++
            (Trail.journal rest).creations := by
        rw [Trail.journal_cons, Journal.creations, List.filterMap_append]
        rfl
      rw [drawn, creations, List.map_append]
      rcases here with silent | ⟨call, answer, happened, fits⟩
      · have none : Journal.creations (m.happenings.filterMap Happening.event?) = [] := by
          refine List.eq_nil_iff_forall_not_mem.mpr fun call mem => ?_
          obtain ⟨answer, mem⟩ := Journal.mem_creations.mp mem
          exact silent call answer (mem_calls.mp mem)
        rw [none, List.map_nil, List.nil_append, ← List.append_assoc]
        exact later.trans ((lastDrawn_append ..).append_right _)
      · obtain ⟨earlier, rfl⟩ := own fits
        have drawnHere : lastDrawn (earlier ++ [.drawn call.pid]) = [call.pid] := by
          simp [lastDrawn, Happening.pid?]
        rw [drawnHere, happened]
        rw [happened] at later
        have behind : lastDrawn (earlier ++ [.drawn call.pid] ++ [.called (.created call answer),
            .measured (Course.uploadMeasurement call answer)]) = [] := by
          simp [lastDrawn, Happening.pid?]
        rw [behind, List.nil_append] at later
        exact later.cons_cons call.pid

/-! ### Courses that send by a requirement -/

namespace Course

/-- Where a condition holds, all create calls along a course are allowed, and what it gives
comes with another condition. -/
structure Sends (allowed : Requirement) (pre : List Happening → Prop) (c : Course ε α)
    (post : α → List Happening → Prop) : Prop where
  meets : ∀ {history trail r}, pre history → c trail r → trail.Meets allowed history
  result : ∀ {history trail a}, pre history → c trail (.ok a) →
    post a (history ++ trail.happenings)

section Combinators

variable {allowed : Requirement} {pre : List Happening → Prop} {c : Course ε α}
  {post : α → List Happening → Prop}

theorem sends_pure {a : α} (h : ∀ history, pre history → post a history) :
    Sends allowed pre (pure a : Course ε α) post where
  meets := by
    rintro history _ _ - ⟨rfl, rfl⟩
    trivial
  result := by
    rintro history _ _ holds ⟨rfl, same⟩
    cases same
    simpa using h history holds

theorem Sends.bind {next : α → Course ε β} {last : β → List Happening → Prop}
    (h : Sends allowed pre c post) (rest : ∀ a, Sends allowed (post a) (next a) last) :
    Sends allowed pre (c >>= next) last where
  meets := by
    rintro history _ r holds (⟨e, first, rfl⟩ | ⟨a, before, after, rfl, first, then_⟩)
    · exact h.meets holds first
    · exact Trail.meets_append.mpr
        ⟨h.meets holds first, (rest a).meets (h.result holds first) then_⟩
  result := by
    intro history _ b holds along
    obtain ⟨a, before, after, rfl, first, then_⟩ := bind_ok.mp along
    rw [Trail.happenings_append, ← List.append_assoc]
    exact (rest a).result (h.result holds first) then_

theorem Sends.rename (f : ε → ε') (h : Sends allowed pre c post) :
    Sends allowed pre (c.rename f) post where
  meets := by
    rintro history _ _ holds ⟨trail, r, along, rfl, rfl⟩
    exact (Trail.meets_rename f).mpr (h.meets holds along)
  result := by
    intro history _ a holds along
    obtain ⟨trail, plain, rfl⟩ := rename_ok.mp along
    simpa using h.result holds plain

/-- What is known of everything that a course gives is known of it there, too. -/
theorem Sends.learn {post' : α → List Happening → Prop} (h : Sends allowed pre c post)
    (known : ∀ {history trail a}, c trail (.ok a) → post' a (history ++ trail.happenings)) :
    Sends allowed pre c fun a history => post a history ∧ post' a history where
  meets := h.meets
  result := fun holds along => ⟨h.result holds along, known along⟩

/-- A question that is no create call. -/
theorem sends_ask (step : Step) {record : σ → List Happening} {verdict : σ → Except ε α}
    (silent : ∀ answer call reply, .called (.created call reply) ∉ record answer)
    (known : ∀ history answer a, pre history → verdict answer = .ok a →
      post a (history ++ record answer)) :
    Sends allowed pre (ask step record verdict) post where
  meets := by
    rintro history _ _ - ⟨answer, rfl, rfl⟩
    exact ⟨.inl (silent answer), trivial⟩
  result := by
    rintro history _ a holds ⟨answer, rfl, said⟩
    simpa using known history answer a holds said.symm

/-- A check adds nothing to the history. -/
theorem sends_check (step : Step) (verdict : Except ε α) :
    Sends allowed pre (check step verdict) fun a history => verdict = .ok a ∧ pre history :=
  sends_ask step (fun _ _ _ => List.not_mem_nil) fun history _ a holds said =>
    ⟨said, by rwa [List.append_nil]⟩

/-- An identifier is drawn behind what has happened. -/
theorem sends_drawPid (step : Step) :
    Sends allowed pre (drawPid step : Course ε Pid) fun pid history =>
      ∃ earlier, history = earlier ++ [.drawn pid] ∧ pre earlier :=
  sends_ask step (fun _ _ _ mem => by simp at mem) fun history pid _ holds said => by
    cases said
    exact ⟨history, rfl, holds⟩

/-- A create call that is allowed. -/
theorem sends_upload {step : Step} {call : CreateCall}
    (fits : ∀ history, pre history → allowed history step call) :
    Sends allowed pre (upload step call) fun _ _ => True where
  meets := by
    rintro history _ _ holds ⟨answer, rfl, rfl⟩
    exact ⟨.inr ⟨call, answer, rfl, fits history holds⟩, trivial⟩
  result := fun _ _ => trivial

/-- A condition that stays, whatever happens. -/
def Stable (I : List Happening → Prop) : Prop :=
  ∀ history more, I history → I (history ++ more)

/-- What the calls so far say of the elements of two lists stays. -/
theorem stable_forall₂ {R : Journal → α → β → Prop}
    (mono : ∀ {j j' a b}, R j a b → (∀ event ∈ j, event ∈ j') → R j' a b) (as : List α)
    (bs : List β) : Stable fun history => List.Forall₂ (R (calls history)) as bs :=
  fun _ _ h => h.imp fun _ _ h => mono h fun _ mem =>
    mem_calls.mpr (List.mem_append_left _ (mem_calls.mp mem))

variable {I : List Happening → Prop}

theorem Sends.stays (stable : Stable I) (h : Sends allowed I c post) :
    Sends allowed I c fun _ => I where
  meets := h.meets
  result := fun holds _ => stable _ _ holds

/-- A question that is no create call leaves what is stable as it is. -/
theorem sends_stable_ask (stable : Stable I) (step : Step) {record : σ → List Happening}
    (verdict : σ → Except ε α)
    (silent : ∀ answer call reply, .called (.created call reply) ∉ record answer) :
    Sends allowed I (ask step record verdict) fun _ => I :=
  sends_ask step silent fun history _ _ holds _ => stable history _ holds

theorem Sends.each {c : α → Course ε β} {as : List α}
    (h : ∀ a ∈ as, Sends allowed I (c a) fun _ => I) :
    Sends allowed I (each c as) fun _ => I := by
  induction as with
  | nil => exact sends_pure fun _ holds => holds
  | cons a rest ih =>
      have later := ih fun a' mem => h a' (List.mem_cons_of_mem a mem)
      exact (h a List.mem_cons_self).bind fun _ =>
        later.bind fun _ => sends_pure fun _ holds => holds

theorem Sends.bestEffort (stable : Stable I) (step : Step) {c : Course PublishError α}
    (h : Sends allowed I c post) : Sends allowed I (bestEffort step c) fun _ => I where
  meets := by
    rintro history _ _ holds (⟨a, along, rfl⟩ | ⟨e, before, along, rfl, rfl⟩)
    · exact h.meets holds along
    · refine Trail.meets_append.mpr ⟨h.meets holds along, .inl ?_, trivial⟩
      simp
  result := fun holds _ => stable _ _ holds

end Combinators

/-! ### Parts that send nothing -/

section Silent

variable {allowed : Requirement} {I : List Happening → Prop} (stable : Stable I)
include stable

theorem sends_record (step : Step) (read : Json → Except Json.Mismatch α) (path : String) :
    Sends allowed I (record step read path) fun _ => I :=
  sends_stable_ask stable step _ fun _ _ _ => by simp

theorem sends_file? (step : Step) (id : String) : Sends allowed I (file? step id) fun _ => I :=
  sends_stable_ask stable step _ fun _ _ _ => by simp

theorem sends_fetch (step : Step) (url : String) : Sends allowed I (fetch step url) fun _ => I :=
  sends_stable_ask stable step _ fun _ _ _ => by simp

theorem sends_scratch (step : Step) : Sends allowed I (scratch step) fun _ => I :=
  sends_stable_ask stable step _ fun _ _ _ => by simp

theorem sends_stable_check (step : Step) (verdict : Except ε α) :
    Sends allowed I (check step verdict) fun _ => I :=
  sends_stable_ask stable step _ fun _ _ _ => by simp

theorem sends_preparation (network : Network) (request : PublishRequest) :
    Sends allowed I (preparation network request) fun _ => I := by
  have authenticated : Sends allowed I (authentication request.repositoryToken) fun _ => I :=
    (Sends.rename _ (sends_stable_ask stable _ _ fun _ _ _ => by simp)).bind fun _ =>
      sends_stable_check stable ..
  have loaded : Sends allowed I (loading request.taleId request.userId) fun _ => I :=
    ((sends_record stable ..).rename _).bind fun _ =>
      ((sends_record stable ..).rename _).bind fun _ => sends_pure fun _ holds => holds
  have classified : Sends allowed I (classification network request.items) fun _ => I :=
    (Sends.each fun _ _ =>
      sends_stable_ask stable _ _ fun _ _ _ => by simp).bind fun _ =>
        sends_pure fun _ holds => holds
  exact authenticated.bind fun _ => loaded.bind fun _ =>
    (classified.rename _).bind fun _ => sends_pure fun _ holds => holds

theorem sends_pathEntry (step : Step) (id : String) :
    Sends allowed I (pathEntry step id) fun _ => I :=
  (sends_record stable ..).bind fun _ =>
    (sends_stable_ask stable _ _ fun _ _ _ => by simp).bind fun _ =>
      sends_pure fun _ holds => holds

theorem sends_externalFile (step : Step) (name url : String) :
    Sends allowed I (externalFile step name url) fun _ => I :=
  ((sends_scratch stable _).rename _).bind fun _ =>
    ((sends_fetch stable ..).rename _).bind fun _ =>
      ((sends_stable_check stable ..).rename _).bind fun _ => sends_pure fun _ holds => holds

theorem sends_externalEntry (step : Step) (id : String) :
    Sends allowed I (externalEntry step id) fun _ => I := by
  refine ((sends_file? stable ..).rename _).bind fun file? => ?_
  cases linkOf file? with
  | none => exact sends_pure fun _ holds => holds
  | some link => exact (sends_externalFile stable ..).bind fun _ => sends_pure fun _ holds => holds

theorem sends_archiveUrl (step : Step) (tale : Tale) :
    Sends allowed I (archiveUrl step tale) fun _ => I :=
  (sends_stable_check stable ..).bind fun _ => (sends_record stable ..).bind fun _ =>
    (sends_record stable ..).bind fun _ => sends_pure fun _ holds => holds

theorem sends_objectEntry (step : Step) (id : String) :
    Sends allowed I (objectEntry step id) fun _ => I :=
  (sends_record stable ..).bind fun _ => (sends_file? stable ..).bind fun _ =>
    sends_pure fun _ holds => holds

end Silent

end Course

end Deposit
