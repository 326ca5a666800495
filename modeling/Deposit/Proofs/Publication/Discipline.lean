import Deposit.Proofs.Publication.Following

/-!
The failure discipline of a publication.

A part that belongs to one step *stays* in it (`Course.Stays`): all its marks are of that
step, and unless the step is optional it ends at its first failure. A part of a
publication *names* its step if every failure in it does (`Course.Names`). Parts like
these are put together to a course that is *disciplined* (`Course.Disciplined`): it goes
through the steps in order, fails exactly where a mark of a step that is not optional
does, ends there, and names that step.

* `publication_disciplined`: so does the course of a whole publication.
* `publish_stops_at_fatal_failure`: what that says of a publication in any world.
-/

namespace Deposit.Course

variable {ε ε' α β σ : Type}

/-! ### Parts of one step -/

/-- All marks of a course belong to one step, and unless that step is optional, every
trail of the course is settled. -/
structure Stays (step : Step) (c : Course ε α) : Prop where
  steps : ∀ {trail r}, c trail r → ∀ m ∈ trail, m.step = step
  settles : step.isOptional = false → ∀ {trail r}, c trail r → trail.Settles r

theorem stays_pure (step : Step) (a : α) : Stays step (pure a : Course ε α) where
  steps := by
    rintro _ _ ⟨rfl, rfl⟩ m mem
    exact absurd mem List.not_mem_nil
  settles := by
    rintro - _ _ ⟨rfl, rfl⟩ m mem
    exact absurd mem List.not_mem_nil

theorem stays_ask (step : Step) (record : σ → List Happening) (verdict : σ → Except ε α) :
    Stays step (ask step record verdict) where
  steps := by
    rintro _ _ ⟨answer, rfl, rfl⟩ m mem
    rw [List.mem_singleton.mp mem]
  settles := by
    rintro fatal _ _ ⟨answer, rfl, rfl⟩
    cases said : verdict answer with
    | ok a =>
        intro m mem
        rw [List.mem_singleton.mp mem]
        exact .inr rfl
    | error e => exact ⟨[], _, rfl, fatal, rfl, fun m mem => absurd mem List.not_mem_nil⟩

theorem Stays.bind {step : Step} {c : Course ε α} {next : α → Course ε β} (h : Stays step c)
    (rest : ∀ a, Stays step (next a)) : Stays step (c >>= next) where
  steps := by
    rintro _ _ (⟨e, first, rfl⟩ | ⟨a, before, after, rfl, first, then_⟩) m mem
    · exact h.steps first m mem
    · rcases List.mem_append.mp mem with mem | mem
      · exact h.steps first m mem
      · exact (rest a).steps then_ m mem
  settles := by
    rintro fatal _ _ (⟨e, first, rfl⟩ | ⟨a, before, after, rfl, first, then_⟩)
    · exact h.settles fatal first
    · exact .append_left (h.settles fatal first) ((rest a).settles fatal then_)

theorem Stays.rename {step : Step} {c : Course ε α} (f : ε → ε') (h : Stays step c) :
    Stays step (c.rename f) where
  steps := by
    rintro _ _ ⟨trail, r, along, rfl, rfl⟩ m mem
    obtain ⟨m₀, mem₀, rfl⟩ := List.mem_map.mp mem
    exact h.steps along m₀ mem₀
  settles := by
    rintro fatal _ _ ⟨trail, r, along, rfl, rfl⟩
    exact (h.settles fatal along).rename f

theorem Stays.each {step : Step} {c : α → Course ε β} (h : ∀ a, Stays step (c a)) :
    ∀ as, Stays step (each c as)
  | [] => stays_pure step []
  | a :: rest => (h a).bind fun _ => (Stays.each h rest).bind fun _ => stays_pure ..

/-- A part stays in its step, and every failure of it names the step. -/
structure Names (step : Step) (c : Course PublishError α) : Prop extends Stays step c where
  names : ∀ {trail r}, c trail r → ∀ m ∈ trail, ∀ e, m.failure = some e → e.step = step

theorem names_pure (step : Step) (a : α) : Names step (pure a : Course PublishError α) where
  toStays := stays_pure step a
  names := by
    rintro _ _ ⟨rfl, rfl⟩ m mem
    exact absurd mem List.not_mem_nil

theorem Names.bind {step : Step} {c : Course PublishError α} {next : α → Course PublishError β}
    (h : Names step c) (rest : ∀ a, Names step (next a)) : Names step (c >>= next) where
  toStays := h.toStays.bind fun a => (rest a).toStays
  names := by
    rintro _ _ (⟨e, first, rfl⟩ | ⟨a, before, after, rfl, first, then_⟩) m mem
    · exact h.names first m mem
    · rcases List.mem_append.mp mem with mem | mem
      · exact h.names first m mem
      · exact (rest a).names then_ m mem

/-- Failures that are put in the words of a step name it. -/
theorem Stays.named {step : Step} {c : Course ε α} (f : ε → PublishError) (h : Stays step c)
    (words : ∀ e, (f e).step = step) : Names step (c.rename f) where
  toStays := h.rename f
  names := by
    rintro _ _ ⟨trail, r, along, rfl, rfl⟩ m mem e failed
    obtain ⟨m₀, -, rfl⟩ := List.mem_map.mp mem
    obtain ⟨e₀, -, rfl⟩ := Option.map_eq_some_iff.mp failed
    exact words e₀

/-- Drawing an identifier never fails. -/
theorem names_drawPid (step : Step) : Names step (drawPid step) where
  toStays := stays_ask ..
  names := by
    rintro _ _ ⟨pid, rfl, -⟩ m mem e failed
    rw [List.mem_singleton.mp mem] at failed
    cases failed

/-! ### The parts of a publication -/

theorem names_authentication (token : String) :
    Names .authenticate (authentication token) := by
  refine Names.bind ((stays_ask ..).named .auth fun _ => rfl) fun _ => ⟨stays_ask .., ?_⟩
  rintro _ _ ⟨answer, rfl, rfl⟩ m mem e failed
  rw [List.mem_singleton.mp mem] at failed
  cases named : Identity.userId token with
  | ok id => simp [named, failure?, Except.mapError] at failed
  | error fault =>
      obtain rfl : _ = e := by simpa [named, failure?, Except.mapError] using failed
      rfl

theorem names_loading (taleId userId : String) : Names .loadTale (loading taleId userId) :=
  ((stays_ask ..).named (.storage .loadTale) fun _ => rfl).bind fun _ =>
    ((stays_ask ..).named (.storage .loadTale) fun _ => rfl).bind fun _ => names_pure ..

theorem stays_classification (network : Network) (items : List String) :
    Stays .classify (classification network items) :=
  (Stays.each (fun _ => stays_ask ..) items).bind fun _ => stays_pure ..

theorem names_generatedUpload (step : Step) (file : GeneratedFile) (pid : Pid)
    (content : Bytes) (rightsHolder : String) :
    Names step (generatedUpload step file pid content rightsHolder) :=
  ((stays_ask ..).named (.upload step) fun _ => rfl).bind fun _ => names_pure ..

theorem stays_storedUpload (file : FileObject) (rightsHolder : String) :
    Stays .localObjects (storedUpload file rightsHolder) :=
  ((stays_ask ..).rename _).bind fun _ =>
    ((stays_ask ..).rename _).bind fun _ =>
      (stays_ask ..).bind fun _ =>
        ((stays_ask ..).rename _).bind fun _ =>
          ((stays_ask ..).rename _).bind fun _ =>
            ((stays_ask ..).rename _).bind fun _ => (stays_ask ..).rename _

theorem stays_paths (step : Step) (items : List String) : Stays step (paths step items) :=
  (Stays.each (fun _ => (stays_ask ..).bind fun _ =>
    (stays_ask ..).bind fun _ => stays_pure ..) items).bind fun _ => stays_pure ..

theorem stays_externalEntry (step : Step) (id : String) :
    Stays step (externalEntry step id) := by
  refine ((stays_ask ..).rename _).bind fun file? => ?_
  rcases linkOf file? with _ | ⟨name, url⟩
  · exact stays_pure ..
  · refine Stays.bind ?_ fun _ => stays_pure ..
    exact ((stays_ask ..).rename _).bind fun _ =>
      ((stays_ask ..).rename _).bind fun _ =>
        ((stays_ask ..).rename _).bind fun _ => stays_pure ..

theorem stays_externalFiles (step : Step) (items : List String) :
    Stays step (externalFiles step items) :=
  (Stays.each (stays_externalEntry step) items).bind fun _ => stays_pure ..

theorem names_packageInfoUpload (request : PublishRequest) (prepared : Prepared) :
    Names .packageInfo (packageInfoUpload request prepared) :=
  ((stays_paths ..).named (.storage .packageInfo) fun _ => rfl).bind fun _ =>
    ((stays_externalFiles ..).named (.fetch .packageInfo) fun _ => rfl).bind fun _ =>
      ((stays_ask ..).named (.metadata .packageInfo ∘ .yaml ∘ Yaml.Unwritable.message)
        fun _ => rfl).bind fun _ => (names_drawPid _).bind fun _ => names_generatedUpload ..

theorem stays_licenseUpload (directory licenseId rightsHolder : String) :
    Stays .license (licenseUpload directory licenseId rightsHolder) :=
  ((stays_ask ..).rename _).bind fun _ =>
    ((stays_ask ..).rename _).bind fun _ =>
      (stays_ask ..).bind fun _ => (names_generatedUpload ..).toStays

theorem stays_environmentUpload (tale : Tale) (rightsHolder : String) :
    Stays .environment (environmentUpload tale rightsHolder) := by
  refine Stays.bind (Stays.rename _ ?_) fun _ =>
    ((stays_ask ..).rename _).bind fun _ =>
      ((stays_ask ..).rename _).bind fun _ =>
        (stays_ask ..).bind fun _ =>
          ((stays_ask ..).rename _).bind fun _ => (names_generatedUpload ..).toStays
  exact (stays_ask ..).bind fun _ =>
    (stays_ask ..).bind fun _ => (stays_ask ..).bind fun _ => stays_pure ..

theorem stays_objectEntry (step : Step) (id : String) : Stays step (objectEntry step id) :=
  (stays_ask ..).bind fun _ => (stays_ask ..).bind fun _ => stays_pure ..

theorem names_recordUpload (request : PublishRequest) (prepared : Prepared)
    (members : Members) : Names .descriptiveRecord (recordUpload request prepared members) :=
  ((Stays.each (stays_objectEntry _) _).named (.storage .descriptiveRecord) fun _ => rfl).bind
    fun _ => (names_drawPid _).bind fun _ =>
      ((stays_ask ..).named (.identity ∘ .missingIdentity) fun _ => rfl).bind fun _ =>
        (stays_ask ..).named (.upload .descriptiveRecord) fun _ => rfl

theorem names_mapUpload (network : Network) (pid metadataPid : Pid)
    (objects : List (Option Pid)) (rightsHolder : String) :
    Names .resourceMap (mapUpload network pid metadataPid objects rightsHolder) :=
  ((stays_ask ..).named (.upload .resourceMap) fun _ => rfl).bind fun _ => names_pure ..

/-! ### Parts of several steps -/

/-- A course that goes through the steps between two places in their order, and whose
trails are settled; a failure of a step that is not optional names its step. -/
structure Disciplined (low high : Nat) (c : Course PublishError α) : Prop where
  bounds : ∀ {trail r}, c trail r → ∀ m ∈ trail, low ≤ m.step.rank ∧ m.step.rank ≤ high
  ordered : ∀ {trail r}, c trail r → trail.Pairwise fun m n => m.step.rank ≤ n.step.rank
  settles : ∀ {trail r}, c trail r → trail.Settles r
  blames : ∀ {trail r}, c trail r → ∀ m ∈ trail, m.step.isOptional = false →
    ∀ e, m.failure = some e → e.step = m.step

theorem disciplined_pure (low high : Nat) (a : α) :
    Disciplined low high (pure a : Course PublishError α) where
  bounds := by
    rintro _ _ ⟨rfl, rfl⟩ m mem
    exact absurd mem List.not_mem_nil
  ordered := by
    rintro _ _ ⟨rfl, rfl⟩
    exact .nil
  settles := by
    rintro _ _ ⟨rfl, rfl⟩ m mem
    exact absurd mem List.not_mem_nil
  blames := by
    rintro _ _ ⟨rfl, rfl⟩ m mem
    exact absurd mem List.not_mem_nil

/-- One part behind another: the steps of the second are not in front of those of the
first. -/
theorem Disciplined.bind {low middle middle' high : Nat} {c : Course PublishError α}
    {next : α → Course PublishError β} (h : Disciplined low middle c)
    (rest : ∀ a, Disciplined middle' high (next a))
    (upward : low ≤ middle ∧ middle ≤ middle' ∧ middle' ≤ high) :
    Disciplined low high (c >>= next) where
  bounds := by
    rintro _ _ (⟨e, first, rfl⟩ | ⟨a, before, after, rfl, first, then_⟩) m mem
    · have := h.bounds first m mem
      omega
    · rcases List.mem_append.mp mem with mem | mem
      · have := h.bounds first m mem
        omega
      · have := (rest a).bounds then_ m mem
        omega
  ordered := by
    rintro _ _ (⟨e, first, rfl⟩ | ⟨a, before, after, rfl, first, then_⟩)
    · exact h.ordered first
    · refine List.pairwise_append.mpr ⟨h.ordered first, (rest a).ordered then_, ?_⟩
      intro m mem n mem'
      have := (h.bounds first m mem).2
      have := ((rest a).bounds then_ n mem').1
      omega
  settles := by
    rintro _ _ (⟨e, first, rfl⟩ | ⟨a, before, after, rfl, first, then_⟩)
    · exact h.settles first
    · exact .append_left (h.settles first) ((rest a).settles then_)
  blames := by
    rintro _ _ (⟨e, first, rfl⟩ | ⟨a, before, after, rfl, first, then_⟩) m mem
    · exact h.blames first m mem
    · rcases List.mem_append.mp mem with mem | mem
      · exact h.blames first m mem
      · exact (rest a).blames then_ m mem

/-- A part of one step that is not optional. -/
theorem Names.disciplined {step : Step} {c : Course PublishError α} (h : Names step c)
    (fatal : step.isOptional = false) : Disciplined step.rank step.rank c where
  bounds := fun along m mem => by simp [h.steps along m mem]
  ordered := fun along => by
    refine List.pairwise_of_forall_mem_list fun m mem n mem' => ?_
    exact Nat.le_of_eq (by rw [h.steps along m mem, h.steps along n mem'])
  settles := h.settles fatal
  blames := fun along m mem _ e failed => by
    rw [h.steps along m mem, h.names along m mem e failed]

/-- A part of an optional step, when its failure is measured and passed over. -/
theorem Stays.bestEffort_disciplined {step : Step} {c : Course PublishError α}
    (h : Stays step c) (optional : step.isOptional = true) :
    Disciplined step.rank step.rank (bestEffort step c) := by
  have steps : ∀ {trail r}, bestEffort step c trail r → ∀ m ∈ trail, m.step = step := by
    rintro _ _ (⟨a, along, rfl⟩ | ⟨e, before, along, rfl, rfl⟩) m mem
    · exact h.steps along m mem
    · rcases List.mem_append.mp mem with mem | mem
      · exact h.steps along m mem
      · rw [List.mem_singleton.mp mem]
  refine ⟨fun along m mem => by simp [steps along m mem], fun along => ?_, fun along => ?_,
    fun along m mem fatal => ?_⟩
  · refine List.pairwise_of_forall_mem_list fun m mem n mem' => ?_
    exact Nat.le_of_eq (by rw [steps along m mem, steps along n mem'])
  · obtain ⟨a?, rfl⟩ := bestEffort_ok along
    exact fun m mem => .inl ((steps along m mem).symm ▸ optional)
  · rw [steps along m mem, optional] at fatal
    cases fatal

theorem Disciplined.each {place : Nat} {c : α → Course PublishError β}
    (h : ∀ a, Disciplined place place (c a)) : ∀ as, Disciplined place place (each c as)
  | [] => disciplined_pure ..
  | a :: rest =>
    (h a).bind (fun _ => (Disciplined.each h rest).bind (fun _ => disciplined_pure place place _)
      (by simp)) (by simp)

/-- A course leaves no mark of a step that is not between its places. -/
theorem Disciplined.ofStep_eq_nil {low high : Nat} {c : Course PublishError α}
    (h : Disciplined low high c) (step : Step) (apart : step.rank < low ∨ high < step.rank)
    {trail : Trail PublishError} {r : Except PublishError α} (along : c trail r) :
    trail.ofStep step = [] := by
  refine Trail.ofStep_eq_nil fun m mem same => ?_
  have := h.bounds along m mem
  rw [same] at this
  omega

/-- All marks of a course in the place of one step are marks of that step. -/
theorem Disciplined.ofStep_eq_self {c : Course PublishError α} (step : Step)
    (h : Disciplined step.rank step.rank c) {trail : Trail PublishError}
    {r : Except PublishError α} (along : c trail r) : trail.ofStep step = trail := by
  refine Trail.ofStep_eq_self fun m mem => Step.eq_of_rank_eq ?_
  have := h.bounds along m mem
  omega

/-! ### The whole publication -/

theorem preparation_disciplined (network : Network) (request : PublishRequest) :
    Disciplined 1 3 (preparation network request) := by
  refine ((names_authentication _).disciplined rfl).bind (fun _ => ?_)
    (by decide : 1 ≤ 1 ∧ 1 ≤ 2 ∧ 2 ≤ 3)
  refine ((names_loading ..).disciplined rfl).bind (fun _ => ?_)
    (by decide : 2 ≤ 2 ∧ 2 ≤ 3 ∧ 3 ≤ 3)
  exact (((stays_classification ..).named .classification fun _ => rfl).disciplined rfl).bind
    (fun _ => disciplined_pure 3 3 _) (by decide)

theorem itemUpload_disciplined (rightsHolder : String) (item : FoundItem) :
    Disciplined 4 4 (itemUpload rightsHolder item) :=
  ((stays_storedUpload ..).bestEffort_disciplined rfl).bind (fun _ => disciplined_pure 4 4 _)
    (by decide)

theorem memberUploads_disciplined (config : Config) (request : PublishRequest)
    (prepared : Prepared) : Disciplined 4 7 (memberUploads config request prepared) := by
  refine (Disciplined.each (itemUpload_disciplined _) _).bind (fun _ => ?_)
    (by decide : 4 ≤ 4 ∧ 4 ≤ 5 ∧ 5 ≤ 7)
  refine ((names_packageInfoUpload ..).disciplined rfl).bind (fun _ => ?_)
    (by decide : 5 ≤ 5 ∧ 5 ≤ 6 ∧ 6 ≤ 7)
  refine ((stays_licenseUpload ..).bestEffort_disciplined rfl).bind (fun _ => ?_)
    (by decide : 6 ≤ 6 ∧ 6 ≤ 7 ∧ 7 ≤ 7)
  exact ((stays_environmentUpload ..).bestEffort_disciplined rfl).bind
    (fun _ => disciplined_pure 7 7 _) (by decide)

theorem assembly_disciplined (config : Config) (request : PublishRequest) :
    Disciplined 0 8 (assembly config request) := by
  refine (((stays_ask ..).named .config fun _ => rfl).disciplined rfl).bind (fun _ => ?_)
    (by decide : 0 ≤ 0 ∧ 0 ≤ 1 ∧ 1 ≤ 8)
  refine (preparation_disciplined ..).bind (fun _ => ?_) (by decide : 1 ≤ 3 ∧ 3 ≤ 4 ∧ 4 ≤ 8)
  refine (memberUploads_disciplined ..).bind (fun _ => ?_) (by decide : 4 ≤ 7 ∧ 7 ≤ 8 ∧ 8 ≤ 8)
  exact ((names_recordUpload ..).disciplined rfl).bind (fun _ => disciplined_pure 8 8 _) (by decide)

theorem mapping_disciplined (network : Network) (prepared : Prepared) (members : Members)
    (metadataPid : Pid) : Disciplined 9 9 (mapping network prepared members metadataPid) := by
  refine ((names_drawPid .resourceMap).disciplined rfl).bind (fun _ => ?_)
    (by decide : 9 ≤ 9 ∧ 9 ≤ 9 ∧ 9 ≤ 9)
  exact ((names_mapUpload ..).disciplined rfl).bind (fun _ => disciplined_pure 9 9 _) (by decide)

/-- A publication goes through its steps in order, and ends at the first failure of a
step that is not optional. -/
theorem publication_disciplined (config : Config) (request : PublishRequest) :
    Disciplined 0 9 (publication config request) := by
  rw [publication_eq]
  exact (assembly_disciplined config request).bind (fun _ => mapping_disciplined ..) (by decide)

/-- A license that is not offered ends a publication before anything happens. -/
theorem publication_unlicensed {config : Config} {request : PublishRequest}
    {trail : Trail PublishError} {r : Except PublishError PublishReport} {e : ConfigError}
    (along : publication config request trail r)
    (unlicensed : Config.license request.licenseId = .error e) :
    r = .error (.config e) ∧ trail.happenings = [] := by
  rcases along with ⟨e', along, rfl⟩ | ⟨license, before, after, -, along, -⟩
  · obtain ⟨trail₀, e₀, checked, rfl, rfl⟩ := rename_error.mp along
    obtain ⟨rfl, failed⟩ := check_iff.mp checked
    cases failed.trans unlicensed
    exact ⟨rfl, rfl⟩
  · obtain ⟨trail₀, checked, -⟩ := rename_ok.mp along
    obtain ⟨-, passed⟩ := check_iff.mp checked
    cases passed.trans unlicensed

end Deposit.Course

namespace Deposit.World

variable (w : World)

/-- What a publication does is a trail of its course, with its steps in their order.

It fails if and only if a mark of a step that is not optional does. That mark is the
last one, and its step is the step that the failure names. A failed mark of an optional
step ends nothing, and a license that is not offered ends the publication before
anything happens. -/
theorem publish_stops_at_fatal_failure (config : Config) (request : PublishRequest)
    (s : Session) :
    ∃ trail seconds result s', w.publish config request s = (result, s') ∧
      s' = s.extend (trail.happenings ++ [.measured (.publication (outcome result) seconds)]) ∧
      Course.publication config request trail result ∧
      (trail.Pairwise fun m n => m.step.rank ≤ n.step.rank) ∧
      ((∃ e, result = .error e) ↔
        ∃ m ∈ trail, m.step.isOptional = false ∧ m.failure.isSome = true) ∧
      (∀ before m after e, trail = before ++ m :: after → m.step.isOptional = false →
        m.failure = some e → after = [] ∧ result = .error e ∧ e.step = m.step) ∧
      (∀ e, result = .error e → e.step.isOptional = false) ∧
      ∀ e, Config.license request.licenseId = .error e →
        result = .error (.config e) ∧ trail.happenings = [] := by
  obtain ⟨trail, seconds, result, s', published, along, moved⟩ := w.publish_trail config request s
  have discipline := Course.publication_disciplined config request
  have settled := discipline.settles along
  -- The mark that a failure comes from.
  have failing : ∀ e, result = .error e →
      ∃ m ∈ trail, m.step.isOptional = false ∧ m.failure = some e := by
    rintro e rfl
    obtain ⟨before, last, rfl, fatal, lastFailed, -⟩ := settled
    exact ⟨last, by simp, fatal, lastFailed⟩
  refine ⟨trail, seconds, result, s', published, moved, along, discipline.ordered along,
    ?_, ?_, ?_, fun e => Course.publication_unlicensed along⟩
  · constructor
    · rintro ⟨e, failed⟩
      obtain ⟨m, mem, fatal, lastFailed⟩ := failing e failed
      exact ⟨m, mem, fatal, by simp [lastFailed]⟩
    · rintro ⟨m, mem, fatal, failed⟩
      obtain ⟨e, failed⟩ := Option.isSome_iff_exists.mp failed
      obtain ⟨before, after, rfl⟩ := List.append_of_mem mem
      exact ⟨e, (settled.of_failed fatal failed).2⟩
  · rintro before m after e rfl fatal failed
    obtain ⟨rfl, ended⟩ := settled.of_failed fatal failed
    exact ⟨rfl, ended, discipline.blames along m (by simp) fatal e failed⟩
  · intro e failed
    obtain ⟨m, mem, fatal, lastFailed⟩ := failing e failed
    rw [discipline.blames along m mem fatal e lastFailed]
    exact fatal

end Deposit.World
