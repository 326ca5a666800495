import Deposit.Proofs.Publication.Discipline
import Deposit.Proofs.Publication.Marks

/-!
The accounts of a publication: what the repository takes, and what the parts of the
publication say that it took.

A *quiet* course leaves nothing in the repository (`Course.Quiet`). A course *delivers*
one object if the repository takes that object and no other, or nothing at all when the
course fails (`Course.Delivers`). A trail *credits* a list of identifiers if these are
the objects that the repository takes along it, each of them drawn there
(`Trail.Credits`). The course of the members credits the identifiers of its result, and
the course up to the map credits those of the members and of the descriptive record.

* `memberUploads_credits`, `assembly_credits`: list and repository stay in step.
* `publish_map_matches_repository`: what that says of a publication in any world.
-/

namespace Deposit

/-- Along a trail, the repository takes the objects with some identifiers, and these
were drawn in their order. -/
structure Trail.Credits {ε : Type} (trail : Trail ε) (pids : List Pid) : Prop where
  accepted : trail.acceptedPids = pids
  drawn : pids.Sublist trail.drawn

theorem Trail.credits_nil {ε : Type} : Credits ([] : Trail ε) [] := ⟨rfl, .slnil⟩

theorem Trail.Credits.append {ε : Type} {before after : Trail ε} {pids pids' : List Pid}
    (h : before.Credits pids) (h' : after.Credits pids') :
    Credits (before ++ after) (pids ++ pids') where
  accepted := by rw [acceptedPids_append, h.accepted, h'.accepted]
  drawn := by
    rw [drawn_append]
    exact h.drawn.append h'.drawn

/-- The identifiers of the members that have one. -/
theorem Members.filterMap_pids (members : Members) :
    members.pids.filterMap id = members.stored.filterMap (·.pid) ++
      ([members.packageInfo.pid] ++ ((members.license.map Member.pid).toList ++
        (members.environment.map Member.pid).toList)) := by
  simp only [Members.pids, List.filterMap_append, List.filterMap_map]
  cases members.license <;> cases members.environment <;> rfl

namespace Course

variable {ε ε' α β σ : Type}

/-! ### Quiet courses -/

/-- The repository takes nothing along a course. -/
structure Quiet (c : Course ε α) : Prop where
  accepted : ∀ {trail r}, c trail r → trail.acceptedPids = []

/-- Where nothing is given to the repository, it takes nothing. -/
theorem Marked.quiet {c : Course ε α} (h : Silent c) : Quiet c where
  accepted := by
    intro trail r along
    have silent := h.marks along
    clear along
    induction trail with
    | nil => rfl
    | cons m rest ih =>
        obtain ⟨here, there⟩ := List.forall_mem_cons.mp silent
        have taken : Journal.accepted (m.happenings.filterMap Happening.event?) = [] :=
          List.sublist_nil.mp (here.uncalled ▸ Journal.accepted_sublist _)
        have later := ih there
        simp only [Trail.acceptedPids, Journal.acceptedPids, List.map_eq_nil_iff] at later ⊢
        rw [Trail.journal_cons, Journal.accepted_append, taken, later]
        rfl

/-! ### Courses that deliver one object -/

/-- The repository takes one object along a course, or none if the course fails. The
identifier of the object is drawn on the way, or is one of the course's own. -/
structure Delivers (own : List Pid) (pidOf : α → Pid) (c : Course ε α) : Prop where
  taken : ∀ {trail a}, c trail (.ok a) → trail.acceptedPids = [pidOf a]
  source : ∀ {trail a}, c trail (.ok a) → pidOf a ∈ own ++ trail.drawn
  refused : ∀ {trail e}, c trail (.error e) → trail.acceptedPids = []

theorem delivers_upload (step : Step) (pid : Pid) (content : Bytes)
    (metadata : SystemMetadata) : Delivers [pid] id (upload step ⟨pid, content, metadata⟩) where
  taken := by
    rintro _ _ ⟨answer, rfl, same⟩
    cases answer with
    | error e => cases same
    | ok _ =>
        cases same
        rfl
  source := by
    rintro _ _ ⟨answer, rfl, same⟩
    cases answer with
    | error e => cases same
    | ok _ =>
        cases same
        exact List.mem_cons_self
  refused := by
    rintro _ e ⟨answer, rfl, same⟩
    cases answer with
    | error e => rfl
    | ok _ => cases same

theorem Delivers.rename {own : List Pid} {pidOf : α → Pid} {c : Course ε α} (f : ε → ε')
    (h : Delivers own pidOf c) : Delivers own pidOf (c.rename f) where
  taken := by
    intro _ a along
    obtain ⟨trail, along₀, rfl⟩ := rename_ok.mp along
    simpa using h.taken along₀
  source := by
    intro _ a along
    obtain ⟨trail, along₀, rfl⟩ := rename_ok.mp along
    simpa using h.source along₀
  refused := by
    intro _ e along
    obtain ⟨trail, e₀, along₀, rfl, rfl⟩ := rename_error.mp along
    simpa using h.refused along₀

/-- Quiet preparation in front of a delivery. -/
theorem Quiet.delivers {own : List Pid} {pidOf : β → Pid} {c : Course ε α}
    {next : α → Course ε β} (h : Quiet c) (rest : ∀ a, Delivers own pidOf (next a)) :
    Delivers own pidOf (c >>= next) where
  taken := by
    intro _ b along
    obtain ⟨a, before, after, rfl, first, then_⟩ := bind_ok.mp along
    simpa [h.accepted first] using (rest a).taken then_
  source := by
    intro _ b along
    obtain ⟨a, before, after, rfl, -, then_⟩ := bind_ok.mp along
    have := (rest a).source then_
    simp only [Trail.drawn_append, List.mem_append] at this ⊢
    exact this.imp_right .inr
  refused := by
    intro _ e along
    rcases bind_error.mp along with first | ⟨a, before, after, rfl, first, then_⟩
    · exact h.accepted first
    · simpa [h.accepted first] using (rest a).refused then_

/-- The result of a delivery in another form. -/
theorem Delivers.map {own : List Pid} {pidOf : α → Pid} {pidOf' : β → Pid} {c : Course ε α}
    {g : α → β} (h : Delivers own pidOf c) (same : ∀ a, pidOf' (g a) = pidOf a) :
    Delivers own pidOf' (c >>= fun a => pure (g a)) where
  taken := by
    intro _ b along
    obtain ⟨a, before, _, rfl, first, rfl, given⟩ := bind_ok.mp along
    cases given
    simpa [same] using h.taken first
  source := by
    intro _ b along
    obtain ⟨a, before, _, rfl, first, rfl, given⟩ := bind_ok.mp along
    cases given
    simpa [same] using h.source first
  refused := by
    intro _ e along
    rcases bind_error.mp along with first | ⟨a, before, _, rfl, -, -, given⟩
    · exact h.refused first
    · cases given

/-- A delivery under an identifier that is drawn for it. -/
theorem delivers_drawPid (step : Step) {pidOf : α → Pid} {next : Pid → Course ε α}
    (h : ∀ pid, Delivers [pid] pidOf (next pid)) :
    Delivers [] pidOf (drawPid step >>= next) where
  taken := by
    intro _ a along
    obtain ⟨pid, _, after, rfl, ⟨pid', rfl, same⟩, then_⟩ := bind_ok.mp along
    cases same
    show after.acceptedPids = [pidOf a]
    exact (h pid).taken then_
  source := by
    intro _ a along
    obtain ⟨pid, _, after, rfl, ⟨pid', rfl, same⟩, then_⟩ := bind_ok.mp along
    cases same
    exact (h pid).source then_
  refused := by
    intro _ e along
    rcases bind_error.mp along with ⟨pid, -, given⟩ |
      ⟨pid, _, after, rfl, ⟨pid', rfl, same⟩, then_⟩
    · cases given
    · cases same
      show after.acceptedPids = []
      exact (h pid).refused then_

/-- A delivery credits its object. -/
theorem Delivers.credits {pidOf : α → Pid} {c : Course ε α} (h : Delivers [] pidOf c)
    {trail : Trail ε} {a : α} (along : c trail (.ok a)) : trail.Credits [pidOf a] where
  accepted := h.taken along
  drawn := List.singleton_sublist.mpr (h.source along)

/-- An optional delivery credits what there is of it. -/
theorem Delivers.bestEffort_credits {step : Step} {pidOf : α → Pid}
    {c : Course PublishError α} (h : Delivers [] pidOf c) {trail : Trail PublishError}
    {a? : Option α} (along : bestEffort step c trail (.ok a?)) :
    trail.Credits (a?.map pidOf).toList := by
  rcases along with ⟨a, along, same⟩ | ⟨e, before, along, same, rfl⟩
  · cases same
    exact h.credits along
  · cases same
    refine ⟨?_, List.nil_sublist _⟩
    rw [Trail.acceptedPids_append, h.refused along]
    rfl

/-! ### The parts of a publication -/

theorem delivers_generatedUpload (step : Step) (file : GeneratedFile) (pid : Pid)
    (content : Bytes) (rightsHolder : String) :
    Delivers [pid] Member.pid (generatedUpload step file pid content rightsHolder) := by
  refine ((delivers_upload ..).rename _).map ?_
  exact fun _ => rfl

theorem delivers_storedUpload (file : FileObject) (rightsHolder : String) :
    Delivers [] id (storedUpload file rightsHolder) :=
  ((silent_scratch _).rename _).quiet.delivers fun _ =>
    ((silent_download ..).rename _).quiet.delivers fun _ =>
      delivers_drawPid _ fun _ => ((silent_check ..).rename _).quiet.delivers fun _ =>
        ((silent_check ..).rename _).quiet.delivers fun _ =>
          ((silent_check ..).rename _).quiet.delivers fun _ => (delivers_upload ..).rename _

theorem delivers_packageInfoUpload (request : PublishRequest) (prepared : Prepared) :
    Delivers [] Member.pid (packageInfoUpload request prepared) :=
  ((silent_paths ..).rename _).quiet.delivers fun _ =>
    ((silent_externalFiles ..).rename _).quiet.delivers fun _ =>
      ((silent_check ..).rename _).quiet.delivers fun _ =>
        delivers_drawPid _ fun _ => delivers_generatedUpload ..

theorem delivers_licenseUpload (directory licenseId rightsHolder : String) :
    Delivers [] Member.pid (licenseUpload directory licenseId rightsHolder) :=
  ((silent_check ..).rename _).quiet.delivers fun _ =>
    ((silent_licenseText ..).rename _).quiet.delivers fun _ =>
      delivers_drawPid _ fun _ => delivers_generatedUpload ..

theorem delivers_environmentUpload (tale : Tale) (rightsHolder : String) :
    Delivers [] Member.pid (environmentUpload tale rightsHolder) :=
  ((silent_archiveUrl ..).rename _).quiet.delivers fun _ =>
    ((silent_scratch _).rename _).quiet.delivers fun _ =>
      ((silent_fetch ..).rename _).quiet.delivers fun _ =>
        delivers_drawPid _ fun _ => ((silent_check ..).rename _).quiet.delivers fun _ =>
          delivers_generatedUpload ..

theorem delivers_recordUpload (request : PublishRequest) (prepared : Prepared)
    (members : Members) : Delivers [] id (recordUpload request prepared members) :=
  ((Marked.each (silent_objectEntry _) _).rename _).quiet.delivers fun _ =>
    delivers_drawPid _ fun _ => ((silent_check ..).rename _).quiet.delivers fun _ =>
      (delivers_upload ..).rename _

/-! ### The members -/

/-- The files of the storage: an outcome for each, and the repository has those that
have an identifier. -/
theorem storedUploads_credits (rightsHolder : String) {files : List FoundItem}
    {trail : Trail PublishError} {outcomes : List StoredOutcome}
    (along : each (itemUpload rightsHolder) files trail (.ok outcomes)) :
    trail.Credits (outcomes.filterMap (·.pid)) ∧ outcomes.map (·.item) = files := by
  induction files generalizing trail outcomes with
  | nil =>
      obtain ⟨rfl, same⟩ := each_nil.mp along
      cases same
      exact ⟨Trail.credits_nil, rfl⟩
  | cons file rest ih =>
      obtain ⟨outcome, outcomes, before, after, rfl, rfl, first, then_⟩ := each_cons_ok.mp along
      obtain ⟨pid, _, _, rfl, attempted, rfl, same⟩ := bind_ok.mp first
      cases same
      obtain ⟨credits, items⟩ := ih then_
      refine ⟨?_, by simp [items]⟩
      have here := (delivers_storedUpload file.file rightsHolder).bestEffort_credits attempted
      cases pid with
      | none => simpa using here.append credits
      | some pid => simpa using here.append credits

/-- The members, one after the other. -/
theorem memberUploads_ok {config : Config} {request : PublishRequest} {prepared : Prepared}
    {trail : Trail PublishError} {members : Members}
    (along : memberUploads config request prepared trail (.ok members)) :
    ∃ stored info license environment, trail = stored ++ (info ++ (license ++ environment)) ∧
      each (itemUpload prepared.rightsHolder) prepared.classified.stored stored
        (.ok members.stored) ∧
      packageInfoUpload request prepared info (.ok members.packageInfo) ∧
      bestEffort .license (licenseUpload config.licenseDirectory request.licenseId
        prepared.rightsHolder) license (.ok members.license) ∧
      bestEffort .environment (environmentUpload prepared.tale prepared.rightsHolder)
        environment (.ok members.environment) := by
  obtain ⟨outcomes, stored, _, rfl, h₁, along⟩ := bind_ok.mp along
  obtain ⟨packageInfo, info, _, rfl, h₂, along⟩ := bind_ok.mp along
  obtain ⟨license?, license, _, rfl, h₃, along⟩ := bind_ok.mp along
  obtain ⟨environment?, environment, _, rfl, h₄, rfl, same⟩ := bind_ok.mp along
  cases same
  exact ⟨stored, info, license, environment, by simp, h₁, h₂, h₃, h₄⟩

/-- The repository has the members that have an identifier, and nothing else. -/
theorem memberUploads_credits {config : Config} {request : PublishRequest}
    {prepared : Prepared} {trail : Trail PublishError} {members : Members}
    (along : memberUploads config request prepared trail (.ok members)) :
    trail.Credits (members.pids.filterMap id) := by
  obtain ⟨stored, info, license, environment, rfl, h₁, h₂, h₃, h₄⟩ := memberUploads_ok along
  have credits := (storedUploads_credits _ h₁).1.append
    (((delivers_packageInfoUpload ..).credits h₂).append
      (((delivers_licenseUpload ..).bestEffort_credits h₃).append
        ((delivers_environmentUpload ..).bestEffort_credits h₄)))
  rwa [Members.filterMap_pids]

/-! ### The resource map -/

/-- No step of the assembly is the resource map. -/
theorem assembly_step {config : Config} {request : PublishRequest} {trail : Trail PublishError}
    {r : Except PublishError (Prepared × Members × Pid)} (along : assembly config request trail r)
    {m : Mark PublishError} (mem : m ∈ trail) : m.step ≠ .resourceMap := by
  intro step
  have := ((assembly_disciplined config request).bounds along m mem).2
  rw [step] at this
  exact absurd this (by decide)

/-- Up to the map, the repository has the members and the descriptive record. -/
theorem assembly_credits {config : Config} {request : PublishRequest}
    {trail : Trail PublishError} {prepared : Prepared} {members : Members} {metadataPid : Pid}
    (along : assembly config request trail (.ok (prepared, members, metadataPid))) :
    trail.Credits (members.pids.filterMap id ++ [metadataPid]) := by
  obtain ⟨_, licensed, _, rfl, h₁, along⟩ := bind_ok.mp along
  obtain ⟨_, preparing, _, rfl, h₂, along⟩ := bind_ok.mp along
  obtain ⟨_, uploading, _, rfl, h₃, along⟩ := bind_ok.mp along
  obtain ⟨_, recording, _, rfl, h₄, rfl, same⟩ := bind_ok.mp along
  cases same
  have nothing : licensed.acceptedPids = [] := ((silent_check ..).rename _).quiet.accepted h₁
  have nothing' : preparing.acceptedPids = [] := (silent_preparation ..).quiet.accepted h₂
  have credits := (memberUploads_credits h₃).append ((delivers_recordUpload ..).credits h₄)
  constructor
  · simpa [nothing, nothing'] using credits.accepted
  · have := credits.drawn
    simp only [Trail.drawn_append, List.append_nil] at this ⊢
    exact (this.trans (List.sublist_append_right ..)).trans (List.sublist_append_right ..)

/-- The end of a publication draws an identifier and makes one create call, that of the
map over the members that there are. -/
theorem mapping_marks {network : Network} {prepared : Prepared} {members : Members}
    {metadataPid : Pid} {trail : Trail PublishError} {r : Except PublishError PublishReport}
    (along : mapping network prepared members metadataPid trail r) :
    ∃ map call answer failure, map = .ofObjects map.pid metadataPid members.pids ∧
      call = mapCall network map prepared.rightsHolder ∧
      trail = [⟨.resourceMap, [.drawn map.pid], none⟩,
        ⟨.resourceMap, [.called (.created call answer),
          .measured (uploadMeasurement call answer)], failure⟩] ∧
      ∀ report, r = .ok report →
        answer = .ok () ∧ report = reportOf network members metadataPid map := by
  rcases along with ⟨e, ⟨pid, -, given⟩, rfl⟩ |
    ⟨pid, _, _, rfl, ⟨_, rfl, same⟩, ⟨e, along, rfl⟩ | ⟨map, _, _, rfl, along, rfl, rfl⟩⟩
  · cases given
  · cases same
    obtain ⟨_, e, ⟨answer, rfl, said⟩, rfl, rfl⟩ | ⟨_, _, _, -, -, -, given⟩ :=
      (bind_error.mp along).imp_left rename_error.mp
    · exact ⟨.ofObjects pid metadataPid members.pids, _, answer, _, rfl, rfl, rfl, by simp⟩
    · cases given
  · cases same
    obtain ⟨_, _, _, rfl, uploaded, rfl, same⟩ := bind_ok.mp along
    obtain ⟨_, ⟨answer, rfl, said⟩, rfl⟩ := rename_ok.mp uploaded
    cases same
    refine ⟨.ofObjects pid metadataPid members.pids, _, answer, _, rfl, rfl, rfl, ?_⟩
    rintro report same
    cases same
    cases answer with
    | error e => cases said
    | ok _ => exact ⟨rfl, rfl⟩

/-- At the end of a publication that succeeds, the repository takes the map. -/
theorem mapping_credits {network : Network} {prepared : Prepared} {members : Members}
    {metadataPid : Pid} {trail : Trail PublishError} {report : PublishReport}
    (along : mapping network prepared members metadataPid trail (.ok report)) :
    trail.Credits [report.resourceMapPid] := by
  obtain ⟨map, call, answer, failure, -, rfl, rfl, success⟩ := mapping_marks along
  obtain ⟨rfl, rfl⟩ := success report rfl
  exact ⟨rfl, .refl _⟩

end Course

namespace World

variable (w : World)

/-- The resource map and the repository stay in step.

When the create call of the map is made, the repository has taken the descriptive
record and every object that the map names. A publication that succeeds ends with that
call. If the identifiers drawn for it are distinct and not blank, the map names every
object that the repository took, in the order of the calls, each once. -/
theorem publish_map_matches_repository (config : Config) (request : PublishRequest)
    (s : Session) :
    ∃ trail seconds result s', w.publish config request s = (result, s') ∧
      s' = s.extend (trail.happenings ++ [.measured (.publication (outcome result) seconds)]) ∧
      Course.publication config request trail result ∧
      (∀ (before : Trail PublishError) m after call answer, trail = before ++ m :: after →
        m.step = .resourceMap → .called (.created call answer) ∈ m.happenings →
          ∃ map : ResourceMap, call.pid = map.pid ∧
            call.content = map.toXml config.effectiveNetwork ∧
            ∀ pid ∈ map.metadataPid :: map.objectPids, pid ∈ before.acceptedPids) ∧
      (trail.drawn.Nodup → (∀ pid ∈ trail.drawn, pid.isBlank = false) →
        ∀ report, result = .ok report →
          trail.acceptedPids = report.objectPids ++ [report.metadataPid, report.resourceMapPid] ∧
          trail.acceptedPids.Nodup ∧
          ∃ calls call, trail.journal = calls ++ [.created call (.ok ())] ∧
            call.pid = report.resourceMapPid ∧
            call.content = ResourceMap.toXml
              ⟨report.resourceMapPid, report.metadataPid, report.objectPids⟩
              config.effectiveNetwork) := by
  obtain ⟨trail, seconds, result, s', published, along, moved⟩ := w.publish_trail config request s
  refine ⟨trail, seconds, result, s', published, moved, along, ?_⟩
  rw [Course.publication_eq] at along
  rcases along with ⟨e, along, rfl⟩ |
    ⟨⟨prepared, members, metadataPid⟩, earlier, _, rfl, along, ended⟩
  · -- The publication ended before the map.
    refine ⟨?_, fun _ _ report same => by cases same⟩
    rintro before m after call answer rfl step -
    exact absurd step (Course.assembly_step along (by simp))
  · obtain ⟨map, call, answer, failure, named, rfl, rfl, success⟩ := Course.mapping_marks ended
    have credits := Course.assembly_credits along
    constructor
    · intro before m after call' answer' split step mem
      have new : m ∉ earlier ++ [⟨.resourceMap, [.drawn map.pid], none⟩] := by
        intro old
        rcases List.mem_append.mp old with old | old
        · exact Course.assembly_step along old step
        · rw [List.mem_singleton.mp old] at mem
          simp at mem
      obtain ⟨rfl, rfl, rfl⟩ := Trail.eq_last_of_not_mem (by simpa using split.symm) new
      obtain ⟨rfl, rfl⟩ : call' = Course.mapCall config.effectiveNetwork map
          prepared.rightsHolder ∧ answer' = answer := by simpa using mem
      refine ⟨map, rfl, rfl, fun pid mem => ?_⟩
      rw [Trail.acceptedPids_append, credits.accepted]
      rw [named] at mem
      rcases List.mem_cons.mp mem with rfl | mem
      · simp
      · have kept : pid ∈ members.pids.filterMap id := (List.mem_filter.mp mem).1
        exact List.mem_append_left _ (List.mem_append_left _ kept)
    · rintro distinct visible report rfl
      obtain ⟨rfl, rfl⟩ := success report rfl
      have credits := credits.append (Course.mapping_credits ended)
      -- Every identifier was drawn, so none of them is blank and left out of the map.
      have whole : map.objectPids = members.pids.filterMap id := by
        rw [named]
        refine List.filter_eq_self.mpr fun pid mem => ?_
        have drawn := credits.drawn.subset (List.mem_append_left _ (List.mem_append_left _ mem))
        simp [visible pid drawn]
      have metadata : map.metadataPid = metadataPid := by rw [named]; rfl
      have report : (Course.reportOf config.effectiveNetwork members metadataPid map).objectPids ++
          [metadataPid, map.pid] = members.pids.filterMap id ++ [metadataPid] ++ [map.pid] := by
        simp [Course.reportOf, whole]
      refine ⟨credits.accepted.trans report.symm, ?_, earlier.journal,
        Course.mapCall config.effectiveNetwork map prepared.rightsHolder, ?_, rfl, ?_⟩
      · rw [credits.accepted]
        exact credits.drawn.nodup distinct
      · rw [Trail.journal_append]
        rfl
      · rw [← metadata]
        rfl

end World

end Deposit
