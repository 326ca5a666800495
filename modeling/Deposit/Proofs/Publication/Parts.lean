import Deposit.Proofs.Publication.Accounts

/-!
The parts of a publication that succeeds.

Steps do not mix, so the marks of a step are the trail of the course of its part. What a
successful publication did is thus known step by step (`Course.Parts`): which course each part
followed, with which result, and what the report makes of the results.

* `publication_parts`: a publication that succeeds has such parts.
* `storedUploads_marks`: each file of the storage has marks of its own.
* `Parts.pids_drawn`, `Parts.objectPids_eq`: the members have identifiers that were drawn, so
  the report has all of them, unless a blank one was drawn.
-/

namespace Deposit.Course

variable {config : Config} {request : PublishRequest} {trail : Trail PublishError}

/-! ### Parts by step -/

/-- The parts of a publication up to its resource map, step by step. -/
structure Parts (config : Config) (request : PublishRequest) (trail : Trail PublishError)
    (prepared : Prepared) (members : Members) (metadataPid : Pid) : Prop where
  preparation : ∃ preparing,
    preparation config.effectiveNetwork request preparing (.ok prepared) ∧
      ∀ event ∈ preparing.journal, event ∈ trail.journal
  stored : each (itemUpload prepared.rightsHolder) prepared.classified.stored
    (trail.ofStep .localObjects) (.ok members.stored)
  packageInfo : packageInfoUpload request prepared (trail.ofStep .packageInfo)
    (.ok members.packageInfo)
  license : bestEffort .license
    (licenseUpload config.licenseDirectory request.licenseId prepared.rightsHolder)
    (trail.ofStep .license) (.ok members.license)
  environment : bestEffort .environment (environmentUpload prepared.tale prepared.rightsHolder)
    (trail.ofStep .environment) (.ok members.environment)
  record : recordUpload request prepared members (trail.ofStep .descriptiveRecord)
    (.ok metadataPid)

/-- What was assembled was assembled of such parts. -/
theorem assembly_parts {prepared : Prepared} {members : Members} {metadataPid : Pid}
    (along : assembly config request trail (.ok (prepared, members, metadataPid))) :
    Parts config request trail prepared members metadataPid := by
  obtain ⟨_, licensed, _, rfl, h₁, rest₁⟩ := bind_ok.mp along
  obtain ⟨_, preparing, _, rfl, h₂, rest₂⟩ := bind_ok.mp rest₁
  obtain ⟨_, uploading, _, rfl, h₃, rest₃⟩ := bind_ok.mp rest₂
  obtain ⟨_, recording, _, rfl, h₄, rfl, same⟩ := bind_ok.mp rest₃
  cases same
  obtain ⟨stored, info, license, environment, rfl, u₁, u₂, u₃, u₄⟩ := memberUploads_ok h₃
  -- Each part is in its own place, so it has no mark of another step, and of its own step all.
  have d₁ : Disciplined 0 0
      (rename PublishError.config (check .configure (Config.license request.licenseId))) :=
    ((stays_ask ..).named .config fun _ => rfl).disciplined rfl
  have d₂ := preparation_disciplined config.effectiveNetwork request
  have d₃ := Disciplined.each (itemUpload_disciplined prepared.rightsHolder)
    prepared.classified.stored
  have d₄ := (names_packageInfoUpload request prepared).disciplined rfl
  have d₅ := (stays_licenseUpload config.licenseDirectory request.licenseId
    prepared.rightsHolder).bestEffort_disciplined rfl
  have d₆ := (stays_environmentUpload prepared.tale prepared.rightsHolder).bestEffort_disciplined
    rfl
  have d₇ := (names_recordUpload request prepared members).disciplined rfl
  have n₁ := fun step apart => d₁.ofStep_eq_nil step apart h₁
  have n₂ := fun step apart => d₂.ofStep_eq_nil step apart h₂
  have n₃ := fun step apart => d₃.ofStep_eq_nil step apart u₁
  have n₄ := fun step apart => d₄.ofStep_eq_nil step apart u₂
  have n₅ := fun step apart => d₅.ofStep_eq_nil step apart u₃
  have n₆ := fun step apart => d₆.ofStep_eq_nil step apart u₄
  have n₇ := fun step apart => d₇.ofStep_eq_nil step apart h₄
  have s₃ := Disciplined.ofStep_eq_self .localObjects d₃ u₁
  have s₄ := d₄.ofStep_eq_self .packageInfo u₂
  have s₅ := d₅.ofStep_eq_self .license u₃
  have s₆ := d₆.ofStep_eq_self .environment u₄
  have s₇ := d₇.ofStep_eq_self .descriptiveRecord h₄
  refine ⟨⟨preparing, h₂, fun event mem => by simp [mem]⟩, ?_, ?_, ?_, ?_, ?_⟩
  all_goals
    simp (disch := decide) only [Trail.ofStep_append, n₁, n₂, n₃, n₄, n₅, n₆, n₇, s₃, s₄, s₅,
      s₆, s₇, List.nil_append, List.append_nil]
    assumption

/-- Marks behind the parts are none of theirs. -/
theorem Parts.append {prepared : Prepared} {members : Members} {metadataPid : Pid}
    (parts : Parts config request trail prepared members metadataPid)
    {later : Trail PublishError} (behind : ∀ step, step.rank < 9 → later.ofStep step = []) :
    Parts config request (trail ++ later) prepared members metadataPid := by
  have same : ∀ step, step.rank < 9 → (trail ++ later).ofStep step = trail.ofStep step := by
    intro step early
    rw [Trail.ofStep_append, behind step early, List.append_nil]
  obtain ⟨preparing, prepares, within⟩ := parts.preparation
  refine ⟨⟨preparing, prepares, fun event mem => by simp [within event mem]⟩, ?_, ?_, ?_, ?_, ?_⟩
  · rw [same .localObjects (by decide)]
    exact parts.stored
  · rw [same .packageInfo (by decide)]
    exact parts.packageInfo
  · rw [same .license (by decide)]
    exact parts.license
  · rw [same .environment (by decide)]
    exact parts.environment
  · rw [same .descriptiveRecord (by decide)]
    exact parts.record

/-- A publication that succeeds has parts, and its report is on them. The repository has the
members, the descriptive record and the map. -/
theorem publication_parts {report : PublishReport}
    (along : publication config request trail (.ok report)) :
    ∃ prepared members, Parts config request trail prepared members report.metadataPid ∧
      report = reportOf config.effectiveNetwork members report.metadataPid
        (.ofObjects report.resourceMapPid report.metadataPid members.pids) ∧
      trail.Credits
        (members.pids.filterMap id ++ [report.metadataPid] ++ [report.resourceMapPid]) := by
  rw [publication_eq] at along
  obtain ⟨⟨prepared, members, metadataPid⟩, earlier, last, rfl, assembled, mapped⟩ :=
    bind_ok.mp along
  have behind : ∀ step, step.rank < 9 → last.ofStep step = [] := fun step early =>
    (mapping_disciplined ..).ofStep_eq_nil step (.inl early) mapped
  have credits := (assembly_credits assembled).append (mapping_credits mapped)
  obtain ⟨map, call, answer, failure, named, -, -, success⟩ := mapping_marks mapped
  obtain ⟨-, rfl⟩ := success report rfl
  refine ⟨prepared, members, (assembly_parts assembled).append behind, ?_, credits⟩
  show reportOf config.effectiveNetwork members metadataPid map =
    reportOf config.effectiveNetwork members metadataPid
      (.ofObjects map.pid metadataPid members.pids)
  rw [← named]

/-! ### Files of the storage -/

/-- Each file of the storage is uploaded in a part of the trail, and those without an
identifier are those that the repository took no object for. -/
theorem storedUploads_marks {rightsHolder : String} {files : List FoundItem}
    {trail : Trail PublishError} {outcomes : List StoredOutcome}
    (along : each (itemUpload rightsHolder) files trail (.ok outcomes)) :
    ∃ uploads : List (FoundItem × Trail PublishError), uploads.map (·.1) = files ∧
      (uploads.map (·.2)).flatten = trail ∧
      (∀ upload ∈ uploads, ∃ outcome,
        itemUpload rightsHolder upload.1 upload.2 (.ok outcome) ∧
          upload.2.acceptedPids = outcome.pid.toList) ∧
      (uploads.filter (·.2.acceptedPids.isEmpty)).map (·.1) =
        (outcomes.filter (·.pid.isNone)).map (·.item) := by
  induction files generalizing trail outcomes with
  | nil =>
      obtain ⟨rfl, same⟩ := each_nil.mp along
      cases same
      exact ⟨[], rfl, rfl, by simp, rfl⟩
  | cons file rest ih =>
      obtain ⟨outcome, outcomes, part, after, rfl, rfl, first, then_⟩ := each_cons_ok.mp along
      obtain ⟨uploads, rfl, rfl, each, failed⟩ := ih then_
      obtain ⟨pid?, attempt, _, rfl, attempted, rfl, same⟩ := bind_ok.mp first
      cases same
      have credits := (delivers_storedUpload file.file rightsHolder).bestEffort_credits attempted
      have taken : (attempt ++ []).acceptedPids = pid?.toList := by
        simpa using credits.accepted
      refine ⟨(file, attempt ++ []) :: uploads, rfl, rfl,
        List.forall_mem_cons.mpr ⟨⟨_, first, taken⟩, each⟩, ?_⟩
      cases pid? <;> simp_all

/-! ### Identifiers -/

namespace Parts

variable {prepared : Prepared} {members : Members} {metadataPid : Pid}

/-- The repository takes the files of the storage that have an identifier. -/
theorem stored_credits (parts : Parts config request trail prepared members metadataPid) :
    (trail.ofStep .localObjects).Credits (members.stored.filterMap (·.pid)) :=
  (storedUploads_credits _ parts.stored).1

theorem packageInfo_credits (parts : Parts config request trail prepared members metadataPid) :
    (trail.ofStep .packageInfo).Credits [members.packageInfo.pid] :=
  (delivers_packageInfoUpload ..).credits parts.packageInfo

/-- The repository takes the license if it is a member. -/
theorem license_credits (parts : Parts config request trail prepared members metadataPid) :
    (trail.ofStep .license).Credits (members.license.map Member.pid).toList :=
  (delivers_licenseUpload ..).bestEffort_credits parts.license

/-- The repository takes the environment if it is a member. -/
theorem environment_credits (parts : Parts config request trail prepared members metadataPid) :
    (trail.ofStep .environment).Credits (members.environment.map Member.pid).toList :=
  (delivers_environmentUpload ..).bestEffort_credits parts.environment

/-- The identifiers of the members were drawn. -/
theorem pids_drawn (parts : Parts config request trail prepared members metadataPid) :
    ∀ pid ∈ members.pids.filterMap id, pid ∈ trail.drawn := by
  have drawn : ∀ {step pids}, (trail.ofStep step).Credits pids →
      ∀ pid ∈ pids, pid ∈ trail.drawn := fun credits pid mem =>
    (Trail.drawn_ofStep_sublist _ trail).subset (credits.drawn.subset mem)
  intro pid mem
  rw [Members.filterMap_pids] at mem
  rcases List.mem_append.mp mem with mem | mem
  · exact drawn parts.stored_credits pid mem
  rcases List.mem_append.mp mem with mem | mem
  · exact drawn parts.packageInfo_credits pid mem
  rcases List.mem_append.mp mem with mem | mem
  · exact drawn parts.license_credits pid mem
  · exact drawn parts.environment_credits pid mem

/-- Unless a blank identifier was drawn, the map names all members that have one. -/
theorem objectPids_eq (parts : Parts config request trail prepared members metadataPid)
    (visible : ∀ pid ∈ trail.drawn, pid.isBlank = false) (mapPid : Pid) :
    (ResourceMap.ofObjects mapPid metadataPid members.pids).objectPids =
      members.pids.filterMap id :=
  List.filter_eq_self.mpr fun pid mem => by simp [visible pid (parts.pids_drawn pid mem)]

end Parts

end Deposit.Course
