import Deposit.Proofs.Metrics
import Deposit.Proofs.Publication.Generated

/-!
Report, repository and counters tell the same story.

Every mark of a publication is one of three: a create call with its measurement, the
measurement of a step that goes on without its object, or neither (`Happening.Measured`). So
along a trail the counters grow by what the create calls came to (`Session.Counts`), and they do
so over any sequence of publications in one session. What the report of a publication says is
read off the parts of its trail (`PublishReport.Agrees`).

* `Course.publication_measured`: the marks of a publication are measured.
* `Course.publication_agrees`: the report on a publication agrees with its trail.
* `Attempted.tallied`: one publication, in any session.
* `publishAll_tallied`: publications one after the other, each in its own world.
-/

namespace Deposit

/-! ### Measured marks -/

/-- What happens in a mark, when each create call is measured and nothing else is but a step
without its object. -/
inductive Happening.Measured : List Happening → Prop where
  | create (call : CreateCall) (answer : Except UploadError Unit) :
      Measured [.called (.created call answer),
        .measured (Course.uploadMeasurement call answer)]
  | degraded (step : String) : Measured [.measured (.degraded step)]
  | silent {happenings : List Happening} : Silent happenings → Measured happenings

namespace Course

variable {ε α : Type}

/-- All marks of a course are measured. -/
abbrev Measured (c : Course ε α) : Prop := Marked Happening.Measured c

theorem Marked.measured {c : Course ε α} (h : Silent c) : Measured c :=
  h.mono fun _ => .silent

theorem measured_upload (step : Step) (call : CreateCall) : Measured (upload step call) :=
  marked_ask fun answer => .create call answer

theorem measured_generatedUpload (step : Step) (file : GeneratedFile) (pid : Pid)
    (content : Bytes) (rightsHolder : String) :
    Measured (generatedUpload step file pid content rightsHolder) :=
  ((measured_upload ..).rename _).bind fun _ => marked_pure _

theorem measured_storedUpload (file : FileObject) (rightsHolder : String) :
    Measured (storedUpload file rightsHolder) :=
  ((silent_scratch _).rename _).measured.bind fun _ =>
    ((silent_download ..).rename _).measured.bind fun _ =>
      (silent_drawPid _).measured.bind fun _ =>
        ((silent_check ..).rename _).measured.bind fun _ =>
          ((silent_check ..).rename _).measured.bind fun _ =>
            ((silent_check ..).rename _).measured.bind fun _ => (measured_upload ..).rename _

theorem measured_packageInfoUpload (request : PublishRequest) (prepared : Prepared) :
    Measured (packageInfoUpload request prepared) :=
  ((silent_paths ..).rename _).measured.bind fun _ =>
    ((silent_externalFiles ..).rename _).measured.bind fun _ =>
      ((silent_check ..).rename _).measured.bind fun _ =>
        (silent_drawPid _).measured.bind fun _ => measured_generatedUpload ..

theorem measured_licenseUpload (directory licenseId rightsHolder : String) :
    Measured (licenseUpload directory licenseId rightsHolder) :=
  ((silent_check ..).rename _).measured.bind fun _ =>
    ((silent_licenseText ..).rename _).measured.bind fun _ =>
      (silent_drawPid _).measured.bind fun _ => measured_generatedUpload ..

theorem measured_environmentUpload (tale : Tale) (rightsHolder : String) :
    Measured (environmentUpload tale rightsHolder) :=
  ((silent_archiveUrl ..).rename _).measured.bind fun _ =>
    ((silent_scratch _).rename _).measured.bind fun _ =>
      ((silent_fetch ..).rename _).measured.bind fun _ =>
        (silent_drawPid _).measured.bind fun _ =>
          ((silent_check ..).rename _).measured.bind fun _ => measured_generatedUpload ..

theorem measured_memberUploads (config : Config) (request : PublishRequest)
    (prepared : Prepared) : Measured (memberUploads config request prepared) := by
  have stored : ∀ item, Measured (itemUpload prepared.rightsHolder item) := fun item =>
    ((measured_storedUpload ..).bestEffort (.degraded _)).bind fun _ => marked_pure _
  exact (Marked.each stored _).bind fun _ => (measured_packageInfoUpload ..).bind fun _ =>
    ((measured_licenseUpload ..).bestEffort (.degraded _)).bind fun _ =>
      ((measured_environmentUpload ..).bestEffort (.degraded _)).bind fun _ => marked_pure _

theorem measured_recordUpload (request : PublishRequest) (prepared : Prepared)
    (members : Members) : Measured (recordUpload request prepared members) :=
  ((Marked.each (silent_objectEntry _) _).rename _).measured.bind fun _ =>
    (silent_drawPid _).measured.bind fun _ =>
      ((silent_check ..).rename _).measured.bind fun _ => (measured_upload ..).rename _

/-- All marks of a publication are measured, whatever it comes to. -/
theorem publication_measured (config : Config) (request : PublishRequest) :
    Measured (publication config request) := by
  have map : ∀ network pid metadataPid objects rightsHolder,
      Measured (mapUpload network pid metadataPid objects rightsHolder) := fun _ _ _ _ _ =>
    ((measured_upload ..).rename _).bind fun _ => marked_pure _
  exact ((silent_check ..).rename _).measured.bind fun _ =>
    (silent_preparation ..).measured.bind fun _ => (measured_memberUploads ..).bind fun _ =>
      (measured_recordUpload ..).bind fun _ => (silent_drawPid _).measured.bind fun _ =>
        (map ..).bind fun _ => marked_pure _

end Course

/-! ### Counters -/

/-- The objects that the repository refused. -/
def Journal.refused (journal : Journal) : List CreateCall :=
  journal.filterMap fun
    | .created call (.error _) => some call
    | _ => none

@[simp] theorem Journal.refused_append (before after : Journal) :
    refused (before ++ after) = before.refused ++ after.refused :=
  List.filterMap_append

theorem Journal.refused_sublist (journal : Journal) :
    journal.refused.Sublist journal.creations := by
  induction journal with
  | nil => exact .slnil
  | cons event rest ih =>
      cases event with
      | created call answer =>
          cases answer with
          | ok _ => exact ih.cons call
          | error e => exact ih.cons_cons call
      | _ => exact ih

/-- From one session to another the counters have grown by what some calls came to. -/
structure Session.Counts (before after : Session) (calls : Journal) : Prop where
  journal : after.journal = before.journal ++ calls
  accepted : after.log.uploadTotal true = before.log.uploadTotal true + calls.accepted.length
  refused : after.log.uploadTotal false = before.log.uploadTotal false + calls.refused.length
  bytes : after.log.byteTotal =
    before.log.byteTotal + (calls.accepted.map (·.content.length)).sum

namespace Session

theorem counts_refl (s : Session) : s.Counts s [] := ⟨by simp, rfl, rfl, rfl⟩

theorem Counts.trans {a b c : Session} {calls more : Journal} (h : a.Counts b calls)
    (h' : b.Counts c more) : a.Counts c (calls ++ more) where
  journal := by rw [h'.journal, h.journal, List.append_assoc]
  accepted := by
    rw [h'.accepted, h.accepted, Journal.accepted_append, List.length_append, Nat.add_assoc]
  refused := by
    rw [h'.refused, h.refused, Journal.refused_append, List.length_append, Nat.add_assoc]
  bytes := by
    rw [h'.bytes, h.bytes, Journal.accepted_append, List.map_append, List.sum_append,
      Nat.add_assoc]

/-- The counters grow by calls if what is measured with the calls is what they came to. -/
theorem counts_of_calls (s : Session) {happenings : List Happening}
    (accepted : MeasurementLog.calls (happenings.filterMap Happening.measurement?) true =
      (Journal.accepted (happenings.filterMap Happening.event?)).map
        fun call => (call.metadata.kind, call.content.length))
    (refused : (MeasurementLog.calls (happenings.filterMap Happening.measurement?) false).length =
      (Journal.refused (happenings.filterMap Happening.event?)).length) :
    s.Counts (s.extend happenings) (happenings.filterMap Happening.event?) where
  journal := journal_extend s happenings
  accepted := by
    rw [MeasurementLog.uploadTotal_eq, MeasurementLog.uploadTotal_eq, log_extend,
      MeasurementLog.calls_append, List.length_append, accepted, List.length_map]
  refused := by
    rw [MeasurementLog.uploadTotal_eq, MeasurementLog.uploadTotal_eq, log_extend,
      MeasurementLog.calls_append, List.length_append, refused]
  bytes := by
    rw [MeasurementLog.byteTotal_eq, MeasurementLog.byteTotal_eq, log_extend,
      MeasurementLog.calls_append, List.map_append, List.sum_append, accepted, List.map_map]
    rfl

/-- What happens in one mark is counted. -/
theorem counts_extend {happenings : List Happening} (measured : Happening.Measured happenings)
    (s : Session) : s.Counts (s.extend happenings) (happenings.filterMap Happening.event?) := by
  cases measured with
  | create call answer => cases answer <;> exact s.counts_of_calls rfl rfl
  | degraded step => exact s.counts_of_calls rfl rfl
  | silent silent =>
      have accepted := List.sublist_nil.mp (silent.uncalled ▸ Journal.accepted_sublist _)
      have refused := List.sublist_nil.mp (silent.uncalled ▸ Journal.refused_sublist _)
      refine s.counts_of_calls ?_ ?_
      · rw [silent.unmeasured, accepted]
        rfl
      · rw [silent.unmeasured, refused]
        rfl

/-- What happens along a trail of measured marks is counted. -/
theorem counts_trail {ε : Type} {trail : Trail ε}
    (measured : ∀ m ∈ trail, Happening.Measured m.happenings) (s : Session) :
    s.Counts (s.extend trail.happenings) trail.journal := by
  induction trail generalizing s with
  | nil => simpa using s.counts_refl
  | cons m rest ih =>
      obtain ⟨here, there⟩ := List.forall_mem_cons.mp measured
      have first := counts_extend here s
      have later := ih there (s.extend m.happenings)
      rw [Session.extend_extend] at later
      rw [Trail.happenings_cons, Trail.journal_cons]
      exact first.trans later

/-- The end of a publication counts no call. -/
theorem counts_publication (s : Session) (outcome : String) (seconds : Binary64) :
    s.Counts (s.extend [.measured (.publication outcome seconds)]) [] :=
  s.counts_of_calls rfl rfl

end Session

/-- Along measured marks no publication ends. -/
theorem Trail.publications_eq_zero {ε : Type} {trail : Trail ε}
    (measured : ∀ m ∈ trail, Happening.Measured m.happenings) (outcome : String) :
    MeasurementLog.publications (trail.happenings.filterMap Happening.measurement?) outcome =
      0 := by
  induction trail with
  | nil => rfl
  | cons m rest ih =>
      obtain ⟨here, there⟩ := List.forall_mem_cons.mp measured
      rw [happenings_cons, List.filterMap_append, MeasurementLog.publications_append, ih there]
      generalize m.happenings = happenings at here
      cases here with
      | create call answer => cases answer <;> rfl
      | degraded step => rfl
      | silent silent =>
          rw [silent.unmeasured]
          rfl

/-! ### Reports -/

namespace Members

theorem degradedSteps_sublist (m : Members) :
    m.degradedSteps.Sublist [.license, .environment] := by
  cases license : m.license <;> cases environment : m.environment <;>
    simp [degradedSteps, license, environment]

/-- A step is degraded if there is no member of its file. -/
theorem mem_degradedSteps (m : Members) {file : GeneratedFile} (optional : file ≠ .packageInfo) :
    file.step ∈ m.degradedSteps ↔ m.generated file = [] := by
  cases license : m.license <;> cases environment : m.environment <;> cases file <;>
    simp_all [degradedSteps, generated, GeneratedFile.step]

/-- A file of the storage has an identifier, or it failed. -/
theorem stored_length (m : Members) :
    (m.stored.filterMap (·.pid)).length + m.failed.length = m.stored.length := by
  rw [List.length_filterMap_eq_countP, failed, List.length_map, ← List.countP_eq_length_filter,
    List.length_eq_countP_add_countP (·.pid.isSome)]
  simp only [Bool.not_eq_true, Option.isSome_eq_false_iff, Bool.decide_eq_true]

/-- Three members are made for a package, and each other one is a file of the storage. -/
theorem pids_length (m : Members) :
    (m.pids.filterMap id).length + m.failed.length + m.degradedSteps.length =
      m.stored.length + 3 := by
  have stored := m.stored_length
  rw [filterMap_pids]
  cases license : m.license <;> cases environment : m.environment <;>
    simp [degradedSteps, license, environment] <;> omega

end Members

/-- A report agrees with the trail of a publication that found the files of some items, and
uploaded each stored one in a part of the trail. -/
structure PublishReport.Agrees (report : PublishReport) (network : Network)
    (items : List String) (trail : Trail PublishError) (found : List FoundItem)
    (uploads : List (FoundItem × Trail PublishError)) : Prop where
  located : List.Forall₂ trail.journal.Locates items found
  stored : uploads.map (·.1) = found.filter (·.isAt network .stored)
  marks : (uploads.map (·.2)).flatten = trail.ofStep .localObjects
  /-- For each stored item the repository takes one object, or none. -/
  uploaded : ∃ rightsHolder, ∀ upload ∈ uploads, ∃ outcome,
    Course.itemUpload rightsHolder upload.1 upload.2 (.ok outcome) ∧
      upload.2.acceptedPids = outcome.pid.toList
  /-- The failed objects are the stored items that the repository took no object for. -/
  failedObjects : report.failedObjects =
    (uploads.filter (·.2.acceptedPids.isEmpty)).map (·.1.file.name)
  failures : (trail.ofStep .localObjects).journal.accepted.length +
    report.failedObjects.length = (found.filter (·.isAt network .stored)).length
  degradedSteps : report.degradedSteps.Sublist [.license, .environment]
  license : .license ∈ report.degradedSteps ↔ (trail.ofStep .license).journal.accepted = []
  environment : .environment ∈ report.degradedSteps ↔
    (trail.ofStep .environment).journal.accepted = []
  /-- The report has every object that the repository took, unless a blank identifier was
  drawn, which a map cannot name. -/
  objects : (∀ pid ∈ trail.drawn, pid.isBlank = false) →
    trail.acceptedPids = report.objectPids ++ [report.metadataPid, report.resourceMapPid] ∧
      report.objectPids.length + report.failedObjects.length + report.degradedSteps.length =
        (found.filter (·.isAt network .stored)).length + 3

namespace Course

variable {config : Config} {request : PublishRequest} {trail : Trail PublishError}

/-- The report on a publication agrees with its trail. -/
theorem publication_agrees {report : PublishReport}
    (along : publication config request trail (.ok report)) :
    ∃ found uploads,
      report.Agrees config.effectiveNetwork request.items trail found uploads := by
  obtain ⟨prepared, members, parts, made, credits⟩ := publication_parts along
  obtain ⟨found, classified, located⟩ := parts.found
  obtain ⟨uploads, items, marks, uploaded, failed⟩ := storedUploads_marks parts.stored
  have stored := (storedUploads_credits _ parts.stored).2
  simp only [classified, Classified.ofFound_eq] at items stored
  have failedObjects : report.failedObjects = members.failed.map (·.file.name) := by rw [made]; rfl
  have degraded : report.degradedSteps = members.degradedSteps := by rw [made]; rfl
  have taken : ∀ {step pids}, (trail.ofStep step).Credits pids →
      (trail.ofStep step).journal.accepted.length = pids.length := fun credits => by
    rw [← credits.accepted, Trail.acceptedPids, Journal.acceptedPids, List.length_map]
  have number : members.stored.length =
      (found.filter (·.isAt config.effectiveNetwork .stored)).length := by
    rw [← stored, List.length_map]
  have lacking : ∀ file, file ≠ .packageInfo →
      (file.step ∈ members.degradedSteps ↔ trail.given file = []) := fun file optional => by
    rw [members.mem_degradedSteps optional, ← List.length_eq_zero_iff,
      ← (parts.given file).length_eq, List.length_eq_zero_iff]
  refine ⟨found, uploads, ?_⟩
  constructor
  case located => exact located
  case stored => exact items
  case marks => exact marks
  case uploaded => exact ⟨prepared.rightsHolder, uploaded⟩
  case failedObjects =>
    rw [failedObjects, Members.failed, ← failed, List.map_map]
    rfl
  case failures =>
    rw [taken parts.stored_credits, failedObjects, List.length_map, members.stored_length, number]
  case degradedSteps => exact degraded ▸ members.degradedSteps_sublist
  case license => exact degraded ▸ lacking .license (by decide)
  case environment => exact degraded ▸ lacking .environment (by decide)
  case objects =>
    intro visible
    have objects : report.objectPids = members.pids.filterMap id := by
      rw [made]
      exact parts.objectPids_eq visible report.resourceMapPid
    constructor
    · rw [credits.accepted, objects, List.append_assoc]
      rfl
    · rw [objects, failedObjects, List.length_map, degraded, members.pids_length, number]

end Course

/-! ### One publication -/

/-- A publication that is to be attempted: in which world, with which settings, and of what. -/
structure Attempt where
  world : World
  config : Config
  request : PublishRequest

/-- A publication that was attempted: from which session to which, and with which result. -/
structure Attempted extends Attempt where
  before : Session
  result : Except PublishError PublishReport
  after : Session

/-- An attempted publication left a trail, by which the counters have grown, and with which
the report agrees if there is one. -/
structure Attempted.Tallied (run : Attempted) (trail : Trail PublishError) : Prop where
  published : run.world.publish run.config run.request run.before = (run.result, run.after)
  along : Course.publication run.config run.request trail run.result
  moved : ∃ seconds, run.after = run.before.extend
    (trail.happenings ++ [.measured (.publication (World.outcome run.result) seconds)])
  counts : run.before.Counts run.after trail.journal
  publications : ∀ outcome, run.after.log.publications outcome =
    run.before.log.publications outcome + if outcome = World.outcome run.result then 1 else 0
  success : World.outcome run.result = "success" ↔ ∃ report, run.result = .ok report
  failure : ∀ e, run.result = .error e → World.outcome run.result = e.step.text
  report : ∀ report, run.result = .ok report → ∃ found uploads,
    report.Agrees run.config.effectiveNetwork run.request.items trail found uploads

namespace World

theorem outcome_eq_success_iff {result : Except PublishError PublishReport} :
    outcome result = "success" ↔ ∃ report, result = .ok report := by
  cases result with
  | ok report => exact ⟨fun _ => ⟨report, rfl⟩, fun _ => rfl⟩
  | error e =>
      refine ⟨fun same => ?_, fun ⟨report, same⟩ => by cases same⟩
      change e.step.text = "success" at same
      cases step : e.step <;> rw [step] at same <;> exact absurd same (by decide)

end World

/-- One publication, in any session of any world. -/
theorem Attempted.tallied (run : Attempted)
    (published : run.world.publish run.config run.request run.before = (run.result, run.after)) :
    ∃ trail, run.Tallied trail := by
  obtain ⟨trail, seconds, result, after, published', along, moved⟩ :=
    run.world.publish_trail run.config run.request run.before
  obtain ⟨rfl, rfl⟩ : result = run.result ∧ after = run.after := by
    simpa using published'.symm.trans published
  have measured := (Course.publication_measured run.config run.request).marks along
  refine ⟨trail, ?_⟩
  constructor
  case published => exact published
  case along => exact along
  case moved => exact ⟨seconds, moved⟩
  case counts =>
    have during := Session.counts_trail measured run.before
    have ended := Session.counts_publication (run.before.extend trail.happenings)
      (World.outcome run.result) seconds
    rw [Session.extend_extend, ← moved] at ended
    simpa using during.trans ended
  case publications =>
    intro outcome
    rw [moved, Session.log_extend, MeasurementLog.publications_append, List.filterMap_append,
      MeasurementLog.publications_append, Trail.publications_eq_zero measured, Nat.zero_add]
    exact congrArg _ (MeasurementLog.publications_publication ..)
  case success => exact World.outcome_eq_success_iff
  case failure =>
    intro e failed
    rw [failed]
    rfl
  case report =>
    intro report succeeded
    rw [succeeded] at along
    exact Course.publication_agrees along

/-! ### Publications one after the other -/

/-- Publications one after the other in one session, each with what came of it. -/
def publishAll : List Attempt → Session → List Attempted × Session
  | [], s => ([], s)
  | attempt :: rest, s =>
    let (result, after) := attempt.world.publish attempt.config attempt.request s
    let (later, last) := publishAll rest after
    (⟨attempt, s, result, after⟩ :: later, last)

/-- **Report, repository and counters tell the same story.**

Publications follow each other in one session, whose log was kept before the first of them, and
each has its own world. Each leaves a trail, and by it the counters grow: the uploads of all
kinds by the create calls that were accepted and by those that were refused, the bytes by those
of the accepted objects, and the publications by one under the outcome, which is `success`
exactly if there is a report, and else the step of the failure. A report agrees with its trail
on the objects of the package, those that failed, and the degraded steps. Over all publications
the counters grow by what they do over each. -/
theorem publishAll_tallied (attempts : List Attempt) (s : Session) :
    ∃ trails, (publishAll attempts s).1.map (·.toAttempt) = attempts ∧
      List.Forall₂ Attempted.Tallied (publishAll attempts s).1 trails ∧
      s.Counts (publishAll attempts s).2 (trails.map Trail.journal).flatten ∧
      ∀ outcome, (publishAll attempts s).2.log.publications outcome =
        s.log.publications outcome +
          (publishAll attempts s).1.countP (outcome = World.outcome ·.result) := by
  induction attempts generalizing s with
  | nil => exact ⟨[], rfl, .nil, s.counts_refl, fun _ => rfl⟩
  | cons attempt rest ih =>
      rcases published : attempt.world.publish attempt.config attempt.request s with
        ⟨result, after⟩
      obtain ⟨trail, here⟩ := Attempted.tallied ⟨attempt, s, result, after⟩ published
      obtain ⟨trails, same, later, counts, publications⟩ := ih after
      simp only [publishAll, published]
      refine ⟨trail :: trails, by rw [List.map_cons, same], .cons here later,
        here.counts.trans counts, fun outcome => ?_⟩
      rw [publications, here.publications, List.countP_cons]
      simp only [decide_eq_true_eq]
      omega

end Deposit
