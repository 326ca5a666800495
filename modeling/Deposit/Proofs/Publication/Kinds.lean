import Deposit.Proofs.Publication.Calls
import Deposit.Proofs.Publication.Tally

/-!
The kinds that create calls are counted under.

A create call is not counted under its step, but under a kind that is read off format and file
name of its object (`SystemMetadata.kind`). For the objects that are made for a package that is
the kind of the step (`Course.kinds_publication`). A file of the storage has any format and any
name, so it may have the kind of another step: it is an object for the counters exactly if
neither its format nor its name is that of an object made for a package
(`SystemMetadata.kind_eq_object_iff`).
-/

namespace Deposit

/-! ### Kinds -/

/-- The kind of the objects that a step gives to the repository, if there are any. -/
def Step.kind? : Step → Option String
  | .localObjects => some "object"
  | .packageInfo => some GeneratedFile.packageInfo.kind
  | .license => some GeneratedFile.license.kind
  | .environment => some GeneratedFile.environment.kind
  | .descriptiveRecord => some "descriptive_record"
  | .resourceMap => some "resource_map"
  | .configure | .authenticate | .loadTale | .classify => none

/-- Different steps have different kinds. -/
theorem Step.eq_of_kind? {step step' : Step} {kind : String} (h : step.kind? = some kind)
    (h' : step'.kind? = some kind) : step = step' := by
  have apart : ∀ a b : Step, a.kind? = b.kind? → a.kind? ≠ none → a = b := by
    intro a b
    cases a <;> cases b <;> decide
  exact apart step step' (h.trans h'.symm) (by simp [h])

theorem GeneratedFile.ofFileName?_eq_none_iff {name : String} :
    ofFileName? name = none ↔ ∀ file : GeneratedFile, name ≠ file.fileName := by
  rw [ofFileName?, List.find?_eq_none]
  constructor
  · intro none file same
    exact none file (by cases file <;> decide) (by simp [same])
  · intro apart file _ same
    exact apart file (by simpa using same : file.fileName = name).symm

namespace SystemMetadata

/-- The object has neither format nor name of an object that is made for a package. -/
structure Plain (metadata : SystemMetadata) : Prop where
  map : metadata.formatId ≠ ResourceMap.formatId
  record : metadata.formatId ≠ DescriptiveRecord.formatId
  name : ∀ file : GeneratedFile, metadata.fileName ≠ file.fileName

theorem kind_eq_object_iff {metadata : SystemMetadata} :
    metadata.kind = "object" ↔ metadata.Plain := by
  rw [kind]
  by_cases map : metadata.formatId = ResourceMap.formatId
  · rw [if_pos map]
    exact ⟨fun same => absurd same (by decide), fun plain => absurd map plain.map⟩
  rw [if_neg map]
  by_cases record : metadata.formatId = DescriptiveRecord.formatId
  · rw [if_pos record]
    exact ⟨fun same => absurd same (by decide), fun plain => absurd record plain.record⟩
  rw [if_neg record]
  cases made : GeneratedFile.ofFileName? metadata.fileName with
  | none =>
      exact ⟨fun _ => ⟨map, record, GeneratedFile.ofFileName?_eq_none_iff.mp made⟩, fun _ => rfl⟩
  | some file =>
      refine ⟨fun same => absurd same (by cases file <;> decide), fun plain => ?_⟩
      rw [GeneratedFile.ofFileName?_eq_none_iff.mpr plain.name] at made
      cases made

/-- A file that is made for a package has its kind. -/
theorem kind_ofGenerated (file : GeneratedFile) (pid : Pid) (content : Bytes)
    (rightsHolder : String) :
    (ofContent content pid file.uploadFormat file.fileName rightsHolder none).kind = file.kind := by
  cases file <;> rfl

end SystemMetadata

/-! ### Calls and their kinds -/

/-- A call has the kind of its step, unless it sends a file of the storage. -/
def CreateCall.HasKind : Requirement := fun _ step call =>
  step = .localObjects ∨ step.kind? = some call.metadata.kind

namespace Course

/-- Nothing has to hold where calls have their kinds. -/
abbrev SendsKinds {ε α : Type} (c : Course ε α) : Prop :=
  Sends CreateCall.HasKind (fun _ => True) c fun _ _ => True

variable {ε α : Type}

theorem stable_true : Stable fun _ => True := fun _ _ _ => trivial

theorem kinds_drawPid (step : Step) : SendsKinds (drawPid step : Course ε Pid) :=
  sends_stable_ask stable_true step _ fun _ _ _ => by simp

theorem kinds_check (step : Step) (verdict : Except ε α) : SendsKinds (check step verdict) :=
  sends_stable_check stable_true ..

theorem kinds_upload {step : Step} {call : CreateCall}
    (fits : step = .localObjects ∨ step.kind? = some call.metadata.kind) :
    SendsKinds (upload step call) :=
  sends_upload fun _ _ => fits

theorem kinds_generatedUpload (step : Step) (file : GeneratedFile) (pid : Pid) (content : Bytes)
    (rightsHolder : String) (own : step.kind? = some file.kind) :
    SendsKinds (generatedUpload step file pid content rightsHolder) :=
  ((kinds_upload (.inr (by rw [SystemMetadata.kind_ofGenerated]; exact own))).rename _).bind
    fun _ => sends_pure fun _ _ => trivial

theorem kinds_storedUpload (file : FileObject) (rightsHolder : String) :
    SendsKinds (storedUpload file rightsHolder) :=
  ((sends_scratch stable_true _).rename _).bind fun _ =>
    (Sends.rename _ (sends_stable_ask stable_true _ _ fun _ _ _ => by simp)).bind fun _ =>
      (kinds_drawPid _).bind fun _ => ((kinds_check ..).rename _).bind fun _ =>
        ((kinds_check ..).rename _).bind fun _ => ((kinds_check ..).rename _).bind fun _ =>
          (kinds_upload (.inl rfl)).rename _

theorem kinds_packageInfoUpload (request : PublishRequest) (prepared : Prepared) :
    SendsKinds (packageInfoUpload request prepared) := by
  have paths : SendsKinds (paths .packageInfo request.items) :=
    (Sends.each fun _ _ => sends_pathEntry stable_true ..).bind fun _ =>
      sends_pure fun _ _ => trivial
  have files : SendsKinds (externalFiles .packageInfo prepared.classified.external) :=
    (Sends.each fun _ _ => sends_externalEntry stable_true ..).bind fun _ =>
      sends_pure fun _ _ => trivial
  exact (paths.rename _).bind fun _ => (files.rename _).bind fun _ =>
    ((kinds_check ..).rename _).bind fun _ =>
      (kinds_drawPid _).bind fun _ => kinds_generatedUpload _ _ _ _ _ rfl

theorem kinds_licenseUpload (directory licenseId rightsHolder : String) :
    SendsKinds (licenseUpload directory licenseId rightsHolder) :=
  ((kinds_check ..).rename _).bind fun _ =>
    (Sends.rename _ (sends_stable_ask stable_true _ _ fun _ _ _ => by simp)).bind fun _ =>
      (kinds_drawPid _).bind fun _ => kinds_generatedUpload _ _ _ _ _ rfl

theorem kinds_environmentUpload (tale : Tale) (rightsHolder : String) :
    SendsKinds (environmentUpload tale rightsHolder) :=
  ((sends_archiveUrl stable_true ..).rename _).bind fun _ =>
    ((sends_scratch stable_true _).rename _).bind fun _ =>
      ((sends_fetch stable_true ..).rename _).bind fun _ =>
        (kinds_drawPid _).bind fun _ => ((kinds_check ..).rename _).bind fun _ =>
          kinds_generatedUpload _ _ _ _ _ rfl

theorem kinds_memberUploads (config : Config) (request : PublishRequest) (prepared : Prepared) :
    SendsKinds (memberUploads config request prepared) :=
  (Sends.each fun _ _ => ((kinds_storedUpload ..).bestEffort stable_true _).bind fun _ =>
    sends_pure fun _ _ => trivial).bind fun _ =>
      (kinds_packageInfoUpload ..).bind fun _ =>
        ((kinds_licenseUpload ..).bestEffort stable_true _).bind fun _ =>
          ((kinds_environmentUpload ..).bestEffort stable_true _).bind fun _ =>
            sends_pure fun _ _ => trivial

theorem kinds_recordUpload (request : PublishRequest) (prepared : Prepared) (members : Members) :
    SendsKinds (recordUpload request prepared members) :=
  (Sends.rename _ (Sends.each fun _ _ => sends_objectEntry stable_true ..)).bind fun _ =>
    (kinds_drawPid _).bind fun _ => ((kinds_check ..).rename _).bind fun _ =>
      (kinds_upload (.inr rfl)).rename _

theorem kinds_mapUpload (network : Network) (pid metadataPid : Pid) (objects : List (Option Pid))
    (rightsHolder : String) :
    SendsKinds (mapUpload network pid metadataPid objects rightsHolder) :=
  ((kinds_upload (.inr rfl)).rename _).bind fun _ => sends_pure fun _ _ => trivial

/-- Along a publication, every call but those of files of the storage has the kind of its step. -/
theorem kinds_publication (config : Config) (request : PublishRequest) :
    SendsKinds (publication config request) :=
  ((kinds_check ..).rename _).bind fun _ =>
    (sends_preparation stable_true ..).bind fun _ => (kinds_memberUploads ..).bind fun _ =>
      (kinds_recordUpload ..).bind fun _ => (kinds_drawPid _).bind fun _ =>
        (kinds_mapUpload ..).bind fun _ => sends_pure fun _ _ => trivial

end Course

/-! ### Counters by kind -/

/-- The objects that the repository took, or those that it refused. -/
def Journal.answered (journal : Journal) (success : Bool) : List CreateCall :=
  if success then journal.accepted else journal.refused

namespace Trail

variable {ε : Type} {trail : Trail ε} {success : Bool}

/-- The create calls along a trail that were accepted, or refused, each with its step. -/
def sent (trail : Trail ε) (success : Bool) : List (Step × CreateCall) :=
  trail.flatMap fun m =>
    (Journal.answered (m.happenings.filterMap Happening.event?) success).map (m.step, ·)

/-- The bytes that are counted with a call: those of its content, if it is accepted. -/
def counted (success : Bool) (call : CreateCall) : Nat :=
  if success then call.content.length else 0

/-- The measured calls along a trail are those that were made, each under its kind. -/
theorem calls_eq (measured : ∀ m ∈ trail, Happening.Measured m.happenings) (success : Bool) :
    MeasurementLog.calls (trail.happenings.filterMap Happening.measurement?) success =
      (trail.sent success).map fun (_, call) => (call.metadata.kind, counted success call) := by
  induction trail with
  | nil => rfl
  | cons m rest ih =>
      obtain ⟨here, there⟩ := List.forall_mem_cons.mp measured
      rw [happenings_cons, List.filterMap_append, MeasurementLog.calls_append, ih there]
      refine Eq.trans ?_ List.map_append.symm
      refine congrArg (· ++ _) ?_
      rw [List.map_map]
      generalize m.happenings = happenings at here
      cases here with
      | create call answer => cases answer <;> cases success <;> rfl
      | degraded step => cases success <;> rfl
      | silent silent =>
          have accepted := List.sublist_nil.mp (silent.uncalled ▸ Journal.accepted_sublist _)
          have refused := List.sublist_nil.mp (silent.uncalled ▸ Journal.refused_sublist _)
          rw [silent.unmeasured, Journal.answered, accepted, refused]
          cases success <;> rfl

/-- What is sent along a trail is sent in one of its marks. -/
theorem mem_sent {step : Step} {call : CreateCall} (mem : (step, call) ∈ trail.sent success) :
    ∃ m ∈ trail, ∃ answer, m.step = step ∧ .called (.created call answer) ∈ m.happenings := by
  obtain ⟨m, among, mem⟩ := List.mem_flatMap.mp mem
  obtain ⟨call', answered, same⟩ := List.mem_map.mp mem
  cases same
  have given : call ∈ Journal.creations (m.happenings.filterMap Happening.event?) := by
    cases success with
    | true => exact (Journal.accepted_sublist _).subset answered
    | false => exact (Journal.refused_sublist _).subset answered
  obtain ⟨answer, created⟩ := Journal.mem_creations.mp given
  exact ⟨m, among, answer, rfl, mem_calls.mp created⟩

/-- Where calls have their kinds, so has everything that is sent. -/
theorem Meets.hasKind (meets : trail.Meets CreateCall.HasKind []) {step : Step}
    {call : CreateCall} (mem : (step, call) ∈ trail.sent success) :
    step = .localObjects ∨ step.kind? = some call.metadata.kind := by
  obtain ⟨m, among, answer, rfl, created⟩ := mem_sent mem
  obtain ⟨before, after, rfl⟩ := List.append_of_mem among
  exact meets.allows created

/-- The files of the storage that are sent along a trail are plain objects. -/
def StoresPlain (trail : Trail ε) : Prop :=
  ∀ success call, (.localObjects, call) ∈ trail.sent success → call.metadata.Plain

/-- If the files of the storage are plain, everything is counted under its step. -/
theorem StoresPlain.filter_eq (plain : trail.StoresPlain)
    (meets : trail.Meets CreateCall.HasKind []) {step : Step} {kind : String}
    (own : step.kind? = some kind) :
    (trail.sent success).filter (·.2.metadata.kind == kind) =
      (trail.sent success).filter (·.1 == step) := by
  refine List.filter_congr fun (step', call) mem => ?_
  have named : step'.kind? = some call.metadata.kind := by
    rcases meets.hasKind mem with rfl | named
    · rw [SystemMetadata.kind_eq_object_iff.mpr (plain success call mem)]
      rfl
    · exact named
  rw [Bool.eq_iff_iff, beq_iff_eq, beq_iff_eq]
  constructor
  · rintro rfl
    exact Step.eq_of_kind? named own
  · rintro rfl
    exact Option.some.inj (named.symm.trans own)

/-- What is counted as an object is a file of the storage. -/
theorem Meets.filter_object (meets : trail.Meets CreateCall.HasKind []) :
    (trail.sent success).filter (·.2.metadata.kind == "object") =
      ((trail.sent success).filter (·.1 == .localObjects)).filter
        (·.2.metadata.kind == "object") := by
  rw [List.filter_filter]
  refine List.filter_congr fun (step, call) mem => ?_
  rw [Bool.eq_iff_iff, Bool.and_eq_true, beq_iff_eq, beq_iff_eq]
  refine ⟨fun object => ⟨object, ?_⟩, And.left⟩
  rcases meets.hasKind mem with same | named
  · exact same
  · exact Step.eq_of_kind? named (by rw [object]; rfl)

/-- As many objects are counted as files of the storage are sent only if those are plain. -/
theorem StoresPlain.of_length (meets : trail.Meets CreateCall.HasKind [])
    (same : ∀ success, ((trail.sent success).filter (·.2.metadata.kind == "object")).length =
      ((trail.sent success).filter (·.1 == .localObjects)).length) : trail.StoresPlain := by
  intro success call mem
  have all := same success
  rw [meets.filter_object, List.length_filter_eq_length_iff] at all
  exact SystemMetadata.kind_eq_object_iff.mp <| beq_iff_eq.mp <|
    all _ (List.mem_filter.mpr ⟨mem, beq_self_eq_true _⟩)

end Trail

namespace Session

variable {trail : Trail PublishError} {outcome : String} {seconds : Binary64}

/-- What is measured in a publication that leaves a trail. -/
theorem calls_publication (measured : ∀ m ∈ trail, Happening.Measured m.happenings)
    (s : Session) (success : Bool) :
    (s.extend (trail.happenings ++ [.measured (.publication outcome seconds)])).log.calls success =
      s.log.calls success ++
        (trail.sent success).map fun (_, call) =>
          (call.metadata.kind, Trail.counted success call) := by
  rw [log_extend, MeasurementLog.calls_append, List.filterMap_append, MeasurementLog.calls_append,
    Trail.calls_eq measured]
  exact congrArg _ (List.append_nil _)

theorem uploads_publication (measured : ∀ m ∈ trail, Happening.Measured m.happenings)
    (s : Session) (kind : String) (success : Bool) :
    (s.extend (trail.happenings ++ [.measured (.publication outcome seconds)])).log.uploads kind
        success =
      s.log.uploads kind success +
        ((trail.sent success).filter (·.2.metadata.kind == kind)).length := by
  rw [MeasurementLog.uploads_eq, MeasurementLog.uploads_eq, calls_publication measured,
    List.filter_append, List.length_append, List.filter_map, List.length_map]
  rfl

theorem uploadedBytes_publication (measured : ∀ m ∈ trail, Happening.Measured m.happenings)
    (s : Session) (kind : String) :
    (s.extend (trail.happenings ++
        [.measured (.publication outcome seconds)])).log.uploadedBytes kind =
      s.log.uploadedBytes kind +
        (((trail.sent true).filter (·.2.metadata.kind == kind)).map (·.2.content.length)).sum := by
  rw [MeasurementLog.uploadedBytes_eq, MeasurementLog.uploadedBytes_eq, calls_publication measured,
    List.filter_append, List.map_append, List.sum_append, List.filter_map, List.map_map]
  rfl

end Session

/-! ### The counters of a publication -/

/-- The counters of a kind grow by the create calls for objects of that kind. Every call has the
kind of its step, unless it sends a file of the storage. So calls are counted under their steps,
accepted ones with their bytes, exactly if no file of the storage that was sent has format or name
of an object that is made for a package. -/
theorem World.publish_counts_kinds (w : World) (config : Config) (request : PublishRequest)
    (s : Session) :
    ∃ trail seconds result s', w.publish config request s = (result, s') ∧
      s' = s.extend (trail.happenings ++ [.measured (.publication (outcome result) seconds)]) ∧
      Course.publication config request trail result ∧
      (∀ kind success, s'.log.uploads kind success = s.log.uploads kind success +
        ((trail.sent success).filter (·.2.metadata.kind == kind)).length) ∧
      (∀ kind, s'.log.uploadedBytes kind = s.log.uploadedBytes kind +
        (((trail.sent true).filter (·.2.metadata.kind == kind)).map (·.2.content.length)).sum) ∧
      (∀ success step call, (step, call) ∈ trail.sent success → step ≠ .localObjects →
        step.kind? = some call.metadata.kind) ∧
      ((∀ step kind success, step.kind? = some kind →
          s'.log.uploads kind success = s.log.uploads kind success +
            ((trail.sent success).filter (·.1 == step)).length) ↔ trail.StoresPlain) ∧
      (trail.StoresPlain → ∀ step kind, step.kind? = some kind →
        s'.log.uploadedBytes kind = s.log.uploadedBytes kind +
          (((trail.sent true).filter (·.1 == step)).map (·.2.content.length)).sum) := by
  obtain ⟨trail, seconds, result, s', published, along, moved⟩ := w.publish_trail config request s
  have measured := (Course.publication_measured config request).marks along
  have meets : trail.Meets CreateCall.HasKind [] :=
    (Course.kinds_publication config request).meets trivial along
  have uploads : ∀ kind success, s'.log.uploads kind success = s.log.uploads kind success +
      ((trail.sent success).filter (·.2.metadata.kind == kind)).length := by
    rw [moved]
    exact s.uploads_publication measured
  have bytes : ∀ kind, s'.log.uploadedBytes kind = s.log.uploadedBytes kind +
      (((trail.sent true).filter (·.2.metadata.kind == kind)).map (·.2.content.length)).sum := by
    rw [moved]
    exact s.uploadedBytes_publication measured
  refine ⟨trail, seconds, result, s', published, moved, along, uploads, bytes,
    fun success step call mem other => (meets.hasKind mem).resolve_left other,
    ⟨fun same => ?_, fun plain step kind success own => ?_⟩, fun plain step kind own => ?_⟩
  · refine Trail.StoresPlain.of_length meets fun success => ?_
    have grown := (uploads "object" success).symm.trans (same .localObjects "object" success rfl)
    exact Nat.add_left_cancel grown
  · rw [uploads, Trail.StoresPlain.filter_eq plain meets own]
  · rw [bytes, Trail.StoresPlain.filter_eq plain meets own]

/-! ### A file of the storage that is counted as a license -/

/-- The publication of a tale with one item, whose file is named like a license. -/
def namedLicense : Except PublishError PublishReport × Session :=
  (World.willing
    (soilMoisture ++
      [("item/item1", .obj [("_id", .str "item1"), ("name", .str "LICENSE"), ("size", .ofNat 3)]),
        ("resource/item1/path?type=item", .str "/collection/LICENSE")])
    ⟨"file1", "LICENSE", 3, "text/plain", none⟩ [0x4D, 0x49, 0x54] []).publish .default
    (soilMoistureRequest ["item1"]) .start

/-- The file of the storage is counted under the step of the license, and no object is. -/
theorem namedLicense_counts :
    namedLicense.1.isOk = true ∧
      ((namedLicense.2.journal.accepted.filter (·.metadata.fileName == "LICENSE")).map
        (·.content)) = [[0x4D, 0x49, 0x54], []] ∧
      namedLicense.2.log.uploads "object" true = 0 ∧
      namedLicense.2.log.uploads "license" true = 2 ∧
      namedLicense.2.log.uploadedBytes "license" = 3 := by
  decide +kernel

end Deposit
