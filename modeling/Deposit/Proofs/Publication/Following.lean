import Deposit.Proofs.Publication.Itinerary

/-!
Acts follow their courses.

An act *follows* a course if, in every session, it leaves a trail of the course with
its result, and adds to the history what happened along the trail and nothing else
(`Act.Follows`). Each combinator of acts follows the combinator of courses of the same
shape, so an act is followed part by part, up to `World.run_follows`.
-/

namespace Deposit

@[simp] theorem Session.extend_nil (s : Session) : s.extend [] = s := by
  simp [Session.extend]

@[simp] theorem Session.extend_extend (s : Session) (before after : List Happening) :
    (s.extend before).extend after = s.extend (before ++ after) := by
  simp [Session.extend]

theorem Session.journal_extend (s : Session) (more : List Happening) :
    (s.extend more).journal = s.journal ++ more.filterMap Happening.event? :=
  List.filterMap_append

theorem Session.log_extend (s : Session) (more : List Happening) :
    (s.extend more).log = s.log ++ more.filterMap Happening.measurement? :=
  List.filterMap_append

namespace Act

variable {ε ε' α β : Type}

/-- In every session, an act leaves a trail of a course with its result. -/
structure Follows (act : Act ε α) (c : Course ε α) : Prop where
  along : ∀ s, ∃ trail, c trail (act s).1 ∧ (act s).2 = s.extend trail.happenings

/-! ### Combinators -/

theorem follows_pure (a : α) : (pure a : Act ε α).Follows (pure a) :=
  ⟨fun s => ⟨[], ⟨rfl, rfl⟩, (s.extend_nil).symm⟩⟩

theorem Follows.bind {act : Act ε α} {next : α → Act ε β} {c : Course ε α}
    {continued : α → Course ε β} (first : act.Follows c)
    (rest : ∀ a, (next a).Follows (continued a)) :
    (act >>= next).Follows (c >>= continued) := by
  constructor
  intro s
  obtain ⟨before, along, moved⟩ := first.along s
  show ∃ trail, (c >>= continued) trail (andThen act next s).1 ∧
    (andThen act next s).2 = s.extend trail.happenings
  rcases step : act s with ⟨r, s'⟩
  simp only [step] at along moved
  subst moved
  cases r with
  | error e => exact ⟨before, .inl ⟨e, along, by simp [andThen, step]⟩, by simp [andThen, step]⟩
  | ok a =>
      obtain ⟨after, along', moved'⟩ := (rest a).along (s.extend before.happenings)
      refine ⟨before ++ after, .inr ⟨a, before, after, rfl, along, ?_⟩, ?_⟩
      · simpa [andThen, step] using along'
      · simpa [andThen, step] using moved'

/-- A result that is known at once follows a check of it. -/
theorem ofExcept_follows (step : Step) (verdict : Except ε α) :
    (ofExcept verdict).Follows (Course.check step verdict) :=
  ⟨fun s => ⟨_, ⟨(), rfl, rfl⟩, by simp [ofExcept]⟩⟩

/-- A question follows the course that records its answer, whatever it is. -/
theorem ask_follows (step : Step) (answer : Session → Except ε α)
    (happening : Except ε α → Happening) :
    (ask answer happening).Follows (Course.ask step (fun r => [happening r]) id) :=
  ⟨fun s => ⟨_, ⟨answer s, rfl, rfl⟩, by simp [ask]⟩⟩

/-- A question whose answer is checked follows a single question. -/
theorem ask_checked_follows (step : Step) (answer : Session → Except ε α)
    (happening : Except ε α → Happening) (verdict : α → Except ε β) :
    (ask answer happening >>= fun a => ofExcept (verdict a)).Follows
      (Course.ask step (fun r => [happening r]) (·.bind verdict)) := by
  constructor
  intro s
  refine ⟨_, ⟨answer s, rfl, ?_⟩, ?_⟩
  · show (andThen _ _ s).1 = _
    cases given : answer s <;> simp [andThen, ask, ofExcept, given, Except.bind]
  · show (andThen _ _ s).2 = _
    cases given : answer s <;> simp [andThen, ask, ofExcept, given]

theorem Follows.rename {act : Act ε α} {c : Course ε α} (f : ε → ε') (h : act.Follows c) :
    (act.rename f).Follows (c.rename f) := by
  constructor
  intro s
  obtain ⟨trail, along, moved⟩ := h.along s
  refine ⟨trail.map (Mark.rename f), ⟨trail, (act s).1, along, rfl, ?_⟩, ?_⟩
  · rcases step : act s with ⟨_ | _, s'⟩ <;> simp [Act.rename, step, Except.mapError]
  · rcases step : act s with ⟨_ | _, s'⟩ <;> simp_all [Act.rename]

/-- A result follows a check whose failures are put in the words of the result. -/
theorem ofExcept_renamed_follows (step : Step) (f : ε → ε') {verdict : Except ε α}
    {renamed : Except ε' α} (same : renamed = verdict.mapError f) :
    (ofExcept renamed).Follows ((Course.check step verdict).rename f) := by
  have h := (ofExcept_follows step verdict).rename f
  have plain : (ofExcept verdict).rename f = ofExcept renamed := by
    subst same
    cases verdict <;> rfl
  exact plain ▸ h

theorem Follows.each {act : α → Act ε β} {c : α → Course ε β}
    (h : ∀ a, (act a).Follows (c a)) : ∀ as, (Act.each act as).Follows (Course.each c as)
  | [] => follows_pure []
  | a :: rest => (h a).bind fun _ => (Follows.each h rest).bind fun _ => follows_pure _

theorem Follows.bestEffort {act : Act PublishError α} {c : Course PublishError α} (step : Step)
    (h : act.Follows c) : (World.bestEffort step act).Follows (Course.bestEffort step c) := by
  constructor
  intro s
  obtain ⟨trail, along, moved⟩ := h.along s
  rcases ran : act s with ⟨r, s'⟩
  simp only [ran] at along moved
  subst moved
  cases r with
  | ok a =>
      refine ⟨trail, .inl ⟨a, along, ?_⟩, ?_⟩
      · simp [World.bestEffort, Bind.bind, andThen, attempt, ran, Pure.pure, give]
      · simp [World.bestEffort, Bind.bind, andThen, attempt, ran, Pure.pure, give]
  | error e =>
      refine ⟨trail ++ [⟨step, [.measured (.degraded step.text)], none⟩],
        .inr ⟨e, trail, along, ?_, rfl⟩, ?_⟩
      · simp [World.bestEffort, Bind.bind, andThen, attempt, ran, measure, Pure.pure, give]
      · simp [World.bestEffort, Bind.bind, andThen, attempt, ran, measure, Pure.pure, give]

end Act

namespace World

variable {ε α : Type} (w : World)

open Act

/-! ### Single calls -/

theorem ping_follows (step : Step) :
    w.ping.Follows (Course.ask step (fun answer => [.called (.pinged answer)]) id) :=
  ask_follows step (fun s => w.pingAnswer s.journal) fun r => .called (.pinged r)

theorem file?_follows (step : Step) (item : String) :
    (w.file? item).Follows (Course.file? step item) :=
  ask_follows step (fun s => w.fileAnswer s.journal item) fun r => .called (.lookedUp item r)

theorem download_follows (step : Step) (file : String) :
    (w.download file).Follows (Course.download step file) :=
  ask_follows step (fun s => w.downloadAnswer s.journal file) fun r =>
    .called (.downloaded file r)

theorem fetch_follows (step : Step) (url : String) :
    (w.fetch url).Follows (Course.fetch step url) :=
  ask_follows step (fun s => w.fetchAnswer s.journal url) fun r => .called (.fetched url r)

theorem scratch_follows (step : Step) : w.scratch.Follows (Course.scratch step) :=
  ask_follows step w.scratchFile .scratchMade

theorem licenseText_follows (step : Step) (path : String) :
    (w.licenseText path).Follows (Course.licenseText step path) :=
  ask_follows step (w.licenseFile · path) (.licenseRead path)

theorem record_follows (step : Step) (read : Json → Except Json.Mismatch α) (path : String) :
    (w.record read path).Follows (Course.record step read path) :=
  ask_checked_follows step (fun s => w.documentAnswer s.journal path)
    (fun r => .called (.read path r)) (decoded read)

theorem itemPath_follows (step : Step) (id : String) :
    (w.itemPath id).Follows (Course.itemPath step id) :=
  ask_checked_follows step
    (fun s => w.documentAnswer s.journal ("resource/" ++ id ++ "/path?type=item"))
    (fun r => .called (.read ("resource/" ++ id ++ "/path?type=item") r)) (pathOf id)

theorem drawPid_follows (step : Step) : (w.drawPid : Act ε Pid).Follows (Course.drawPid step) :=
  ⟨fun s => ⟨_, ⟨w.nextPid s, rfl, rfl⟩, by simp [drawPid]⟩⟩

theorem upload_follows (step : Step) (pid : Pid) (content : Bytes) (metadata : SystemMetadata) :
    (w.upload pid content metadata).Follows (Course.upload step ⟨pid, content, metadata⟩) := by
  constructor
  intro s
  refine ⟨_, ⟨w.createAnswer s.journal ⟨pid, content, metadata⟩, rfl, ?_⟩, ?_⟩
  · cases given : w.createAnswer s.journal ⟨pid, content, metadata⟩ <;>
      simp [upload, create, call, ask, Bind.bind, andThen, attempt, Act.measure, fail, Pure.pure,
        give, given, Except.map]
  · cases given : w.createAnswer s.journal ⟨pid, content, metadata⟩ <;>
      simp [upload, create, call, ask, Bind.bind, andThen, attempt, Act.measure, fail, Pure.pure,
        give, given, Course.uploadMeasurement]

/-! ### Preparation -/

theorem authenticate_follows (token : String) :
    (w.authenticate token).Follows (Course.authentication token) := by
  refine ((w.ping_follows _).rename _).bind fun _ => ?_
  cases named : Identity.userId token with
  | ok id => exact ofExcept_follows .authenticate (.ok id)
  | error fault => exact ofExcept_follows .authenticate (.error _)

theorem loadTale_follows (taleId userId : String) :
    (w.loadTale taleId userId).Follows (Course.loading taleId userId) :=
  ((w.record_follows ..).rename _).bind fun _ =>
    ((w.record_follows ..).rename _).bind fun _ => follows_pure _

theorem locate_follows (item : String) :
    (w.locate item).Follows
      (Course.ask .classify (fun answer => [.called (.lookedUp item answer)])
        (Course.located item)) := by
  constructor
  intro s
  refine ⟨_, ⟨w.fileAnswer s.journal item, rfl, ?_⟩, ?_⟩
  · rcases given : w.fileAnswer s.journal item with e | _ | file <;>
      simp [locate, file?, call, ask, Bind.bind, andThen, Act.rename, fail, Pure.pure, give,
        given, Course.located]
  · rcases given : w.fileAnswer s.journal item with e | _ | file <;>
      simp [locate, file?, call, ask, Bind.bind, andThen, Act.rename, fail, Pure.pure, give,
        given]

theorem classify_follows (network : Network) (items : List String) :
    (w.classify network items).Follows (Course.classification network items) :=
  (Follows.each w.locate_follows items).bind fun _ => follows_pure _

theorem prepare_follows (network : Network) (request : PublishRequest) :
    (w.prepare network request).Follows (Course.preparation network request) :=
  (w.authenticate_follows _).bind fun _ =>
    (w.loadTale_follows _ _).bind fun _ =>
      ((w.classify_follows _ _).rename _).bind fun _ => follows_pure _

/-! ### Members -/

theorem uploadGenerated_follows (step : Step) (file : GeneratedFile) (pid : Pid)
    (content : Bytes) (rightsHolder : String) :
    (w.uploadGenerated step file pid content rightsHolder).Follows
      (Course.generatedUpload step file pid content rightsHolder) :=
  ((w.upload_follows ..).rename _).bind fun _ => follows_pure _

theorem uploadStored_follows (file : FileObject) (rightsHolder : String) :
    (w.uploadStored file rightsHolder).Follows (Course.storedUpload file rightsHolder) :=
  ((w.scratch_follows _).rename _).bind fun _ =>
    ((w.download_follows ..).rename _).bind fun _ =>
      (w.drawPid_follows _).bind fun _ =>
        ((ofExcept_follows ..).rename _).bind fun _ =>
          ((ofExcept_follows ..).rename _).bind fun _ =>
            ((ofExcept_follows ..).rename _).bind fun _ => (w.upload_follows ..).rename _

theorem uploadItem_follows (rightsHolder : String) (item : FoundItem) :
    (w.uploadItem rightsHolder item).Follows (Course.itemUpload rightsHolder item) :=
  ((w.uploadStored_follows ..).bestEffort _).bind fun _ => follows_pure _

theorem collectPaths_follows (step : Step) (items : List String) :
    (w.collectPaths items).Follows (Course.paths step items) :=
  (Follows.each (fun _ => (w.record_follows ..).bind fun _ =>
    (w.itemPath_follows ..).bind fun _ => follows_pure _) items).bind fun _ => follows_pure _

theorem externalFile_follows (step : Step) (name url : String) :
    (w.externalFile name url).Follows (Course.externalFile step name url) :=
  ((w.scratch_follows _).rename _).bind fun _ =>
    ((w.fetch_follows ..).rename _).bind fun _ =>
      ((ofExcept_follows ..).rename _).bind fun _ => follows_pure _

theorem externalEntry_follows (step : Step) (id : String) :
    (w.externalEntry id).Follows (Course.externalEntry step id) := by
  refine ((w.file?_follows ..).rename _).bind fun file? => ?_
  rw [← Course.linkOf]
  rcases Course.linkOf file? with _ | ⟨name, url⟩
  · exact follows_pure _
  · exact (w.externalFile_follows ..).bind fun _ => follows_pure _

theorem collectExternalFiles_follows (step : Step) (items : List String) :
    (w.collectExternalFiles items).Follows (Course.externalFiles step items) :=
  (Follows.each (w.externalEntry_follows step) items).bind fun _ => follows_pure _

theorem uploadPackageInfo_follows (request : PublishRequest) (prepared : Prepared) :
    (w.uploadPackageInfo request prepared).Follows
      (Course.packageInfoUpload request prepared) :=
  ((w.collectPaths_follows ..).rename _).bind fun _ =>
    ((w.collectExternalFiles_follows ..).rename _).bind fun _ =>
      ((ofExcept_follows ..).rename _).bind fun _ =>
        (w.drawPid_follows _).bind fun _ => w.uploadGenerated_follows ..

theorem uploadLicense_follows (directory licenseId rightsHolder : String) :
    (w.uploadLicense directory licenseId rightsHolder).Follows
      (Course.licenseUpload directory licenseId rightsHolder) := by
  refine (ofExcept_renamed_follows .license .config ?_).bind fun _ =>
    ((w.licenseText_follows ..).rename _).bind fun _ =>
      (w.drawPid_follows _).bind fun _ => w.uploadGenerated_follows ..
  unfold Config.license
  cases License.find? licenseId <;> rfl

theorem archiveUrl_follows (step : Step) (tale : Tale) :
    (w.archiveUrl tale).Follows (Course.archiveUrl step tale) :=
  (ofExcept_follows ..).bind fun _ =>
    (w.record_follows ..).bind fun _ => (w.record_follows ..).bind fun _ => follows_pure _

theorem uploadEnvironment_follows (tale : Tale) (rightsHolder : String) :
    (w.uploadEnvironment tale rightsHolder).Follows
      (Course.environmentUpload tale rightsHolder) :=
  ((w.archiveUrl_follows ..).rename _).bind fun _ =>
    ((w.scratch_follows _).rename _).bind fun _ =>
      ((w.fetch_follows ..).rename _).bind fun _ =>
        (w.drawPid_follows _).bind fun _ =>
          ((ofExcept_follows ..).rename _).bind fun _ => w.uploadGenerated_follows ..

theorem uploadMembers_follows (config : Config) (request : PublishRequest)
    (prepared : Prepared) :
    (w.uploadMembers config request prepared).Follows
      (Course.memberUploads config request prepared) :=
  (Follows.each (w.uploadItem_follows _) _).bind fun _ =>
    (w.uploadPackageInfo_follows ..).bind fun _ =>
      ((w.uploadLicense_follows ..).bestEffort _).bind fun _ =>
        ((w.uploadEnvironment_follows ..).bestEffort _).bind fun _ => follows_pure _

/-! ### Record and map -/

theorem objectEntry_follows (step : Step) (id : String) :
    (w.objectEntry id).Follows (Course.objectEntry step id) :=
  (w.record_follows ..).bind fun _ => (w.file?_follows ..).bind fun _ => follows_pure _

theorem uploadRecord_follows (request : PublishRequest) (prepared : Prepared)
    (members : Members) :
    (w.uploadRecord request prepared members).Follows
      (Course.recordUpload request prepared members) := by
  refine ((Follows.each (w.objectEntry_follows _) _).rename _).bind fun entries =>
    (w.drawPid_follows _).bind fun pid =>
      (ofExcept_renamed_follows .descriptiveRecord _ ?_).bind
        fun _ => (w.upload_follows ..).rename _
  cases DescriptiveRecord.document prepared.tale prepared.user entries pid members.sizes
    request.licenseId prepared.rightsHolder <;> rfl

theorem uploadResourceMap_follows (network : Network) (pid metadataPid : Pid)
    (objects : List (Option Pid)) (rightsHolder : String) :
    (w.uploadResourceMap network pid metadataPid objects rightsHolder).Follows
      (Course.mapUpload network pid metadataPid objects rightsHolder) :=
  ((w.upload_follows ..).rename _).bind fun _ => follows_pure _

/-! ### The whole publication -/

theorem run_follows (config : Config) (request : PublishRequest) :
    (w.run config request).Follows (Course.publication config request) :=
  ((ofExcept_follows ..).rename _).bind fun _ =>
    (w.prepare_follows ..).bind fun _ =>
      (w.uploadMembers_follows ..).bind fun _ =>
        (w.uploadRecord_follows ..).bind fun _ =>
          (w.drawPid_follows _).bind fun _ =>
            (w.uploadResourceMap_follows ..).bind fun _ => follows_pure _

/-- A publication leaves a trail of its course, and measures its outcome at the end. -/
theorem publish_trail (config : Config) (request : PublishRequest) (s : Session) :
    ∃ trail seconds result s', w.publish config request s = (result, s') ∧
      Course.publication config request trail result ∧
      s' = s.extend (trail.happenings ++ [.measured (.publication (outcome result) seconds)]) := by
  obtain ⟨trail, along, moved⟩ := (w.run_follows config request).along s
  have published : w.publish config request s =
      ((w.run config request s).1, (w.run config request s).2.extend
        [.measured (.publication (outcome (w.run config request s).1)
          (w.elapsed (w.run config request s).2))]) := rfl
  exact ⟨trail, _, _, _, published, along, by rw [moved, Session.extend_extend]⟩

end World

end Deposit
