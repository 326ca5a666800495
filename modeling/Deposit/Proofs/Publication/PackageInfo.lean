import Deposit.Proofs.Publication.Classify
import Deposit.Proofs.Publication.Discipline
import Deposit.Proofs.Publication.Links
import Deposit.Proofs.Publication.Marks

/-!
The linked files in a publication.

A publication comes to the linked files when it is prepared, has sent what it can of the files of
the storage, and knows the paths of the items (`World.Comes`). It stops there exactly if the
collecting fails, and then no package-info document is given to the repository
(`publish_eq_fetch_error_iff`). Otherwise the document over what was collected is the next thing
that is (`Comes.creates`), or it cannot be written, and the publication stops (`Comes.refuses`).
-/

namespace Deposit

/-! ### Acts that follow a course -/

namespace Act

variable {ε α β : Type} {act : Act ε α} {c : Course ε α} {s s' : Session}

/-- An act that follows a silent course gives nothing to the repository. -/
theorem Follows.creations_eq (h : act.Follows c) (silent : Course.Silent c) {r : Except ε α}
    (done : act s = (r, s')) : s'.creations = s.creations := by
  obtain ⟨trail, along, moved⟩ := h.along s
  have marks := silent.marks along
  have none : trail.journal.creations = [] := by
    clear along moved
    induction trail with
    | nil => rfl
    | cons m rest ih =>
        obtain ⟨here, there⟩ := List.forall_mem_cons.mp marks
        rw [Trail.journal_cons, Journal.creations, List.filterMap_append]
        exact List.append_eq_nil_iff.mpr ⟨here.uncalled, ih there⟩
  obtain rfl : s' = s.extend trail.happenings := by
    rw [done] at moved
    exact moved
  rw [Session.creations, Session.journal_extend, Journal.creations, List.filterMap_append]
  show _ ++ trail.journal.creations = _
  rw [none, List.append_nil]
  rfl

/-- The failure of an act that follows a disciplined course is one of the steps of the course. -/
theorem Follows.failure_rank {low high : Nat} {act : Act PublishError α}
    {c : Course PublishError α} (h : act.Follows c) (disciplined : Course.Disciplined low high c)
    {e : PublishError} (failed : act s = (.error e, s')) :
    low ≤ e.step.rank ∧ e.step.rank ≤ high := by
  obtain ⟨trail, along, -⟩ := h.along s
  rw [failed] at along
  obtain ⟨before, last, rfl, fatal, lastFailed, -⟩ := disciplined.settles along
  have mem : last ∈ before ++ [last] := by simp
  rw [disciplined.blames along last mem fatal e lastFailed]
  exact disciplined.bounds along last mem

/-- An act that goes on with another one adds to what happened in it. -/
theorem bind_extends {next : α → Act ε β} {continued : α → Course ε β}
    (rest : ∀ a, (next a).Follows (continued a)) (s : Session) :
    ∃ more, ((act >>= next) s).2 = (act s).2.extend more := by
  rcases done : act s with ⟨e | a, s₁⟩
  · exact ⟨[], by rw [Prod.ext_iff.mp (bind_eq_error_iff.mpr (.inl done)) |>.2, s₁.extend_nil]⟩
  · obtain ⟨trail, -, moved⟩ := (rest a).along s₁
    exact ⟨_, (congrArg Prod.snd (bind_of_ok done next)).trans moved⟩

end Act

namespace World

variable {w : World} {config : Config} {request : PublishRequest} {prepared : Prepared}
  {paths : Dictionary String} {s s' sent here after : Session}

theorem drawPid_ne_error {ε : Type} {e : ε} : w.drawPid s ≠ (.error e, s') := by
  simp [drawPid]

/-! ### Where a publication comes to the linked files -/

/-- A publication comes to the linked files. -/
structure Comes (w : World) (config : Config) (request : PublishRequest) (s : Session)
    (prepared : Prepared) (paths : Dictionary String) (sent here : Session) : Prop where
  licensed : ∃ license, Config.license request.licenseId = .ok license
  stored : ∃ ready outcomes, w.prepare config.effectiveNetwork request s = (.ok prepared, ready) ∧
    Act.each (w.uploadItem prepared.rightsHolder) prepared.classified.stored ready =
      (.ok outcomes, sent)
  paths : w.collectPaths request.items sent = (.ok paths, here)

/-- The items whose linked files are collected are those that were found elsewhere, and then
those in the network. -/
theorem Comes.external (h : w.Comes config request s prepared paths sent here) :
    ∃ start found, w.Finds start request.items found ∧
      prepared.classified.external =
        (found.filter (·.isAt config.effectiveNetwork .elsewhere)).map (·.item) ++
          (found.filter (·.isAt config.effectiveNetwork .inNetwork)).map (·.item) := by
  obtain ⟨ready, -, made, -⟩ := h.stored
  obtain ⟨rightsHolder, _, -, made⟩ := Act.bind_eq_ok_iff.mp made
  obtain ⟨⟨tale, user⟩, start, -, made⟩ := Act.bind_eq_ok_iff.mp made
  obtain ⟨classified, _, located, made⟩ := Act.bind_eq_ok_iff.mp made
  obtain ⟨rfl, rfl⟩ := Act.pure_eq_iff.mp made
  obtain ⟨found, all, -, rfl⟩ := classify_eq_ok_iff.mp (Act.rename_eq_ok_iff.mp located)
  refine ⟨start, found, all, ?_⟩
  rw [Classified.ofFound_eq]
  rfl

/-- The collecting of paths and of linked files gives nothing to the repository. -/
theorem Comes.creations_eq (h : w.Comes config request s prepared paths sent here)
    {items : List String} {collected : Except FetchError (Dictionary ExternalFile)}
    (done : w.collectExternalFiles items here = (collected, after)) :
    after.creations = sent.creations :=
  ((w.collectExternalFiles_follows .packageInfo items).creations_eq
    (Course.silent_externalFiles ..) done).trans
      ((w.collectPaths_follows .packageInfo request.items).creations_eq
        (Course.silent_paths ..) h.paths)

/-! ### If the collecting fails -/

/-- The step of the package-info document fails to fetch exactly if the collecting fails behind
the paths. -/
theorem uploadPackageInfo_eq_fetch_error_iff {e : FetchError} :
    w.uploadPackageInfo request prepared s = (.error (.fetch .packageInfo e), s') ↔
      ∃ paths here, w.collectPaths request.items s = (.ok paths, here) ∧
        w.collectExternalFiles prepared.classified.external here = (.error e, s') := by
  constructor
  · intro failed
    rcases Act.bind_eq_error_iff.mp failed with failed | ⟨paths, here, known, failed⟩
    · obtain ⟨_, -, same⟩ := Act.rename_eq_error_iff.mp failed
      cases same
    refine ⟨paths, here, Act.rename_eq_ok_iff.mp known, ?_⟩
    rcases Act.bind_eq_error_iff.mp failed with failed | ⟨files, _, -, failed⟩
    · obtain ⟨_, collecting, same⟩ := Act.rename_eq_error_iff.mp failed
      cases same
      exact collecting
    rcases Act.bind_eq_error_iff.mp failed with failed | ⟨text, _, -, failed⟩
    · obtain ⟨_, -, same⟩ := Act.rename_eq_error_iff.mp failed
      cases same
    rcases Act.bind_eq_error_iff.mp failed with failed | ⟨pid, _, -, failed⟩
    · exact absurd failed drawPid_ne_error
    rcases Act.bind_eq_error_iff.mp failed with failed | ⟨_, _, -, failed⟩
    · obtain ⟨_, -, same⟩ := Act.rename_eq_error_iff.mp failed
      cases same
    · exact absurd failed Act.pure_ne_error
  · rintro ⟨paths, here, known, collecting⟩
    exact Act.bind_eq_error_iff.mpr <| .inr ⟨paths, here, Act.rename_eq_ok_iff.mpr known,
      Act.bind_eq_error_iff.mpr <| .inl <| Act.rename_eq_error_iff.mpr ⟨e, collecting, rfl⟩⟩

/-- A failure of the step of the package-info document ends the run. -/
theorem Comes.run_eq_error (h : w.Comes config request s prepared paths sent here)
    {e : PublishError} (failed : w.uploadPackageInfo request prepared sent = (.error e, after)) :
    w.run config request s = (.error e, after) := by
  obtain ⟨license, licensed⟩ := h.licensed
  obtain ⟨ready, outcomes, made, stored⟩ := h.stored
  have members : w.uploadMembers config request prepared ready = (.error e, after) :=
    Act.bind_eq_error_iff.mpr <| .inr ⟨outcomes, sent, stored,
      Act.bind_eq_error_iff.mpr <| .inl failed⟩
  exact Act.bind_eq_error_iff.mpr <| .inr ⟨license, s,
    Act.rename_eq_ok_iff.mpr (Act.ofExcept_eq_iff.mpr ⟨licensed, rfl⟩),
    Act.bind_eq_error_iff.mpr <| .inr ⟨prepared, ready, made,
      Act.bind_eq_error_iff.mpr <| .inl members⟩⟩

/-- A publication fails to fetch at the package-info document exactly if that step does, behind
the files of the storage. -/
theorem run_eq_fetch_error_iff {e : FetchError} :
    w.run config request s = (.error (.fetch .packageInfo e), s') ↔
      ∃ prepared paths sent here, w.Comes config request s prepared paths sent here ∧
        w.collectExternalFiles prepared.classified.external here = (.error e, s') := by
  -- The failures of all other steps are in other places.
  have apart : ∀ {α : Type} {low high : Nat} {act : Act PublishError α} {c s₁ s₂},
      act.Follows c → Course.Disciplined low high c → (5 < low ∨ high < 5) →
        act s₁ ≠ (.error (.fetch .packageInfo e), s₂) := by
    intro _ low high act c s₁ s₂ follows disciplined elsewhere failed
    have place : low ≤ 5 ∧ 5 ≤ high := follows.failure_rank disciplined failed
    omega
  constructor
  · intro failed
    rcases Act.bind_eq_error_iff.mp failed with failed | ⟨license, s₀, licensed, failed⟩
    · obtain ⟨_, -, same⟩ := Act.rename_eq_error_iff.mp failed
      cases same
    obtain ⟨offered, rfl⟩ := Act.ofExcept_eq_iff.mp (Act.rename_eq_ok_iff.mp licensed)
    rcases Act.bind_eq_error_iff.mp failed with failed | ⟨prepared, ready, made, failed⟩
    · exact absurd failed
        (apart (w.prepare_follows ..) (Course.preparation_disciplined ..) (by simp))
    rcases Act.bind_eq_error_iff.mp failed with failed | ⟨members, _, -, failed⟩
    · rcases Act.bind_eq_error_iff.mp failed with failed | ⟨outcomes, sent, stored, failed⟩
      · exact absurd failed (apart (Act.Follows.each (w.uploadItem_follows _) _)
          (Course.Disciplined.each (Course.itemUpload_disciplined _) _) (by simp))
      rcases Act.bind_eq_error_iff.mp failed with failed | ⟨member, _, -, failed⟩
      · obtain ⟨paths, here, known, collecting⟩ := uploadPackageInfo_eq_fetch_error_iff.mp failed
        exact ⟨prepared, paths, sent, here,
          ⟨⟨license, offered⟩, ⟨ready, outcomes, made, stored⟩, known⟩, collecting⟩
      rcases Act.bind_eq_error_iff.mp failed with failed | ⟨_, _, -, failed⟩
      · exact absurd failed (apart ((w.uploadLicense_follows ..).bestEffort _)
          ((Course.stays_licenseUpload ..).bestEffort_disciplined rfl) (by decide))
      rcases Act.bind_eq_error_iff.mp failed with failed | ⟨_, _, -, failed⟩
      · exact absurd failed (apart ((w.uploadEnvironment_follows ..).bestEffort _)
          ((Course.stays_environmentUpload ..).bestEffort_disciplined rfl) (by decide))
      · exact absurd failed Act.pure_ne_error
    rcases Act.bind_eq_error_iff.mp failed with failed | ⟨metadataPid, _, -, failed⟩
    · exact absurd failed (apart (w.uploadRecord_follows ..)
        ((Course.names_recordUpload ..).disciplined rfl) (by decide))
    rcases Act.bind_eq_error_iff.mp failed with failed | ⟨mapPid, _, -, failed⟩
    · exact absurd failed drawPid_ne_error
    rcases Act.bind_eq_error_iff.mp failed with failed | ⟨_, _, -, failed⟩
    · exact absurd failed (apart (w.uploadResourceMap_follows ..)
        ((Course.names_mapUpload ..).disciplined rfl) (by decide))
    · exact absurd failed Act.pure_ne_error
  · rintro ⟨prepared, paths, sent, here, comes, collecting⟩
    exact comes.run_eq_error <|
      uploadPackageInfo_eq_fetch_error_iff.mpr ⟨paths, here, comes.paths, collecting⟩

/-- A publication is its run, and the measurement of its outcome. -/
theorem publish_eq (w : World) (config : Config) (request : PublishRequest) (s : Session) :
    w.publish config request s = ((w.run config request s).1,
      (w.run config request s).2.extend
        [.measured (.publication (outcome (w.run config request s).1)
          (w.elapsed (w.run config request s).2))]) :=
  rfl

/-- A publication fails to fetch at the package-info document exactly if it comes to the linked
files and the collecting fails, and nothing but the measurement happens behind that. -/
theorem publish_eq_fetch_error_iff {e : FetchError} :
    w.publish config request s = (.error (.fetch .packageInfo e), s') ↔
      ∃ prepared paths sent here after, w.Comes config request s prepared paths sent here ∧
        w.collectExternalFiles prepared.classified.external here = (.error e, after) ∧
        s' = after.extend [.measured (.publication "package_info" (w.elapsed after))] := by
  rw [publish_eq]
  constructor
  · intro failed
    obtain ⟨failed, rfl⟩ := Prod.ext_iff.mp failed
    have ran : w.run config request s =
        (.error (.fetch .packageInfo e), (w.run config request s).2) := Prod.ext failed rfl
    obtain ⟨prepared, paths, sent, here, comes, collecting⟩ := run_eq_fetch_error_iff.mp ran
    refine ⟨prepared, paths, sent, here, _, comes, collecting, ?_⟩
    simp only [show (w.run config request s).1 = _ from failed]
    rfl
  · rintro ⟨prepared, paths, sent, here, after, comes, collecting, rfl⟩
    rw [run_eq_fetch_error_iff.mpr ⟨prepared, paths, sent, here, comes, collecting⟩]
    rfl

/-! ### If the document cannot be written -/

/-- If the collecting succeeds and the document cannot be written, the publication fails, and
nothing but the measurement happens behind the collecting. -/
theorem Comes.refuses (h : w.Comes config request s prepared paths sent here)
    {files : Dictionary ExternalFile}
    (collected : w.collectExternalFiles prepared.classified.external here = (.ok files, after))
    {fault : Yaml.Unwritable}
    (unwritten : (PackageInfo.ofTale prepared.tale paths files request.provenance).text =
      .error fault) :
    w.publish config request s = (.error (.metadata .packageInfo (.yaml fault.message)),
      after.extend [.measured (.publication "package_info" (w.elapsed after))]) := by
  have failed : w.uploadPackageInfo request prepared sent =
      (.error (.metadata .packageInfo (.yaml fault.message)), after) :=
    Act.bind_eq_error_iff.mpr <| .inr ⟨paths, here, Act.rename_eq_ok_iff.mpr h.paths,
      Act.bind_eq_error_iff.mpr <| .inr ⟨files, after, Act.rename_eq_ok_iff.mpr collected,
        Act.bind_eq_error_iff.mpr <| .inl <| Act.rename_eq_error_iff.mpr
          ⟨fault, Act.ofExcept_eq_iff.mpr ⟨unwritten, rfl⟩, rfl⟩⟩⟩
  rw [publish_eq, h.run_eq_error failed]
  rfl

/-! ### If nothing fails -/

/-- A file that was made for the package is given to the repository at once. -/
theorem uploadGenerated_gives (w : World) (step : Step) (file : GeneratedFile) (pid : Pid)
    (content : Bytes) (rightsHolder : String) (s : Session) :
    ∃ call answer more, (w.uploadGenerated step file pid content rightsHolder s).2 =
        s.extend (.called (.created call answer) :: more) ∧
      call.pid = pid ∧ call.metadata.fileName = file.fileName ∧ call.content = content := by
  obtain ⟨trail, along, moved⟩ :=
    (w.uploadGenerated_follows step file pid content rightsHolder).along s
  rw [moved]
  rcases along with ⟨_, ⟨_, _, ⟨answer, rfl, -⟩, rfl, -⟩, -⟩ |
    ⟨_, _, _, rfl, ⟨_, _, ⟨answer, rfl, -⟩, rfl, -⟩, -⟩
  · exact ⟨⟨pid, content, _⟩, answer, _, rfl, rfl, rfl, rfl⟩
  · exact ⟨⟨pid, content, _⟩, answer, _, rfl, rfl, rfl, rfl⟩

/-- The step of the package-info document sends it over the paths and what was collected. -/
theorem uploadPackageInfo_gives {files : Dictionary ExternalFile} {text : String}
    (known : w.collectPaths request.items s = (.ok paths, here))
    (collected : w.collectExternalFiles prepared.classified.external here = (.ok files, after))
    (written : (PackageInfo.ofTale prepared.tale paths files request.provenance).text =
      .ok text) :
    ∃ call answer more, (w.uploadPackageInfo request prepared s).2 =
        after.extend (.drawn call.pid :: .called (.created call answer) :: more) ∧
      call.metadata.fileName = "tale.yml" ∧ call.content = Utf8.bytes text := by
  have paths' : (w.collectPaths request.items).rename (PublishError.storage .packageInfo) s =
      (.ok paths, here) :=
    Act.rename_eq_ok_iff.mpr known
  have files' : (w.collectExternalFiles prepared.classified.external).rename
      (PublishError.fetch .packageInfo) here = (.ok files, after) :=
    Act.rename_eq_ok_iff.mpr collected
  have text' : (Act.ofExcept (PackageInfo.ofTale prepared.tale paths files
      request.provenance).text).rename
        (PublishError.metadata .packageInfo ∘ .yaml ∘ Yaml.Unwritable.message) after =
      (.ok text, after) :=
    Act.rename_eq_ok_iff.mpr (Act.ofExcept_eq_iff.mpr ⟨written, rfl⟩)
  have pid' : (w.drawPid : Act PublishError Pid) after =
      (.ok (w.nextPid after), after.extend [.drawn (w.nextPid after)]) := rfl
  obtain ⟨call, answer, more, given, pid, fileName, content⟩ := w.uploadGenerated_gives
    .packageInfo .packageInfo (w.nextPid after) (Utf8.bytes text) prepared.rightsHolder
    (after.extend [.drawn (w.nextPid after)])
  refine ⟨call, answer, more, ?_, fileName, content⟩
  simp only [uploadPackageInfo, Act.bind_of_ok paths', Act.bind_of_ok files',
    Act.bind_of_ok text', Act.bind_of_ok pid']
  rw [given, Session.extend_extend, pid]
  rfl

/-- The document over what was collected is the next object that the repository is given. -/
theorem Comes.creates (h : w.Comes config request s prepared paths sent here)
    {files : Dictionary ExternalFile} {text : String}
    (collected : w.collectExternalFiles prepared.classified.external here = (.ok files, after))
    (written : (PackageInfo.ofTale prepared.tale paths files request.provenance).text =
      .ok text) :
    ∃ call answer more, (w.publish config request s).2 =
        after.extend (.drawn call.pid :: .called (.created call answer) :: more) ∧
      call.metadata.fileName = "tale.yml" ∧ call.content = Utf8.bytes text := by
  obtain ⟨license, licensed⟩ := h.licensed
  obtain ⟨ready, outcomes, made, stored⟩ := h.stored
  have offered : (Act.ofExcept (Config.license request.licenseId)).rename PublishError.config s =
      (.ok license, s) :=
    Act.rename_eq_ok_iff.mpr (Act.ofExcept_eq_iff.mpr ⟨licensed, rfl⟩)
  -- What happens behind the run, behind the members, and behind the document.
  obtain ⟨behindRun, published⟩ : ∃ more, (w.publish config request s).2 =
      (w.run config request s).2.extend more := ⟨_, rfl⟩
  obtain ⟨behindMembers, ran⟩ : ∃ more, (w.run config request s).2 =
      (w.uploadMembers config request prepared ready).2.extend more := by
    simp only [run, Act.bind_of_ok offered, Act.bind_of_ok made]
    exact Act.bind_extends (fun _ => (w.uploadRecord_follows ..).bind fun _ =>
      (w.drawPid_follows .resourceMap).bind fun _ =>
        (w.uploadResourceMap_follows ..).bind fun _ => Act.follows_pure _) ready
  obtain ⟨behindDocument, members⟩ : ∃ more, (w.uploadMembers config request prepared ready).2 =
      (w.uploadPackageInfo request prepared sent).2.extend more := by
    simp only [uploadMembers, Act.bind_of_ok stored]
    exact Act.bind_extends (fun _ => ((w.uploadLicense_follows ..).bestEffort _).bind fun _ =>
      ((w.uploadEnvironment_follows ..).bestEffort _).bind fun _ => Act.follows_pure _) sent
  obtain ⟨call, answer, more, document, fileName, content⟩ :=
    uploadPackageInfo_gives h.paths collected written
  refine ⟨call, answer, more ++ behindDocument ++ behindMembers ++ behindRun, ?_, fileName, content⟩
  rw [published, ran, members, document]
  simp

/-! ### The linked files of a publication -/

/-- The items are visited one after the other, and nothing else happens while the linked files
are collected. If all of them are passed, the names that are collected are those of the files
with a link, each with the address and the digest of the last item that has it. Otherwise the
collecting stops at an item, and no item behind it is looked up.

In a publication the items are those elsewhere and then those in the network. If all are passed,
the document over what was collected is given to the repository next, or it cannot be written, and
the publication fails at once; if not all are passed, that is the failure of the publication, and
nothing is given to the repository any more. -/
theorem linkedFiles_collected (w : World) :
    (∀ items s, ∃ visits, w.Collects s visits ∧
      ((∃ files,
          w.collectExternalFiles items s =
            (.ok files, s.extend (visits.flatMap (·.happenings))) ∧
          visits.map (·.item) = items ∧
          (∀ name, name ∈ files.map (·.1) ↔ ∃ item file link scratch,
            .linked item file link scratch ∈ visits ∧ file.name = name) ∧
          ∀ name external, files.lookup name = some external ↔
            ∃ earlier item file link scratch later,
              visits = earlier ++ .linked item file link scratch :: later ∧ file.name = name ∧
              (∀ item' file' link' scratch', .linked item' file' link' scratch' ∈ later →
                file'.name ≠ name) ∧
              external = ⟨Blank.trim link, Md5.hex scratch.content⟩) ∨
        ∃ e item after more,
          w.collectExternalFiles items s =
            (.error e, s.extend (visits.flatMap (·.happenings) ++ more)) ∧
          items = visits.map (·.item) ++ item :: after ∧
          w.Stops (s.extend (visits.flatMap (·.happenings))) item more e)) ∧
    ∀ config request s,
      (∀ prepared paths sent here, w.Comes config request s prepared paths sent here →
        (∃ start found, w.Finds start request.items found ∧
          prepared.classified.external =
            (found.filter (·.isAt config.effectiveNetwork .elsewhere)).map (·.item) ++
              (found.filter (·.isAt config.effectiveNetwork .inNetwork)).map (·.item)) ∧
        ∀ files after, w.collectExternalFiles prepared.classified.external here =
            (.ok files, after) →
          (∃ text call answer more,
            (PackageInfo.ofTale prepared.tale paths files request.provenance).text = .ok text ∧
            (w.publish config request s).2 =
              after.extend (.drawn call.pid :: .called (.created call answer) :: more) ∧
            call.metadata.fileName = "tale.yml" ∧ call.content = Utf8.bytes text) ∨
          ∃ fault,
            (PackageInfo.ofTale prepared.tale paths files request.provenance).text =
              .error fault ∧
            w.publish config request s = (.error (.metadata .packageInfo (.yaml fault.message)),
              after.extend [.measured (.publication "package_info" (w.elapsed after))])) ∧
      ∀ e s', w.publish config request s = (.error (.fetch .packageInfo e), s') ↔
        ∃ prepared paths sent here after, w.Comes config request s prepared paths sent here ∧
          w.collectExternalFiles prepared.classified.external here = (.error e, after) ∧
          after.creations = sent.creations ∧
          s' = after.extend [.measured (.publication "package_info" (w.elapsed after))] := by
  refine ⟨fun items s => ?_, fun config request s => ⟨?_, fun e s' => ?_⟩⟩
  · rcases collected : w.collectExternalFiles items s with ⟨e | files, s'⟩
    · obtain ⟨visits, item, after, more, visited, split, stopped, rfl⟩ :=
        collectExternalFiles_eq_error_iff.mp collected
      exact ⟨visits, visited, .inr ⟨e, item, after, more, rfl, split, stopped⟩⟩
    · obtain ⟨visits, visited, passed, rfl, rfl⟩ := collectExternalFiles_eq_ok_iff.mp collected
      exact ⟨visits, visited, .inl ⟨_, rfl, passed, fun name => Visit.mem_names,
        fun name external => Visit.lookup_eq_some_iff⟩⟩
  · intro prepared paths sent here comes
    refine ⟨comes.external, fun files after collected => ?_⟩
    cases written : (PackageInfo.ofTale prepared.tale paths files request.provenance).text with
    | ok text =>
        obtain ⟨call, answer, more, given, sent⟩ := comes.creates collected written
        exact .inl ⟨text, call, answer, more, rfl, given, sent⟩
    | error fault => exact .inr ⟨fault, rfl, comes.refuses collected written⟩
  · rw [publish_eq_fetch_error_iff]
    constructor
    · rintro ⟨prepared, paths, sent, here, after, comes, collecting, moved⟩
      exact ⟨prepared, paths, sent, here, after, comes, collecting,
        comes.creations_eq collecting, moved⟩
    · rintro ⟨prepared, paths, sent, here, after, comes, collecting, -, moved⟩
      exact ⟨prepared, paths, sent, here, after, comes, collecting, moved⟩

end World

end Deposit
