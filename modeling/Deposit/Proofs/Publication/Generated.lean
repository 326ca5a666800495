import Deposit.Proofs.DescriptiveRecord
import Deposit.Proofs.Publication.Description
import Mathlib.Data.List.Perm.Subperm

/-!
The members that are made for a package, and their entries in the descriptive record.

The package-info document, the license and the environment are given to the repository in steps
of their own. A member stands for the call that its step was accepted with (`CreateCall.Gives`),
and the record is written over the sizes of the members. A size of zero stands for a file that
is left out, so the record has no entry for a license or an environment without content
(`Trail.entriesOf`), while the resource map names it.

* `Course.publication_describes`: the entries that are read from the record of a publication.
* `publish_describes_generated`: which generated members the record of a publication has.
-/

namespace Deposit

/-- The step that a generated file is made in. -/
def GeneratedFile.step : GeneratedFile → Step
  | .packageInfo => .packageInfo
  | .license => .license
  | .environment => .environment

/-- The entries of a generated file in the descriptive record, for the sizes of its members:
none for an empty file, unless it is the package-info document. -/
def GeneratedFile.entries (file : GeneratedFile) (sizes : List Nat) : List ObjectEntry :=
  (sizes.filter fun size => file = .packageInfo ∨ 0 < size).map (.ofGenerated file)

/-- The members of a package that were made of a generated file: one, or none. -/
def Members.generated (m : Members) : GeneratedFile → List Member
  | .packageInfo => [m.packageInfo]
  | .license => m.license.toList
  | .environment => m.environment.toList

/-- A call gives a generated file to the repository, which is then a member. -/
structure CreateCall.Gives (file : GeneratedFile) (call : CreateCall) (member : Member) :
    Prop where
  pid : call.pid = member.pid
  size : call.content.length = member.size
  fileName : call.metadata.fileName = file.fileName

namespace Trail

/-- The objects that the repository takes of a generated file. -/
def given (trail : Trail PublishError) (file : GeneratedFile) : List CreateCall :=
  (trail.ofStep file.step).journal.accepted

/-- The entries for what the repository takes of a generated file. -/
def entriesOf (trail : Trail PublishError) (file : GeneratedFile) : List ObjectEntry :=
  file.entries ((trail.given file).map (·.content.length))

/-- Sizes have 64 bits: those that the storage has on record, and those of what is made. -/
structure Sized (trail : Trail PublishError) : Prop where
  items : ∀ id entry, trail.journal.Tells id entry → entry.size < 2 ^ 64
  generated : ∀ file, ∀ call ∈ trail.given file, call.content.length < 2 ^ 64

end Trail

theorem forall₂_exists {α β : Type} {R : α → β → Prop} {as : List α} {bs : List β}
    (related : List.Forall₂ R as bs) {a : α} (mem : a ∈ as) : ∃ b, R a b := by
  induction related with
  | nil => cases mem
  | cons here _ ih =>
      rcases List.mem_cons.mp mem with rfl | mem
      · exact ⟨_, here⟩
      · exact ih mem

/-- The described items are among those that were found. -/
theorem Members.described_subperm (m : Members) {network : Network} {journal : Journal}
    {items : List String} {found : List FoundItem}
    (located : List.Forall₂ journal.Locates items found) :
    (m.described (.ofFound network found)).Subperm items := by
  rw [← (Journal.locates_all located).1]
  exact List.filter_sublist.subperm.trans (Classified.described_perm network found).subperm

/-! ### Calls and members -/

namespace Course

variable {ε α : Type}

/-- The one object that the repository takes along a course is a member of the package. -/
structure Gives (file : GeneratedFile) (c : Course PublishError Member) : Prop where
  taken : ∀ {trail member}, c trail (.ok member) →
    ∃ call, trail.journal.accepted = [call] ∧ call.Gives file member

theorem accepted_eq_nil {trail : Trail ε} (nothing : trail.acceptedPids = []) :
    trail.journal.accepted = [] :=
  List.map_eq_nil_iff.mp nothing

/-- What the repository takes behind a quiet part is all that it takes. -/
theorem Quiet.accepted_append {c : Course ε α} (h : Quiet c) {before : Trail ε}
    {r : Except ε α} (first : c before r) (after : Trail ε) :
    (before ++ after).journal.accepted = after.journal.accepted := by
  rw [Trail.journal_append, Journal.accepted_append, accepted_eq_nil (h.accepted first),
    List.nil_append]

theorem Quiet.gives {file : GeneratedFile} {c : Course PublishError α}
    {next : α → Course PublishError Member} (h : Quiet c) (rest : ∀ a, Gives file (next a)) :
    Gives file (c >>= next) where
  taken := by
    intro _ member along
    obtain ⟨a, before, after, rfl, first, then_⟩ := bind_ok.mp along
    obtain ⟨call, taken, gives⟩ := (rest a).taken then_
    exact ⟨call, (h.accepted_append first after).trans taken, gives⟩

theorem gives_generatedUpload (step : Step) (file : GeneratedFile) (pid : Pid) (content : Bytes)
    (rightsHolder : String) :
    Gives file (generatedUpload step file pid content rightsHolder) where
  taken := by
    intro _ member along
    obtain ⟨_, _, _, rfl, uploaded, rfl, same⟩ := bind_ok.mp along
    cases same
    obtain ⟨_, ⟨answer, rfl, said⟩, rfl⟩ := rename_ok.mp uploaded
    cases answer with
    | error e => cases said
    | ok _ =>
        cases said
        exact ⟨_, rfl, rfl, rfl, rfl⟩

theorem gives_packageInfoUpload (request : PublishRequest) (prepared : Prepared) :
    Gives .packageInfo (packageInfoUpload request prepared) :=
  ((silent_paths ..).rename _).quiet.gives fun _ =>
    ((silent_externalFiles ..).rename _).quiet.gives fun _ =>
      ((silent_check ..).rename _).quiet.gives fun _ =>
        (silent_drawPid _).quiet.gives fun _ => gives_generatedUpload ..

theorem gives_licenseUpload (directory licenseId rightsHolder : String) :
    Gives .license (licenseUpload directory licenseId rightsHolder) :=
  ((silent_check ..).rename _).quiet.gives fun _ =>
    ((silent_licenseText ..).rename _).quiet.gives fun _ =>
      (silent_drawPid _).quiet.gives fun _ => gives_generatedUpload ..

theorem gives_environmentUpload (tale : Tale) (rightsHolder : String) :
    Gives .environment (environmentUpload tale rightsHolder) :=
  ((silent_archiveUrl ..).rename _).quiet.gives fun _ =>
    ((silent_scratch _).rename _).quiet.gives fun _ =>
      ((silent_fetch ..).rename _).quiet.gives fun _ =>
        (silent_drawPid _).quiet.gives fun _ =>
          ((silent_check ..).rename _).quiet.gives fun _ => gives_generatedUpload ..

/-- A member that the publication can do without stands for the call of its step, if there
is one. -/
theorem Gives.bestEffort {file : GeneratedFile} {step : Step} {c : Course PublishError Member}
    (h : Gives file c) (delivers : Delivers [] Member.pid c) {trail : Trail PublishError}
    {member? : Option Member} (along : bestEffort step c trail (.ok member?)) :
    List.Forall₂ (CreateCall.Gives file) trail.journal.accepted member?.toList := by
  have credits := delivers.bestEffort_credits along
  rcases along with ⟨member, along, same⟩ | ⟨e, before, along, same, rfl⟩
  · cases same
    obtain ⟨call, taken, gives⟩ := h.taken along
    rw [taken]
    exact .cons gives .nil
  · cases same
    rw [accepted_eq_nil credits.accepted]
    exact .nil

variable {config : Config} {request : PublishRequest} {trail : Trail PublishError}
  {prepared : Prepared} {members : Members} {metadataPid : Pid}

/-- The generated members of a package are what the repository took in their steps. -/
theorem Parts.given (parts : Parts config request trail prepared members metadataPid)
    (file : GeneratedFile) :
    List.Forall₂ (CreateCall.Gives file) (trail.given file) (members.generated file) := by
  cases file with
  | packageInfo =>
      obtain ⟨call, taken, gives⟩ := (gives_packageInfoUpload ..).taken parts.packageInfo
      rw [Trail.given, GeneratedFile.step, taken]
      exact .cons gives .nil
  | license => exact (gives_licenseUpload ..).bestEffort (delivers_licenseUpload ..) parts.license
  | environment =>
      exact (gives_environmentUpload ..).bestEffort (delivers_environmentUpload ..)
        parts.environment

end Course

/-! ### Entries -/

namespace Trail

variable {trail : Trail PublishError} {file : GeneratedFile} {members : List Member}

theorem sizes_of_given (given : List.Forall₂ (CreateCall.Gives file) (trail.given file) members) :
    (trail.given file).map (·.content.length) = members.map (·.size) := by
  rw [← List.forall₂_eq_eq_eq, List.forall₂_map_left_iff, List.forall₂_map_right_iff]
  exact given.imp fun _ _ gives => gives.size

theorem pids_of_given (given : List.Forall₂ (CreateCall.Gives file) (trail.given file) members) :
    (trail.ofStep file.step).acceptedPids = members.map (·.pid) := by
  rw [acceptedPids, Journal.acceptedPids, ← List.forall₂_eq_eq_eq, List.forall₂_map_left_iff,
    List.forall₂_map_right_iff]
  exact given.imp fun _ _ gives => gives.pid

end Trail

theorem GeneratedFile.ofGenerated_injective {file file' : GeneratedFile} {size size' : Nat}
    (same : ObjectEntry.ofGenerated file size = .ofGenerated file' size') :
    file = file' ∧ size = size' := by
  obtain ⟨name, -, sizes, -⟩ := ObjectEntry.mk.inj same
  refine ⟨?_, sizes⟩
  cases file <;> cases file' <;> first | rfl | exact absurd name (by decide)

/-- The entries of the generated files: of each file those for what the repository takes. -/
theorem Trail.mem_entriesOf {trail : Trail PublishError} {file : GeneratedFile} {size : Nat} :
    .ofGenerated file size ∈ GeneratedFile.all.flatMap trail.entriesOf ↔
      ∃ call ∈ trail.given file, call.content.length = size ∧
        (file = .packageInfo ∨ 0 < size) := by
  have all : ∀ file, file ∈ GeneratedFile.all := by
    intro file
    cases file <;> decide
  simp only [List.mem_flatMap, entriesOf, GeneratedFile.entries, List.mem_map, List.mem_filter,
    decide_eq_true_eq]
  constructor
  · rintro ⟨file', -, size', ⟨⟨call, given, rfl⟩, kept⟩, same⟩
    obtain ⟨rfl, rfl⟩ := GeneratedFile.ofGenerated_injective same
    exact ⟨call, given, rfl, kept⟩
  · rintro ⟨call, given, rfl, kept⟩
    exact ⟨file, all file, _, ⟨⟨call, given, rfl⟩, kept⟩, rfl⟩

/-- A size of zero stands for a file that is left out, and for one without content. -/
theorem GeneratedFile.entries_toList (file : GeneratedFile) (optional : file ≠ .packageInfo)
    (member? : Option Member) :
    file.entries (member?.toList.map (·.size)) =
      if 0 < (member?.map (·.size)).getD 0 then
        [.ofGenerated file ((member?.map (·.size)).getD 0)]
      else [] := by
  cases member? with
  | none => rfl
  | some member => by_cases some : 0 < member.size <;> simp [entries, optional, some]

/-- The generated entries of a record are those of the members. -/
theorem DescriptiveRecord.generatedEntries_sizes (members : Members) :
    generatedEntries members.sizes = GeneratedFile.all.flatMap fun file =>
      file.entries ((members.generated file).map (·.size)) := by
  have license := GeneratedFile.entries_toList .license (by decide) members.license
  have environment := GeneratedFile.entries_toList .environment (by decide) members.environment
  simp only [GeneratedFile.all, List.flatMap_cons, List.flatMap_nil, List.append_nil,
    Members.generated, license, environment]
  exact List.append_assoc ..

namespace Course

variable {config : Config} {request : PublishRequest} {trail : Trail PublishError}
  {report : PublishReport}

/-- The entries that are read from the record of a publication: those of items, and those of
the generated files that the repository took. -/
theorem publication_describes (along : publication config request trail (.ok report))
    (sized : trail.Sized) :
    ∃ record ids items, record ∈ trail.journal.accepted ∧ record.pid = report.metadataPid ∧
      ids.Subperm request.items ∧ List.Forall₂ trail.journal.Tells ids items ∧
      DescriptiveRecord.readEntries record.content =
        .ok (items.map ObjectEntry.normal ++ GeneratedFile.all.flatMap trail.entriesOf) := by
  obtain ⟨prepared, members, parts, -, -⟩ := publication_parts along
  obtain ⟨found, classified, located⟩ := parts.found
  obtain ⟨items, document, told, written, taken⟩ := parts.recorded
  have told := told.imp fun id entry h => h.mono (Trail.journal_ofStep_sublist _ trail).subset
  have sizes : DescriptiveRecord.generatedEntries members.sizes =
      GeneratedFile.all.flatMap trail.entriesOf := by
    rw [DescriptiveRecord.generatedEntries_sizes]
    refine congrArg (GeneratedFile.all.flatMap ·) (funext fun file => ?_)
    rw [Trail.entriesOf, Trail.sizes_of_given (parts.given file)]
  have small : ∀ entry ∈ items ++ DescriptiveRecord.generatedEntries members.sizes,
      entry.size < 2 ^ 64 := by
    rw [sizes]
    intro entry mem
    rcases List.mem_append.mp mem with mem | mem
    · obtain ⟨id, tells⟩ := forall₂_exists (List.Forall₂.flip told) mem
      exact sized.items id entry tells
    · obtain ⟨file, -, mem⟩ := List.mem_flatMap.mp mem
      obtain ⟨size, kept, rfl⟩ := List.mem_map.mp mem
      obtain ⟨call, given, rfl⟩ := List.mem_map.mp (List.mem_filter.mp kept).1
      exact sized.generated file call given
  refine ⟨recordCall report.metadataPid document prepared.rightsHolder,
    members.described prepared.classified, items, Journal.mem_accepted.mpr taken, rfl, ?_, told,
    ?_⟩
  · rw [classified]
    exact members.described_subperm located
  · rw [← sizes]
    exact DescriptiveRecord.readEntries_of_document small written

/-- The objects of the report: files of the storage, and then the generated files. -/
theorem publication_objects (along : publication config request trail (.ok report))
    (visible : ∀ pid ∈ trail.drawn, pid.isBlank = false) :
    report.objectPids = (trail.ofStep .localObjects).acceptedPids ++
      GeneratedFile.all.flatMap fun file => (trail.ofStep file.step).acceptedPids := by
  obtain ⟨prepared, members, parts, made, -⟩ := publication_parts along
  have objects : report.objectPids = members.pids.filterMap id := by
    rw [made]
    exact parts.objectPids_eq visible report.resourceMapPid
  rw [objects, Members.filterMap_pids, parts.stored_credits.accepted]
  simp only [GeneratedFile.all, List.flatMap_cons, List.flatMap_nil,
    Trail.pids_of_given (parts.given _), Members.generated]
  cases members.license <;> cases members.environment <;> rfl

/-- Of each generated file the repository takes one object or none, and of the package-info
document it takes one. -/
theorem publication_given (along : publication config request trail (.ok report)) :
    (∃ call, trail.given .packageInfo = [call]) ∧ ∀ file, (trail.given file).length ≤ 1 ∧
      ∀ call ∈ trail.given file, call.metadata.fileName = file.fileName := by
  obtain ⟨prepared, members, parts, -, -⟩ := publication_parts along
  refine ⟨?_, fun file => ⟨?_, ?_⟩⟩
  · exact ((gives_packageInfoUpload ..).taken parts.packageInfo).imp fun call h => h.1
  · rw [(parts.given file).length_eq]
    cases file with
    | packageInfo => exact Nat.le_refl 1
    | license => cases members.license <;> simp [Members.generated]
    | environment => cases members.environment <;> simp [Members.generated]
  · intro call mem
    obtain ⟨member, gives⟩ := forall₂_exists (parts.given file) mem
    exact gives.fileName

end Course

/-! ### In any world -/

/-- **The generated members of a package in its descriptive record.**

For a publication that succeeds, the record that the repository takes has the entries of items,
and then those of the generated files: one for each of them that the repository took and that
is not empty, with the size of its content, and one for the package-info document in any case.
The report has the objects of all of them, unless a blank identifier was drawn. So what the
resource map names and the record leaves out of the generated files is empty. -/
theorem World.publish_describes_generated (w : World) (config : Config)
    (request : PublishRequest) (s : Session) :
    ∃ trail seconds result s', w.publish config request s = (result, s') ∧
      s' = s.extend (trail.happenings ++ [.measured (.publication (outcome result) seconds)]) ∧
      Course.publication config request trail result ∧
      ∀ report, result = .ok report → trail.Sized → (∀ pid ∈ trail.drawn, pid.isBlank = false) →
        ∃ record ids items generated, record ∈ trail.journal.accepted ∧
          record.pid = report.metadataPid ∧
          ids.Subperm request.items ∧ List.Forall₂ trail.journal.Tells ids items ∧
          DescriptiveRecord.readEntries record.content =
            .ok (items.map ObjectEntry.normal ++ generated) ∧
          (∃ call, trail.given .packageInfo = [call]) ∧
          (∀ file, (trail.given file).length ≤ 1 ∧ ∀ call ∈ trail.given file,
            call.metadata.fileName = file.fileName ∧ call.pid ∈ report.objectPids) ∧
          generated = GeneratedFile.all.flatMap trail.entriesOf ∧
          ∀ file size, .ofGenerated file size ∈ generated ↔
            ∃ call ∈ trail.given file, call.pid ∈ report.objectPids ∧
              call.content.length = size ∧ (file = .packageInfo ∨ 0 < size) := by
  obtain ⟨trail, seconds, result, s', published, along, moved⟩ := w.publish_trail config request s
  refine ⟨trail, seconds, result, s', published, moved, along, ?_⟩
  rintro report rfl sized visible
  obtain ⟨record, ids, items, taken, named, among, told, entries⟩ :=
    Course.publication_describes along sized
  obtain ⟨packageInfo, given⟩ := Course.publication_given along
  have aggregated : ∀ file, ∀ call ∈ trail.given file, call.pid ∈ report.objectPids := by
    intro file call mem
    rw [Course.publication_objects along visible]
    refine List.mem_append_right _ (List.mem_flatMap.mpr ⟨file, ?_, List.mem_map_of_mem mem⟩)
    cases file <;> decide
  refine ⟨record, ids, items, _, taken, named, among, told, entries, packageInfo, ?_, rfl, ?_⟩
  · exact fun file => ⟨(given file).1, fun call mem =>
      ⟨(given file).2 call mem, aggregated file call mem⟩⟩
  · intro file size
    rw [Trail.mem_entriesOf]
    exact exists_congr fun call => and_congr_right fun mem =>
      (and_iff_right (aggregated file call mem)).symm

/-! ### An empty license -/

/-- A world in which the storage has a few documents, and one file for every item, each license
has the same text, and the repository takes everything. -/
def World.willing (documents : List (String × Json)) (file : FileObject) (content license : Bytes) :
    World where
  licenseFile _ _ := .ok license
  scratchFile _ := .ok ()
  nextPid s := .ofInt (s.creations.length + 1)
  elapsed _ := .zero
  pingAnswer _ := .ok ()
  documentAnswer _ path :=
    match documents.lookup path with
    | some document => .ok document
    | none => .error (.notFound path)
  fileAnswer _ _ := .ok (some file)
  downloadAnswer _ _ := .ok (.holding content)
  fetchAnswer _ url := .error (.storage (.notFound url))
  createAnswer _ _ := .ok ()

/-- A tale that names no environment, and its publisher. -/
def soilMoisture : List (String × Json) :=
  [("tale/tale1", .obj [("_id", .str "tale1"), ("title", .str "Soil moisture")]),
    ("user/user1", .obj [("_id", .str "user1"), ("firstName", .str "Jane"),
      ("lastName", .str "Doe"), ("email", .str "jane@example.org")])]

/-- The publication of some items with this tale. -/
def soilMoistureRequest (items : List String) : PublishRequest :=
  ⟨items, "tale1", "user1", "CC0-1.0", "e30.eyJ1c2VySWQiOiJqYW5lIn0.", []⟩

/-- The publication of this tale without items, where the text of the license is empty. -/
def emptyLicense : Except PublishError PublishReport × Session :=
  (World.willing soilMoisture ⟨"file1", "a.csv", 8, "text/csv", none⟩ [] []).publish .default
    (soilMoistureRequest []) .start

theorem emptyLicense_run :
    emptyLicense.1.toOption.map (·.objectPids) = some [⟨"1"⟩, ⟨"2"⟩] ∧
      (∃ call ∈ emptyLicense.2.journal.accepted, call.metadata.fileName = "LICENSE" ∧
        call.pid = ⟨"2"⟩) ∧
      (∀ call ∈ emptyLicense.2.journal.accepted, call.metadata.fileName = "LICENSE" →
        call.content = []) ∧
      (∀ file ∈ GeneratedFile.all, ∀ call ∈ emptyLicense.2.journal.accepted,
        call.metadata.fileName = file.fileName → call.content.length < 2 ^ 64) ∧
      emptyLicense.2.journal.all (fun | .lookedUp .. => false | _ => true) = true := by
  decide +kernel

/-- An empty license is in the resource map, and has no entry in the record. -/
theorem emptyLicense_undescribed :
    ∃ report s license record, emptyLicense = (.ok report, s) ∧
      license ∈ s.journal.accepted ∧ license.metadata.fileName = "LICENSE" ∧
      license.pid ∈ report.objectPids ∧ record ∈ s.journal.accepted ∧
      record.pid = report.metadataPid ∧ ∃ entries,
        DescriptiveRecord.readEntries record.content = .ok entries ∧
          ∀ entry ∈ entries, entry.name ≠ "LICENSE" := by
  obtain ⟨objects, ⟨license, taken, licensed, second⟩, empty, small, unasked⟩ := emptyLicense_run
  obtain ⟨trail, seconds, result, s, published, along, moved⟩ :=
    (World.willing soilMoisture ⟨"file1", "a.csv", 8, "text/csv", none⟩ [] []).publish_trail
      .default (soilMoistureRequest []) .start
  change emptyLicense = (result, s) at published
  rw [published] at objects taken empty small unasked
  cases result with
  | error e => cases objects
  | ok report =>
      -- The calls of the session are those along the trail, which the steps are read off.
      have journal : s.journal = trail.journal := by
        rw [moved, Session.journal_extend, List.filterMap_append]
        exact List.append_nil _
      simp only [journal] at taken empty small unasked
      obtain ⟨-, given⟩ := Course.publication_given along
      have within : ∀ file, ∀ call ∈ trail.given file, call ∈ trail.journal.accepted :=
        fun file call mem => ((Trail.journal_ofStep_sublist _ trail).filterMap _).subset mem
      have sized : trail.Sized := by
        refine ⟨?_, fun file call mem => ?_⟩
        · rintro id entry ⟨_, _, _, -, -, looked, -⟩
          cases List.all_eq_true.mp unasked _ looked
        · refine small file ?_ call (within file call mem) ((given file).2 call mem)
          cases file <;> decide
      obtain ⟨record, ids, items, recorded, named, among, told, entries⟩ :=
        Course.publication_describes along sized
      obtain rfl : ids = [] := List.subperm_nil.mp among
      cases told
      refine ⟨report, s, license, record, published, journal ▸ taken, licensed, ?_,
        journal ▸ recorded, named, _, entries, ?_⟩
      · obtain objects : report.objectPids = [⟨"1"⟩, ⟨"2"⟩] := by
          simpa [Except.toOption] using objects
        simp [objects, second]
      · intro entry read named
        obtain ⟨file, -, entered⟩ := List.mem_flatMap.mp read
        obtain ⟨size, counted, rfl⟩ := List.mem_map.mp entered
        obtain ⟨measured, kept⟩ := List.mem_filter.mp counted
        obtain ⟨call, mem, rfl⟩ := List.mem_map.mp measured
        change file.fileName = "LICENSE" at named
        have content := empty call (within file call mem) (((given file).2 call mem).trans named)
        cases file with
        | packageInfo => exact absurd named (by decide)
        | license => simp [content] at kept
        | environment => exact absurd named (by decide)

end Deposit
