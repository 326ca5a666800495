import Deposit.Proofs.Checksum
import Deposit.Proofs.DescriptiveRecord
import Deposit.Proofs.Publication.Description
import Deposit.Proofs.Publication.Sending
import Deposit.Proofs.ResourceMap

/-!
The create calls of a publication: what the repository is given, whether it takes it or not.

* `CreateCall.Fits`: what a create call holds at its step, in view of all that happened before.
* `Course.sends_publication`: along a publication, every create call fits.
* `publish_calls_fit`: what that says of a publication in any world.
-/

namespace Deposit

/-! ### What storage and web tell -/

/-- The storage tells the name and the path of an item. -/
inductive Journal.Places (journal : Journal) (id : String) : String × String → Prop where
  | placed {document answer : Json} {item : Item} {path : String} :
      .read ("item/" ++ id) (.ok document) ∈ journal → Item.ofJson document = .ok item →
      .read ("resource/" ++ id ++ "/path?type=item") (.ok answer) ∈ journal →
      World.pathOf id answer = .ok path → Places journal id (item.name, path)

/-- The storage tells the name and the address of a linked file, of which the web gives the
content; or it tells that there is no link. -/
inductive Journal.Links (journal : Journal) (id : String) :
    Option (String × ExternalFile) → Prop where
  | linked {file : FileObject} {url : String} {scratch : Scratch} :
      .lookedUp id (.ok (some file)) ∈ journal → file.externalUrl = some url →
      .fetched url (.ok scratch) ∈ journal →
      Links journal id (some (file.name, ⟨url, Md5.hex scratch.content⟩))
  | unlinked {file? : Option FileObject} :
      .lookedUp id (.ok file?) ∈ journal → (file?.bind (·.externalUrl)) = none →
      Links journal id none

theorem Journal.Places.mono {journal journal' : Journal} {id : String} {entry : String × String}
    (h : journal.Places id entry) (within : ∀ event ∈ journal, event ∈ journal') :
    journal'.Places id entry := by
  obtain ⟨asked, read, asked', read'⟩ := h
  exact ⟨within _ asked, read, within _ asked', read'⟩

theorem Journal.Links.mono {journal journal' : Journal} {id : String}
    {linked? : Option (String × ExternalFile)} (h : journal.Links id linked?)
    (within : ∀ event ∈ journal, event ∈ journal') : journal'.Links id linked? := by
  rcases h with ⟨looked, link, fetched⟩ | ⟨looked, link⟩
  · exact .linked (within _ looked) link (within _ fetched)
  · exact .unlinked (within _ looked) link

/-! ### What is known before the first upload -/

/-- The rights holder is the user that the token names, and the storage was asked for the file
of each item. -/
structure Prepared.Known (network : Network) (request : PublishRequest) (prepared : Prepared)
    (history : List Happening) : Prop where
  rightsHolder : Identity.userId request.repositoryToken = .ok prepared.rightsHolder
  located : ∃ found, prepared.classified = .ofFound network found ∧
    List.Forall₂ (calls history).Locates request.items found

theorem Prepared.known_stable (network : Network) (request : PublishRequest)
    (prepared : Prepared) : Course.Stable (prepared.Known network request) := by
  rintro history more ⟨rightsHolder, found, classified, located⟩
  exact ⟨rightsHolder, found, classified,
    Course.stable_forall₂ (R := Journal.Locates) Journal.Locates.mono _ _ history more located⟩

/-- The stored items are items of the request, and their files are those that were looked up. -/
theorem Prepared.Known.stored {network : Network} {request : PublishRequest}
    {prepared : Prepared} {history : List Happening} (h : prepared.Known network request history)
    {f : FoundItem} (mem : f ∈ prepared.classified.stored) :
    f.item ∈ request.items ∧ f.isAt network .stored = true ∧
      .called (.lookedUp f.item (.ok (some f.file))) ∈ history := by
  obtain ⟨-, found, classified, located⟩ := h
  obtain ⟨items, looked⟩ := Journal.locates_all located
  rw [classified, Classified.ofFound_eq] at mem
  obtain ⟨mem, there⟩ := List.mem_filter.mp mem
  exact ⟨items ▸ List.mem_map.mpr ⟨f, mem, rfl⟩, there, mem_calls.mp (looked f mem).2⟩

/-! ### Calls that fit -/

/-- A create call that is consistent in itself: it has an identifier of its own, and record
and content belong together. -/
structure CreateCall.Sound (request : PublishRequest) (history : List Happening)
    (call : CreateCall) : Prop where
  /-- The identifier was drawn for the call, right before it. -/
  drawn : ∃ earlier, history = earlier ++ [.drawn call.pid]
  pid : call.metadata.pid = call.pid
  checksum : call.metadata.checksum = ⟨"MD5", Md5.hex call.content⟩
  accessPolicy : call.metadata.accessPolicy = [⟨["public"], [.read]⟩]
  rightsHolder : Identity.userId request.repositoryToken = .ok call.metadata.rightsHolder

/-- Whether a step gives objects to the repository. -/
def Step.sends : Step → Bool
  | .localObjects | .packageInfo | .license | .environment | .descriptiveRecord | .resourceMap =>
      true
  | .configure | .authenticate | .loadTale | .classify => false

/-- What a create call of a publication holds, in view of the step and of what happened
before it. -/
structure CreateCall.Fits (network : Network) (request : PublishRequest)
    (history : List Happening) (step : Step) (call : CreateCall) : Prop
    extends call.Sound request history where
  sends : step.sends = true
  /-- The file of an item of the request, which is not linked to: the call sends what the
  storage wrote for it, under its name and in its format. -/
  stored : step = .localObjects → ∃ (f : FoundItem) (scratch : Scratch) (earlier : List Happening),
    f.item ∈ request.items ∧ f.isAt network .stored = true ∧
      .called (.lookedUp f.item (.ok (some f.file))) ∈ earlier ∧
      history = earlier ++ [.called (.downloaded f.file.id (.ok scratch)), .drawn call.pid] ∧
      call.content = scratch.content ∧ call.metadata.formatId = f.file.mimeType ∧
      call.metadata.fileName = f.file.name
  /-- A package-info document is written over what storage and web told on the items. -/
  packageInfo : step = .packageInfo → ∃ tale found placed linked text,
    List.Forall₂ (calls history).Locates request.items found ∧
      List.Forall₂ (calls history).Places request.items placed ∧
      List.Forall₂ (calls history).Links (Classified.ofFound network found).external linked ∧
      (PackageInfo.ofTale tale (.ofList placed) (.ofList (linked.filterMap id))
        request.provenance).text = .ok text ∧
      call.content = Utf8.bytes text
  /-- A descriptive record is written for the identifier of the call, and names it. -/
  record : step = .descriptiveRecord →
    (∃ tale user entries sizes, DescriptiveRecord.document tale user entries call.pid sizes
      request.licenseId call.metadata.rightsHolder = .ok call.content) ∧
      Xml.rootValue? "packageId" call.content = some (.ok call.pid.text)
  /-- A resource map is written for the identifier of the call, and states it. -/
  map : step = .resourceMap →
    (∃ metadataPid objects,
      call.content = ResourceMap.toXml ⟨call.pid, metadataPid, objects⟩ network) ∧
      Xml.textOf? "dcterms:identifier" (Xml.events call.content).1 =
        some (.ok (Xml.trimmed call.pid.text))

/-- The call for a content with its record, behind the drawing of its identifier. -/
theorem CreateCall.sound_ofContent {request : PublishRequest} {rightsHolder : String}
    (named : Identity.userId request.repositoryToken = .ok rightsHolder)
    (earlier : List Happening) (pid : Pid) (content : Bytes) (formatId fileName : String)
    (size : Option Nat) :
    Sound request (earlier ++ [.drawn pid])
      ⟨pid, content, .ofContent content pid formatId fileName rightsHolder size⟩ where
  drawn := ⟨earlier, rfl⟩
  pid := rfl
  checksum := rfl
  accessPolicy := rfl
  rightsHolder := named

/-- The texts of licenses and the archives of environments are sent as they are. -/
theorem CreateCall.Sound.fits {network : Network} {request : PublishRequest}
    {history : List Happening} {step : Step} {call : CreateCall}
    (h : call.Sound request history) (plain : step = .license ∨ step = .environment) :
    call.Fits network request history step where
  toSound := h
  sends := by rcases plain with rfl | rfl <;> rfl
  stored := by rcases plain with rfl | rfl <;> rintro ⟨⟩
  packageInfo := by rcases plain with rfl | rfl <;> rintro ⟨⟩
  record := by rcases plain with rfl | rfl <;> rintro ⟨⟩
  map := by rcases plain with rfl | rfl <;> rintro ⟨⟩

/-- The digest of a scratch file is that of its content. -/
theorem Scratch.digest_hex {scratch : Scratch} {digest : StreamDigest}
    (h : scratch.digest = .ok digest) :
    digest = ⟨Md5.hex scratch.content, scratch.content.length⟩ := by
  rw [Scratch.digest] at h
  cases fault : scratch.chunkFault with
  | some e => rw [fault] at h; cases h
  | none =>
      rw [fault] at h
      simp only [OpenFile.digest_eq, Drained.toExcept] at h
      exact (Except.ok.inj h).symm

/-- What is read of a scratch file is its content. -/
theorem Scratch.read_eq {scratch : Scratch} {content : Bytes} (h : scratch.read = .ok content) :
    content = scratch.content := by
  rw [Scratch.read] at h
  cases fault : scratch.readFault with
  | some e => rw [fault] at h; cases h
  | none => rw [fault] at h; exact (Except.ok.inj h).symm

namespace Course

/-- The token names the user that the authentication gives. -/
theorem authentication_ok {token id : String} {trail : Trail PublishError}
    (along : authentication token trail (.ok id)) : Identity.userId token = .ok id := by
  obtain ⟨_, _, _, rfl, -, checked⟩ := bind_ok.mp along
  obtain ⟨rfl, said⟩ := check_iff.mp checked
  cases named : Identity.userId token with
  | error fault => rw [named] at said; cases said
  | ok id' => rw [named] at said; cases said; rfl

/-- What the calls along a trail say of the elements of two lists, they say behind all that
happened before. -/
theorem forall₂_behind {ε α β : Type} {R : Journal → α → β → Prop}
    (mono : ∀ {j j' a b}, R j a b → (∀ event ∈ j, event ∈ j') → R j' a b) {trail : Trail ε}
    {as : List α} {bs : List β} (told : List.Forall₂ (R trail.journal) as bs)
    (history : List Happening) :
    List.Forall₂ (R (calls (history ++ trail.happenings))) as bs :=
  told.imp fun _ _ h => mono h fun _ mem =>
    mem_calls.mpr (List.mem_append_right _ (mem_calls.mp mem))

/-- A course for each element, with what the answers tell on the elements. -/
theorem Sends.each_told {ε α β : Type} {allowed : Requirement}
    {I : List Happening → Prop} {c : α → Course ε β} {R : Journal → α → β → Prop} {as : List α}
    (mono : ∀ {j j' a b}, R j a b → (∀ event ∈ j, event ∈ j') → R j' a b)
    (single : ∀ {a trail b}, c a trail (.ok b) → R trail.journal a b)
    (h : ∀ a ∈ as, Sends allowed I (c a) fun _ => I) :
    Sends allowed I (Course.each c as) fun bs history =>
      I history ∧ List.Forall₂ (R (calls history)) as bs :=
  (Sends.each h).learn fun {history _ _} along =>
    forall₂_behind (R := R) mono (each_forall₂ (R := R) mono single along) history

theorem sends_prepared {allowed : Requirement} (network : Network) (request : PublishRequest) :
    Sends allowed (fun _ => True) (preparation network request)
      fun prepared => prepared.Known network request := by
  have always : Stable fun _ => True := fun _ _ _ => trivial
  refine ⟨fun holds along => (sends_preparation always ..).meets holds along, ?_⟩
  intro history trail prepared _ along
  obtain ⟨found, classified, located⟩ := preparation_found along
  obtain ⟨rightsHolder, _, _, rfl, authenticated, loaded⟩ := bind_ok.mp along
  obtain ⟨_, _, _, rfl, -, classifying⟩ := bind_ok.mp loaded
  obtain ⟨_, _, _, rfl, -, -, same⟩ := bind_ok.mp classifying
  cases same
  exact ⟨authentication_ok authenticated, found, classified,
    forall₂_behind (R := Journal.Locates) Journal.Locates.mono located history⟩

/-- The entries of the items are what the storage tells on their names and paths. -/
theorem pathEntry_places {step : Step} {id : String} {trail : Trail StorageError}
    {entry : String × String} (along : pathEntry step id trail (.ok entry)) :
    trail.journal.Places id entry := by
  obtain ⟨item, _, _, rfl, asked, along⟩ := bind_ok.mp along
  obtain ⟨path, _, _, rfl, ⟨answer, rfl, said⟩, rfl, same⟩ := bind_ok.mp along
  cases same
  obtain ⟨document, journal, read⟩ := record_ok asked
  cases answer with
  | error e => cases said
  | ok answer =>
      have told : World.pathOf id answer = .ok path := said.symm
      refine .placed ?_ read ?_ told
      · simp [journal]
      · simp [Trail.journal_cons, Happening.event?]

/-- The digest of a linked file is that of what was fetched. -/
theorem externalFile_ok {step : Step} {name url : String} {trail : Trail FetchError}
    {external : ExternalFile} (along : externalFile step name url trail (.ok external)) :
    ∃ scratch, .fetched url (.ok scratch) ∈ trail.journal ∧
      external = ⟨url, Md5.hex scratch.content⟩ := by
  obtain ⟨_, _, _, rfl, -, along⟩ := bind_ok.mp along
  obtain ⟨scratch, _, _, rfl, fetched, along⟩ := bind_ok.mp along
  obtain ⟨digest, _, _, rfl, checked, rfl, same⟩ := bind_ok.mp along
  cases same
  obtain ⟨_, ⟨answer, rfl, said⟩, rfl⟩ := rename_ok.mp fetched
  obtain rfl : answer = .ok scratch := said.symm
  obtain ⟨_, verdict, rfl⟩ := rename_ok.mp checked
  obtain ⟨-, digested⟩ := check_iff.mp verdict
  refine ⟨scratch, by simp [Trail.journal_cons, Happening.event?], ?_⟩
  cases opened : scratch.opened with
  | error e => rw [opened] at digested; cases digested
  | ok _ =>
      rw [opened] at digested
      rw [Scratch.digest_hex digested.symm]

/-- The entries of linked items are what storage and web tell on them. -/
theorem externalEntry_links {step : Step} {id : String} {trail : Trail FetchError}
    {linked? : Option (String × ExternalFile)} (along : externalEntry step id trail (.ok linked?)) :
    trail.journal.Links id linked? := by
  obtain ⟨file?, _, _, rfl, asked, entered⟩ := bind_ok.mp along
  obtain ⟨_, ⟨answer, rfl, said⟩, rfl⟩ := rename_ok.mp asked
  obtain rfl : answer = .ok file? := said.symm
  cases file? with
  | none =>
      obtain ⟨rfl, same⟩ := pure_iff.mp entered
      cases same
      refine Journal.Links.unlinked ?_ (Option.bind_none _)
      simp [Trail.journal_cons, Happening.event?]
  | some file =>
      cases link : file.externalUrl with
      | none =>
          simp only [linkOf, Option.bind_some, link, Option.map_none] at entered
          obtain ⟨rfl, same⟩ := pure_iff.mp entered
          cases same
          refine Journal.Links.unlinked ?_ ((Option.bind_some file _).trans link)
          simp [Trail.journal_cons, Happening.event?]
      | some url =>
          simp only [linkOf, Option.bind_some, link, Option.map_some] at entered
          obtain ⟨external, fetching, _, rfl, fetched, rfl, same⟩ := bind_ok.mp entered
          cases same
          obtain ⟨scratch, answered, rfl⟩ := externalFile_ok fetched
          refine .linked ?_ link ?_
          · simp [Trail.journal_cons, Happening.event?]
          · simp [Trail.journal_cons, answered]

variable {network : Network} {request : PublishRequest} {prepared : Prepared}

/-! ### The members -/

/-- The file of a stored item. -/
theorem sends_storedUpload {f : FoundItem} (mem : f ∈ prepared.classified.stored) :
    Sends (CreateCall.Fits network request) (prepared.Known network request)
      (storedUpload f.file prepared.rightsHolder) fun _ _ => True := by
  have stable := prepared.known_stable network request
  -- The download is the last thing that happens before an identifier is drawn.
  have downloads : Sends (CreateCall.Fits network request) (prepared.Known network request)
      (download .localObjects f.file.id) fun scratch history => ∃ earlier,
        history = earlier ++ [.called (.downloaded f.file.id (.ok scratch))] ∧
          prepared.Known network request earlier := by
    refine sends_ask _ (fun _ _ _ mem => by simp at mem) fun history answer scratch known said => ?_
    obtain rfl : answer = .ok scratch := said
    exact ⟨history, rfl, known⟩
  refine ((sends_scratch stable _).rename _).bind fun _ => (downloads.rename _).bind fun scratch =>
    (sends_drawPid _).bind fun pid => ((sends_check ..).rename _).bind fun _ =>
      ((sends_check ..).rename _).bind fun digest => ((sends_check ..).rename _).bind fun content =>
        (sends_upload fun history holds => ?_).rename _
  obtain ⟨read, digested, -, _, rfl, earlier, rfl, known⟩ := holds
  obtain rfl := Scratch.read_eq read
  obtain rfl := Scratch.digest_hex digested
  obtain ⟨item, there, looked⟩ := known.stored mem
  exact {
    toSound := CreateCall.sound_ofContent known.rightsHolder ..
    sends := rfl
    stored := fun _ => ⟨f, scratch, earlier, item, there, looked, by simp, rfl, rfl, rfl⟩
    packageInfo := by rintro ⟨⟩
    record := by rintro ⟨⟩
    map := by rintro ⟨⟩ }

/-- A file that was made for the package. -/
theorem sends_generatedUpload {step : Step} {file : GeneratedFile} {pid : Pid} {content : Bytes}
    {rightsHolder : String} {pre : List Happening → Prop}
    (fits : ∀ history, pre history → CreateCall.Fits network request history step ⟨pid, content,
      .ofContent content pid file.uploadFormat file.fileName rightsHolder none⟩) :
    Sends (CreateCall.Fits network request) pre
      (generatedUpload step file pid content rightsHolder) fun _ _ => True :=
  ((sends_upload fits).rename _).bind fun _ => sends_pure fun _ _ => trivial

/-- The paths of items, with what the storage told on them. -/
theorem sends_paths {allowed : Requirement} {I : List Happening → Prop} (stable : Stable I)
    (step : Step) (items : List String) :
    Sends allowed I (paths step items) fun paths history => I history ∧ ∃ placed,
      paths = .ofList placed ∧ List.Forall₂ (calls history).Places items placed := by
  have entries : Sends allowed I (each (pathEntry step) items) fun placed history =>
      I history ∧ List.Forall₂ (calls history).Places items placed :=
    Sends.each_told (R := Journal.Places) Journal.Places.mono pathEntry_places
      fun id _ => sends_pathEntry stable step id
  exact entries.bind fun placed =>
    sends_pure fun _ ⟨holds, told⟩ => ⟨holds, placed, rfl, told⟩

/-- The linked files of items, with what storage and web told on them. -/
theorem sends_externalFiles {allowed : Requirement} {I : List Happening → Prop}
    (stable : Stable I) (step : Step) (items : List String) :
    Sends allowed I (externalFiles step items) fun files history => I history ∧ ∃ linked,
      files = .ofList (linked.filterMap id) ∧
        List.Forall₂ (calls history).Links items linked := by
  have entries : Sends allowed I (each (externalEntry step) items) fun linked history =>
      I history ∧ List.Forall₂ (calls history).Links items linked :=
    Sends.each_told (R := Journal.Links) Journal.Links.mono externalEntry_links
      fun id _ => sends_externalEntry stable step id
  exact entries.bind fun linked =>
    sends_pure fun _ ⟨holds, told⟩ => ⟨holds, linked, rfl, told⟩

theorem sends_packageInfoUpload :
    Sends (CreateCall.Fits network request) (prepared.Known network request)
      (packageInfoUpload request prepared) fun _ _ => True := by
  have stable := prepared.known_stable network request
  -- What was told on the paths stays known while the links are followed.
  have stable' : ∀ paths : Dictionary String, Stable fun history =>
      prepared.Known network request history ∧ ∃ placed, paths = .ofList placed ∧
        List.Forall₂ (calls history).Places request.items placed := by
    rintro paths history more ⟨known, placed, rfl, told⟩
    exact ⟨stable history more known, placed, rfl,
      stable_forall₂ (R := Journal.Places) Journal.Places.mono _ _ history more told⟩
  refine ((sends_paths stable ..).rename _).bind fun paths =>
    ((sends_externalFiles (stable' paths) ..).rename _).bind fun files =>
      ((sends_check ..).rename _).bind fun text => (sends_drawPid _).bind fun pid =>
        sends_generatedUpload fun history holds => ?_
  obtain ⟨earlier, rfl, written, told, linked, rfl, links⟩ := holds
  obtain ⟨⟨rightsHolder, found, classified, located⟩, placed, rfl, places⟩ :=
    stable' paths earlier [.drawn pid] told
  rw [classified] at links
  exact {
    toSound := CreateCall.sound_ofContent rightsHolder ..
    sends := rfl
    stored := by rintro ⟨⟩
    packageInfo := fun _ => ⟨prepared.tale, found, placed, linked, text, located, places,
      stable_forall₂ (R := Journal.Links) Journal.Links.mono _ _ earlier _ links, written, rfl⟩
    record := by rintro ⟨⟩
    map := by rintro ⟨⟩ }

theorem sends_licenseUpload (directory licenseId : String) :
    Sends (CreateCall.Fits network request) (prepared.Known network request)
      (licenseUpload directory licenseId prepared.rightsHolder) fun _ _ => True := by
  have stable := prepared.known_stable network request
  refine ((sends_stable_check stable ..).rename _).bind fun _ =>
    (Sends.rename _ (sends_stable_ask stable _ _ fun _ _ _ => by simp)).bind fun _ =>
      (sends_drawPid _).bind fun _ => sends_generatedUpload fun history holds => ?_
  obtain ⟨earlier, rfl, known⟩ := holds
  exact (CreateCall.sound_ofContent known.rightsHolder ..).fits (.inl rfl)

theorem sends_environmentUpload (tale : Tale) :
    Sends (CreateCall.Fits network request) (prepared.Known network request)
      (environmentUpload tale prepared.rightsHolder) fun _ _ => True := by
  have stable := prepared.known_stable network request
  refine ((sends_archiveUrl stable ..).rename _).bind fun _ =>
    ((sends_scratch stable _).rename _).bind fun _ =>
      ((sends_fetch stable ..).rename _).bind fun _ =>
        (sends_drawPid _).bind fun _ => ((sends_check ..).rename _).bind fun _ =>
          sends_generatedUpload fun history holds => ?_
  obtain ⟨-, earlier, rfl, known⟩ := holds
  exact (CreateCall.sound_ofContent known.rightsHolder ..).fits (.inr rfl)

theorem sends_memberUploads (config : Config) :
    Sends (CreateCall.Fits network request) (prepared.Known network request)
      (memberUploads config request prepared) fun _ => prepared.Known network request := by
  have stable := prepared.known_stable network request
  refine (Sends.each fun f mem => ?_).bind fun _ =>
    (sends_packageInfoUpload.stays stable).bind fun _ =>
      ((sends_licenseUpload ..).bestEffort stable _).bind fun _ =>
        ((sends_environmentUpload _).bestEffort stable _).bind fun _ =>
          sends_pure fun _ known => known
  exact ((sends_storedUpload mem).bestEffort stable _).bind fun _ =>
    sends_pure fun _ known => known

/-! ### Record and map -/

theorem sends_recordUpload (members : Members) :
    Sends (CreateCall.Fits network request) (prepared.Known network request)
      (recordUpload request prepared members) fun _ _ => True := by
  have stable := prepared.known_stable network request
  refine (Sends.rename _ (Sends.each fun _ _ => sends_objectEntry stable ..)).bind fun entries =>
    (sends_drawPid _).bind fun pid => ((sends_check ..).rename _).bind fun document =>
      (sends_upload fun history holds => ?_).rename _
  obtain ⟨written, earlier, rfl, known⟩ := holds
  exact {
    toSound := CreateCall.sound_ofContent known.rightsHolder ..
    sends := rfl
    stored := by rintro ⟨⟩
    packageInfo := by rintro ⟨⟩
    record := fun _ => ⟨⟨_, _, entries, _, written⟩, DescriptiveRecord.packageId_document written⟩
    map := by rintro ⟨⟩ }

theorem sends_mapUpload (pid metadataPid : Pid) (objects : List (Option Pid)) :
    Sends (CreateCall.Fits network request)
      (fun history => ∃ earlier, history = earlier ++ [.drawn pid] ∧
        prepared.Known network request earlier)
      (mapUpload network pid metadataPid objects prepared.rightsHolder) fun _ _ => True := by
  refine ((sends_upload fun history holds => ?_).rename _).bind fun _ =>
    sends_pure fun _ _ => trivial
  obtain ⟨earlier, rfl, known⟩ := holds
  exact {
    toSound := CreateCall.sound_ofContent known.rightsHolder ..
    sends := rfl
    stored := by rintro ⟨⟩
    packageInfo := by rintro ⟨⟩
    record := by rintro ⟨⟩
    map := fun _ => ⟨⟨metadataPid, _, rfl⟩, ResourceMap.identifier_toXml _ network⟩ }

/-! ### The whole publication -/

/-- Along a publication, every create call fits. -/
theorem sends_publication (config : Config) (request : PublishRequest) :
    Sends (CreateCall.Fits config.effectiveNetwork request) (fun _ => True)
      (publication config request) fun _ _ => True := by
  have always : Stable fun _ => True := fun _ _ _ => trivial
  exact ((sends_stable_check always ..).rename _).bind fun _ =>
    (sends_prepared ..).bind fun prepared => (sends_memberUploads config).bind fun members =>
      ((sends_recordUpload members).stays (prepared.known_stable _ _)).bind fun metadataPid =>
        (sends_drawPid _).bind fun mapPid =>
          (sends_mapUpload mapPid metadataPid members.pids).bind fun _ =>
            sends_pure fun _ _ => trivial

end Course

namespace World

/-- Every create call of a publication is consistent in itself, whether the publication
succeeds or not: identifier, digest and rights in its record are those of the call, and the
content is that of the object which the step sends. If the identifiers that are drawn differ,
no two calls have the same. -/
theorem publish_calls_fit (w : World) (config : Config) (request : PublishRequest)
    (s : Session) :
    ∃ trail seconds result s', w.publish config request s = (result, s') ∧
      s' = s.extend (trail.happenings ++ [.measured (.publication (outcome result) seconds)]) ∧
      Course.publication config request trail result ∧
      (∀ (before : Trail PublishError) m after call answer, trail = before ++ m :: after →
        .called (.created call answer) ∈ m.happenings →
          call.Fits config.effectiveNetwork request before.happenings m.step) ∧
      (trail.drawn.Nodup → (trail.journal.creations.map (·.pid)).Nodup) := by
  obtain ⟨trail, seconds, result, s', published, along, moved⟩ := w.publish_trail config request s
  have meets : Trail.Meets
      (CreateCall.Fits config.effectiveNetwork request) [] trail :=
    (Course.sends_publication config request).meets trivial along
  refine ⟨trail, seconds, result, s', published, moved, along, ?_, fun distinct => ?_⟩
  · rintro before m after call answer rfl called
    exact meets.allows called
  · exact (meets.creations_sublist fun fits => fits.drawn).nodup distinct

end World

end Deposit
