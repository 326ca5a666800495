import Deposit.Proofs.Publication.Calls
import Deposit.Proofs.Publication.Generated

/-!
The descriptions of a stored file: its system metadata, and the entry of its item in the
descriptive record.

The two are made of different records of the storage. The system metadata has name, size and
format of the file that was found when the items were classified, whatever the length of what
the storage then wrote (`CreateCall.Copies`). The entry has name and size of the item, and the
format of the file that is found when the items are described.

* `Course.storedUpload_copies`: what is given to the repository for a stored file.
* `publish_describes_stored`: exactly when the descriptions of a stored file agree.
-/

namespace Deposit

/-- A call gives a file of the storage to the repository, as a download left it. -/
structure CreateCall.Copies (file : FileObject) (scratch : Scratch) (call : CreateCall) :
    Prop where
  content : call.content = scratch.content
  checksum : call.metadata.checksum = ⟨"MD5", Md5.hex scratch.content⟩
  fileName : call.metadata.fileName = file.name
  size : call.metadata.size = file.size
  formatId : call.metadata.formatId = file.mimeType

/-- The descriptions of an object agree: its content, its system metadata, and an entry of the
descriptive record. -/
structure CreateCall.AgreesWith (call : CreateCall) (entry : ObjectEntry) : Prop where
  length : call.metadata.size = call.content.length
  name : entry.name = call.metadata.fileName
  size : entry.size = call.metadata.size
  format : entry.format = call.metadata.formatId

/-- The records of the storage on an item agree: the file that was found first, what was
downloaded of it, the item, and the file that was found later. -/
structure Item.Coherent (file : FileObject) (scratch : Scratch) (item : Item)
    (later? : Option FileObject) : Prop where
  length : file.size = scratch.content.length
  name : item.name = file.name
  size : item.size = file.size
  format : (later?.map (·.mimeType)).getD FileObject.defaultMimeType = file.mimeType

namespace Course

/-- For a stored file the repository takes one object: what the storage wrote, under the name
and the format, and with the size, that the storage has on record. -/
theorem storedUpload_copies {file : FileObject} {rightsHolder : String}
    {trail : Trail PublishError} {pid : Pid}
    (along : storedUpload file rightsHolder trail (.ok pid)) :
    ∃ scratch call, .downloaded file.id (.ok scratch) ∈ trail.journal ∧
      trail.journal.accepted = [call] ∧ call.Copies file scratch := by
  obtain ⟨_, made, _, rfl, room, along⟩ := bind_ok.mp along
  obtain ⟨scratch, downloading, _, rfl, downloaded, along⟩ := bind_ok.mp along
  obtain ⟨pid', drawing, _, rfl, drawn, along⟩ := bind_ok.mp along
  obtain ⟨_, opening, _, rfl, opened, along⟩ := bind_ok.mp along
  obtain ⟨digest, digesting, _, rfl, digested, along⟩ := bind_ok.mp along
  obtain ⟨content, reading, uploading, rfl, read, uploaded⟩ := bind_ok.mp along
  -- Up to the upload nothing is given to the repository.
  have taken : (made ++ (downloading ++ (drawing ++ (opening ++ (digesting ++
      (reading ++ uploading)))))).journal.accepted = uploading.journal.accepted := by
    rw [((silent_scratch _).rename _).quiet.accepted_append room,
      ((silent_download ..).rename _).quiet.accepted_append downloaded,
      (silent_drawPid _).quiet.accepted_append drawn,
      ((silent_check ..).rename _).quiet.accepted_append opened,
      ((silent_check ..).rename _).quiet.accepted_append digested,
      ((silent_check ..).rename _).quiet.accepted_append read]
  have event : .downloaded file.id (.ok scratch) ∈ downloading.journal := by
    obtain ⟨_, ⟨_, rfl, rfl⟩, rfl⟩ := rename_ok.mp downloaded
    exact List.mem_cons_self
  obtain ⟨_, verdict, -⟩ := rename_ok.mp digested
  obtain rfl := Scratch.digest_hex (check_iff.mp verdict).2.symm
  obtain ⟨_, verdict', -⟩ := rename_ok.mp read
  obtain rfl := Scratch.read_eq (check_iff.mp verdict').2.symm
  obtain ⟨_, ⟨answer, rfl, said⟩, rfl⟩ := rename_ok.mp uploaded
  cases answer with
  | error e => cases said
  | ok _ => exact ⟨scratch, _, by simp [event], taken, rfl, rfl, rfl, rfl, rfl⟩

/-- Whatever the repository takes for an item is a copy of its file. -/
theorem itemUpload_copies {rightsHolder : String} {f : FoundItem} {trail : Trail PublishError}
    {outcome : StoredOutcome} (along : itemUpload rightsHolder f trail (.ok outcome))
    {call : CreateCall} (mem : call ∈ trail.journal.accepted) :
    ∃ scratch, .downloaded f.file.id (.ok scratch) ∈ trail.journal ∧
      call.Copies f.file scratch := by
  obtain ⟨pid?, attempt, _, rfl, attempted, rfl, same⟩ := bind_ok.mp along
  rw [List.append_nil] at mem ⊢
  rcases attempted with ⟨pid, uploaded, -⟩ | ⟨e, before, failed, -, rfl⟩
  · obtain ⟨scratch, call', downloaded, taken, copies⟩ := storedUpload_copies uploaded
    rw [taken] at mem
    obtain rfl := List.mem_singleton.mp mem
    exact ⟨scratch, downloaded, copies⟩
  · have nothing := accepted_eq_nil ((delivers_storedUpload ..).refused failed)
    rw [Trail.journal_append, Journal.accepted_append, nothing] at mem
    cases mem

end Course

/-- The descriptions of a copy agree exactly if the records do that they are made of. -/
theorem CreateCall.Copies.agreesWith_iff {call : CreateCall} {file : FileObject}
    {scratch : Scratch} (copies : call.Copies file scratch) (item : Item) (description : String)
    (later? : Option FileObject) :
    call.AgreesWith ⟨item.name, description, item.size,
        (later?.map (·.mimeType)).getD FileObject.defaultMimeType⟩ ↔
      item.Coherent file scratch later? := by
  obtain ⟨content, -, fileName, size, formatId⟩ := copies
  constructor
  · rintro ⟨length, name, same, format⟩
    rw [size, content] at length
    rw [fileName] at name
    rw [size] at same
    rw [formatId] at format
    exact ⟨length, name, same, format⟩
  · rintro ⟨length, name, same, format⟩
    refine ⟨?_, name.trans fileName.symm, same.trans size.symm, format.trans formatId.symm⟩
    rw [size, content, length]

/-- **The descriptions of the stored files of a package.**

For a publication that succeeds, the repository takes for a stored item what the storage wrote
for its file, under the name, in the format and with the size on record. So the size in the
system metadata is the length of the content exactly if the size on record is. An entry that
describes the item in the record has the name and the size of the item, and the format of the
file that is found then. So content, system metadata and entry agree exactly if the records of
the storage do; the formats agree whenever the storage answers all questions about the file of
the item alike. -/
theorem World.publish_describes_stored (w : World) (config : Config)
    (request : PublishRequest) (s : Session) :
    ∃ trail seconds result s', w.publish config request s = (result, s') ∧
      s' = s.extend (trail.happenings ++ [.measured (.publication (outcome result) seconds)]) ∧
      Course.publication config request trail result ∧
      ∀ report, result = .ok report → ∃ found ids entries,
        ∃ uploads : List (FoundItem × Trail PublishError),
        List.Forall₂ trail.journal.Locates request.items found ∧
        uploads.map (·.1) = found.filter (·.isAt config.effectiveNetwork .stored) ∧
        (uploads.map (·.2)).flatten = trail.ofStep .localObjects ∧
        trail.Records request.licenseId report.metadataPid entries ∧
        ids.Subperm request.items ∧
        List.Forall₂ (trail.ofStep .descriptiveRecord).journal.Tells ids entries ∧
        ∀ f part, (f, part) ∈ uploads → ∀ call ∈ part.journal.accepted,
          ∃ scratch, .downloaded f.file.id (.ok scratch) ∈ part.journal ∧
            call.Copies f.file scratch ∧
            (call.metadata.size = call.content.length ↔
              f.file.size = scratch.content.length) ∧
            ∀ entry, (f.item, entry) ∈ ids.zip entries → ∃ document item later?,
              .read ("item/" ++ f.item) (.ok document) ∈
                (trail.ofStep .descriptiveRecord).journal ∧
              Item.ofJson document = .ok item ∧
              .lookedUp f.item (.ok later?) ∈ (trail.ofStep .descriptiveRecord).journal ∧
              (call.AgreesWith entry ↔ item.Coherent f.file scratch later?) ∧
              (trail.journal.Consistent → entry.format = call.metadata.formatId) := by
  obtain ⟨trail, seconds, result, s', published, along, moved⟩ := w.publish_trail config request s
  refine ⟨trail, seconds, result, s', published, moved, along, ?_⟩
  rintro report rfl
  obtain ⟨prepared, members, parts, -, -⟩ := Course.publication_parts along
  obtain ⟨found, classified, located⟩ := parts.found
  obtain ⟨entries, document, told, written, taken⟩ := parts.recorded
  obtain ⟨uploads, items, marks, uploaded, -⟩ := Course.storedUploads_marks parts.stored
  refine ⟨found, members.described prepared.classified, entries, uploads, located, ?_, marks,
    ⟨_, _, _, _, document, written, taken⟩, ?_, told, ?_⟩
  · rw [items, classified, Classified.ofFound_eq]
  · rw [classified]
    exact members.described_subperm located
  · intro f part mem call accepted
    obtain ⟨outcome, upload, -⟩ := uploaded _ mem
    obtain ⟨scratch, downloaded, copies⟩ := Course.itemUpload_copies upload accepted
    refine ⟨scratch, downloaded, copies, by rw [copies.size, copies.content], ?_⟩
    intro entry entered
    obtain ⟨document, item, later?, asked, read, looked, rfl⟩ := List.forall₂_zip told entered
    refine ⟨document, item, later?, asked, read, looked, copies.agreesWith_iff .., ?_⟩
    intro consistent
    have mem : f ∈ found := by
      have stored : f ∈ uploads.map (·.1) := List.mem_map.mpr ⟨_, mem, rfl⟩
      rw [items, classified, Classified.ofFound_eq] at stored
      exact (List.mem_filter.mp stored).1
    have earlier := ((Journal.locates_all located).2 f mem).2
    have later := (Trail.journal_ofStep_sublist _ trail).subset looked
    cases consistent.file f.item _ _ later earlier
    exact copies.formatId.symm

/-! ### A size that is out of date -/

/-- The publication of a tale with one item that has five bytes on record, of which the storage
writes three. -/
def outdatedSize : Except PublishError PublishReport × Session :=
  (World.willing
    (soilMoisture ++
      [("item/item1", .obj [("_id", .str "item1"), ("name", .str "a.csv"), ("size", .ofNat 5)]),
        ("resource/item1/path?type=item", .str "/collection/a.csv")])
    ⟨"file1", "a.csv", 5, "text/csv", none⟩ [0x78, 0x2C, 0x79] []).publish .default
    (soilMoistureRequest ["item1"]) .start

/-- The system metadata of a file has the size on record, and not that of its content. -/
theorem outdatedSize_disagrees :
    outdatedSize.1.isOk = true ∧
      ∃ call ∈ outdatedSize.2.journal.accepted, call.metadata.fileName = "a.csv" ∧
        call.metadata.size = 5 ∧ call.content = [0x78, 0x2C, 0x79] := by
  decide +kernel

end Deposit
