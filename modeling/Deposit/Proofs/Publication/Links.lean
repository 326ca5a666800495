import Deposit.Proofs.Classification
import Deposit.Proofs.Publication.Acts
import Deposit.Proofs.Publication.Calls
import Deposit.Proofs.Text.Dictionary

/-!
How the linked files of items are collected.

The items are visited one after the other. An item is passed if it has no file with a link, or if
the content of its link is fetched and its digest taken (`World.Visits`), and a visit makes one
entry of the collected files at most (`Visit.collected?`). If an item is not passed, the
collecting stops there (`World.Stops`).

* `collectExternalFiles_eq_ok_iff`, `collectExternalFiles_eq_error_iff`: how the collecting ends.
* `Visit.mem_names`, `Visit.lookup_eq_some_iff`: what is collected, if all items are visited.
-/

namespace Deposit

/-! ### Visits -/

/-- What comes of an item that is passed. -/
inductive Visit where
  /-- It has no file, or one without a link. -/
  | unlinked (item : String) (file? : Option FileObject)
  /-- The content of the link of its file is fetched into a scratch file. -/
  | linked (item : String) (file : FileObject) (link : String) (scratch : Scratch)

namespace Visit

/-- The item that is visited. -/
def item : Visit → String
  | unlinked item _ => item
  | linked item _ _ _ => item

/-- What happens at the item: one lookup, and one fetch of the trimmed link if there is one. -/
def happenings : Visit → List Happening
  | unlinked item file? => [.called (.lookedUp item (.ok file?))]
  | linked item file link scratch =>
    [.called (.lookedUp item (.ok (some file))), .scratchMade (.ok ()),
      .called (.fetched (Blank.trim link) (.ok scratch))]

/-- The entry of a linked file: its name, with the trimmed link and the digest of what the fetch
wrote. -/
def collected? : Visit → Option (String × ExternalFile)
  | unlinked _ _ => none
  | linked _ file link scratch => some (file.name, ⟨Blank.trim link, Md5.hex scratch.content⟩)

end Visit

/-- The session behind the lookup of an item. -/
abbrev Session.lookedUp (s : Session) (item : String)
    (answer : Except StorageError (Option FileObject)) : Session :=
  s.extend [.called (.lookedUp item answer)]

theorem Session.lookedUp_extend (s : Session) (item : String)
    (answer : Except StorageError (Option FileObject)) (more : List Happening) :
    (s.lookedUp item answer).extend more = s.extend (.called (.lookedUp item answer) :: more) :=
  extend_extend ..

namespace World

variable {w : World} {s s' : Session} {item : String}

/-- The storage tells that an item has no file with a link. -/
structure Unlinked (w : World) (s : Session) (item : String) (file? : Option FileObject) :
    Prop where
  looked : w.fileAnswer s.journal item = .ok file?
  blank : ∀ file link, file? = some file → file.linkUrl = some link →
    Blank.isBlankText link = true

/-- The storage tells that an item has a file with a link. -/
structure Linked (w : World) (s : Session) (item : String) (file : FileObject) (link : String) :
    Prop where
  looked : w.fileAnswer s.journal item = .ok (some file)
  linked : file.linkUrl = some link
  filled : Blank.isBlankText link = false

/-- An item is passed in a session. -/
inductive Visits (w : World) (s : Session) : Visit → Prop where
  | unlinked {item : String} {file? : Option FileObject} :
      w.Unlinked s item file? → Visits w s (.unlinked item file?)
  | linked {item : String} {file : FileObject} {link : String} {scratch : Scratch} :
      w.Linked s item file link →
      w.scratchFile (s.lookedUp item (.ok (some file))) = .ok () →
      w.fetchAnswer (s.lookedUp item (.ok (some file))).journal (Blank.trim link) = .ok scratch →
      (scratch.opened.bind fun _ => scratch.digest).isOk = true →
      Visits w s (.linked item file link scratch)

/-- The collecting stops at an item, with what still happens and the failure. -/
inductive Stops (w : World) (s : Session) (item : String) :
    List Happening → FetchError → Prop where
  /-- The lookup fails. -/
  | lookup {e : StorageError} : w.fileAnswer s.journal item = .error e →
      Stops w s item [.called (.lookedUp item (.error e))] (.storage e)
  /-- There is no room for the content of the link. -/
  | room {file : FileObject} {link : String} {fault : FileError} :
      w.Linked s item file link →
      w.scratchFile (s.lookedUp item (.ok (some file))) = .error fault →
      Stops w s item [.called (.lookedUp item (.ok (some file))), .scratchMade (.error fault)]
        (.io fault)
  /-- The fetch fails. -/
  | fetch {file : FileObject} {link : String} {e : FetchError} :
      w.Linked s item file link →
      w.scratchFile (s.lookedUp item (.ok (some file))) = .ok () →
      w.fetchAnswer (s.lookedUp item (.ok (some file))).journal (Blank.trim link) = .error e →
      Stops w s item
        [.called (.lookedUp item (.ok (some file))), .scratchMade (.ok ()),
          .called (.fetched (Blank.trim link) (.error e))]
        (.download file.name (Blank.trim link) e.message)
  /-- What was fetched cannot be read. -/
  | reading {file : FileObject} {link : String} {scratch : Scratch} {fault : FileError} :
      w.Linked s item file link →
      w.scratchFile (s.lookedUp item (.ok (some file))) = .ok () →
      w.fetchAnswer (s.lookedUp item (.ok (some file))).journal (Blank.trim link) = .ok scratch →
      (scratch.opened.bind fun _ => scratch.digest) = .error fault →
      Stops w s item
        [.called (.lookedUp item (.ok (some file))), .scratchMade (.ok ()),
          .called (.fetched (Blank.trim link) (.ok scratch))]
        (.io fault)

/-! ### One file -/

theorem journal_scratchMade (s : Session) (answer : Except FileError Unit) :
    (s.extend [.scratchMade answer]).journal = s.journal := by
  rw [Session.journal_extend]
  exact List.append_nil _

/-- A digest that can be taken is that of the content. -/
theorem hex_of_read {scratch : Scratch} {digest : StreamDigest}
    (read : (scratch.opened.bind fun _ => scratch.digest) = .ok digest) :
    digest.hex = Md5.hex scratch.content := by
  cases opened : scratch.opened with
  | error fault => rw [opened] at read; cases read
  | ok _ =>
      rw [opened] at read
      rw [Scratch.digest_hex read]

/-- A file is fetched exactly if there is room, the web gives the content, and it can be read. -/
theorem externalFile_eq_ok_iff {name url : String} {external : ExternalFile} :
    w.externalFile name url s = (.ok external, s') ↔
      ∃ scratch, w.scratchFile s = .ok () ∧ w.fetchAnswer s.journal url = .ok scratch ∧
        (scratch.opened.bind fun _ => scratch.digest).isOk = true ∧
        external = ⟨url, Md5.hex scratch.content⟩ ∧
        s' = s.extend [.scratchMade (.ok ()), .called (.fetched url (.ok scratch))] := by
  simp only [externalFile, Act.bind_eq_ok_iff, Act.rename_eq_ok_iff, Act.pure_eq_iff, scratch,
    fetch, Act.ask_eq_iff, Act.call_eq_iff, Act.ofExcept_eq_iff]
  constructor
  · rintro ⟨_, _, ⟨room, rfl⟩, scratch, _, ⟨fetched, rfl⟩, digest, _, ⟨read, rfl⟩, rfl, rfl⟩
    rw [journal_scratchMade] at fetched
    exact ⟨scratch, room, fetched, by rw [read]; rfl, by rw [hex_of_read read], by simp⟩
  · rintro ⟨scratch, room, fetched, readable, rfl, rfl⟩
    cases read : scratch.opened.bind fun _ => scratch.digest with
    | error fault => rw [read] at readable; cases readable
    | ok digest =>
        refine ⟨(), _, ⟨room, rfl⟩, scratch, _, ⟨?_, rfl⟩, digest, _, ⟨read, rfl⟩, ?_, by simp⟩
        · rw [journal_scratchMade, fetched]
        · rw [hex_of_read read]

/-- Fetching a file fails exactly if there is no room, the fetch fails, or what was fetched
cannot be read. -/
theorem externalFile_eq_error_iff {name url : String} {e : FetchError} :
    w.externalFile name url s = (.error e, s') ↔
      (∃ fault, w.scratchFile s = .error fault ∧ e = .io fault ∧
        s' = s.extend [.scratchMade (.error fault)]) ∨
      (∃ reason, w.scratchFile s = .ok () ∧ w.fetchAnswer s.journal url = .error reason ∧
        e = .download name url reason.message ∧
        s' = s.extend [.scratchMade (.ok ()), .called (.fetched url (.error reason))]) ∨
      ∃ scratch fault, w.scratchFile s = .ok () ∧ w.fetchAnswer s.journal url = .ok scratch ∧
        (scratch.opened.bind fun _ => scratch.digest) = .error fault ∧ e = .io fault ∧
        s' = s.extend [.scratchMade (.ok ()), .called (.fetched url (.ok scratch))] := by
  simp only [externalFile, Act.bind_eq_error_iff, Act.rename_eq_ok_iff, Act.rename_eq_error_iff,
    scratch, fetch, Act.ask_eq_iff, Act.call_eq_iff, Act.ofExcept_eq_iff, Act.pure_ne_error,
    and_false, exists_false, or_false]
  constructor
  · rintro (⟨fault, ⟨room, rfl⟩, rfl⟩ | ⟨_, _, ⟨room, rfl⟩, ⟨reason, ⟨fetched, rfl⟩, rfl⟩ |
      ⟨scratch, _, ⟨fetched, rfl⟩, fault, ⟨read, rfl⟩, rfl⟩⟩)
    · exact .inl ⟨fault, room, rfl, rfl⟩
    · rw [journal_scratchMade] at fetched
      exact .inr (.inl ⟨reason, room, fetched, rfl, by simp⟩)
    · rw [journal_scratchMade] at fetched
      exact .inr (.inr ⟨scratch, fault, room, fetched, read, rfl, by simp⟩)
  · rintro (⟨fault, room, rfl, rfl⟩ | ⟨reason, room, fetched, rfl, rfl⟩ |
      ⟨scratch, fault, room, fetched, read, rfl, rfl⟩)
    · exact .inl ⟨fault, ⟨room, rfl⟩, rfl⟩
    · refine .inr ⟨(), _, ⟨room, rfl⟩, .inl ⟨reason, ⟨?_, by simp⟩, rfl⟩⟩
      rw [journal_scratchMade, fetched]
    · refine .inr ⟨(), _, ⟨room, rfl⟩, .inr ⟨scratch, _, ⟨?_, rfl⟩, fault, ⟨read, by simp⟩, rfl⟩⟩
      rw [journal_scratchMade, fetched]

/-! ### One item -/

/-- The lookup of an item fails, or tells no link, or one. -/
theorem lookup_cases (w : World) (s : Session) (item : String) :
    (∃ e, w.fileAnswer s.journal item = .error e) ∨ (∃ file?, w.Unlinked s item file?) ∨
      ∃ file link, w.Linked s item file link := by
  rcases looked : w.fileAnswer s.journal item with e | _ | file
  · exact .inl ⟨e, rfl⟩
  · exact .inr (.inl ⟨none, looked, fun _ _ same => by cases same⟩)
  · refine .inr ?_
    cases link : file.linkUrl with
    | none => exact .inl ⟨some file, looked, fun _ _ same linked => by
        cases same
        rw [link] at linked
        cases linked⟩
    | some url =>
        cases filled : Blank.isBlankText url with
        | false => exact .inr ⟨file, url, looked, link, filled⟩
        | true => exact .inl ⟨some file, looked, fun _ _ same linked => by
            cases same
            rw [link] at linked
            cases linked
            exact filled⟩

theorem file?_eq_iff {answer : Except StorageError (Option FileObject)} :
    w.file? item s = (answer, s') ↔
      w.fileAnswer s.journal item = answer ∧ s' = s.lookedUp item answer :=
  Act.call_eq_iff

theorem externalEntry_of_error {e : StorageError}
    (failed : w.fileAnswer s.journal item = .error e) :
    w.externalEntry item s = (.error (.storage e), s.lookedUp item (.error e)) :=
  Act.bind_eq_error_iff.mpr <| .inl <| Act.rename_eq_error_iff.mpr
    ⟨e, file?_eq_iff.mpr ⟨failed, rfl⟩, rfl⟩

theorem Unlinked.externalEntry {file? : Option FileObject} (h : w.Unlinked s item file?) :
    w.externalEntry item s = (.ok none, s.lookedUp item (.ok file?)) := by
  have found : (w.file? item).rename FetchError.storage s =
      (.ok file?, s.lookedUp item (.ok file?)) :=
    Act.rename_eq_ok_iff.mpr (file?_eq_iff.mpr ⟨h.looked, rfl⟩)
  have none : (file?.bind fun file => file.externalUrl.map fun url => (file.name, url)) = none := by
    cases file? with
    | none => rfl
    | some file =>
        rw [Option.bind_some, FileObject.externalUrl_eq_none_iff.mpr fun link linked =>
          h.blank file link rfl linked]
        rfl
  refine (Act.bind_of_ok found _).trans ?_
  rw [none]
  rfl

/-- The file of a link is fetched behind the lookup. -/
theorem Linked.externalEntry {file : FileObject} {link : String} (h : w.Linked s item file link) :
    w.externalEntry item s =
      (w.externalFile file.name (Blank.trim link) >>= fun external =>
        (pure (some (file.name, external)) : Act FetchError _))
          (s.lookedUp item (.ok (some file))) := by
  have found : (w.file? item).rename FetchError.storage s =
      (.ok (some file), s.lookedUp item (.ok (some file))) :=
    Act.rename_eq_ok_iff.mpr (file?_eq_iff.mpr ⟨h.looked, rfl⟩)
  have url : file.externalUrl = some (Blank.trim link) :=
    FileObject.externalUrl_eq_some_iff.mpr ⟨link, h.linked, h.filled, rfl⟩
  refine (Act.bind_of_ok found _).trans ?_
  simp only [Option.bind_some, url, Option.map_some]

/-- An item is passed exactly if it is visited. -/
theorem externalEntry_eq_ok_iff {external? : Option (String × ExternalFile)} :
    w.externalEntry item s = (.ok external?, s') ↔
      ∃ v, w.Visits s v ∧ v.item = item ∧ v.collected? = external? ∧
        s' = s.extend v.happenings := by
  constructor
  · intro passed
    rcases w.lookup_cases s item with ⟨e, failed⟩ | ⟨file?, none⟩ | ⟨file, link, linked⟩
    · rw [externalEntry_of_error failed] at passed
      cases passed
    · rw [none.externalEntry] at passed
      cases passed
      exact ⟨_, .unlinked none, rfl, rfl, rfl⟩
    · rw [linked.externalEntry] at passed
      obtain ⟨external, _, fetched, entered⟩ := Act.bind_eq_ok_iff.mp passed
      obtain ⟨rfl, rfl⟩ := Act.pure_eq_iff.mp entered
      obtain ⟨scratch, room, answered, readable, rfl, rfl⟩ := externalFile_eq_ok_iff.mp fetched
      exact ⟨_, .linked linked room answered readable, rfl, rfl, Session.lookedUp_extend ..⟩
  · rintro ⟨_, visited, rfl, rfl, rfl⟩
    cases visited with
    | unlinked none => exact none.externalEntry
    | linked linked room answered readable =>
        refine linked.externalEntry.trans (Act.bind_eq_ok_iff.mpr ⟨_, _,
          externalFile_eq_ok_iff.mpr ⟨_, room, answered, readable, rfl, rfl⟩,
          Act.pure_eq_iff.mpr ⟨rfl, Session.lookedUp_extend ..⟩⟩)

/-- An item is not passed exactly if the collecting stops at it. -/
theorem externalEntry_eq_error_iff {e : FetchError} :
    w.externalEntry item s = (.error e, s') ↔
      ∃ more, w.Stops s item more e ∧ s' = s.extend more := by
  constructor
  · intro stuck
    rcases w.lookup_cases s item with ⟨e, failed⟩ | ⟨file?, none⟩ | ⟨file, link, linked⟩
    · rw [externalEntry_of_error failed] at stuck
      cases stuck
      exact ⟨_, .lookup failed, rfl⟩
    · rw [none.externalEntry] at stuck
      cases stuck
    · rw [linked.externalEntry] at stuck
      rcases Act.bind_eq_error_iff.mp stuck with failed | ⟨_, _, -, entered⟩
      · rcases externalFile_eq_error_iff.mp failed with ⟨fault, room, rfl, rfl⟩ |
          ⟨reason, room, answered, rfl, rfl⟩ | ⟨scratch, fault, room, answered, read, rfl, rfl⟩
        · exact ⟨_, .room linked room, Session.lookedUp_extend ..⟩
        · exact ⟨_, .fetch linked room answered, Session.lookedUp_extend ..⟩
        · exact ⟨_, .reading linked room answered read, Session.lookedUp_extend ..⟩
      · exact absurd entered Act.pure_ne_error
  · rintro ⟨_, stopped, rfl⟩
    cases stopped with
    | lookup failed => exact externalEntry_of_error failed
    | room linked room =>
        refine linked.externalEntry.trans (Act.bind_eq_error_iff.mpr (.inl ?_))
        exact externalFile_eq_error_iff.mpr
          (.inl ⟨_, room, rfl, (Session.lookedUp_extend ..).symm⟩)
    | fetch linked room answered =>
        refine linked.externalEntry.trans (Act.bind_eq_error_iff.mpr (.inl ?_))
        exact externalFile_eq_error_iff.mpr
          (.inr (.inl ⟨_, room, answered, rfl, (Session.lookedUp_extend ..).symm⟩))
    | reading linked room answered read =>
        refine linked.externalEntry.trans (Act.bind_eq_error_iff.mpr (.inl ?_))
        exact externalFile_eq_error_iff.mpr
          (.inr (.inr ⟨_, _, room, answered, read, rfl, (Session.lookedUp_extend ..).symm⟩))

/-! ### All items -/

/-- Items are visited one after the other. -/
inductive Collects (w : World) : Session → List Visit → Prop where
  | none (s : Session) : Collects w s []
  | visit {s : Session} {v : Visit} {visits : List Visit} :
      w.Visits s v → Collects w (s.extend v.happenings) visits → Collects w s (v :: visits)

/-- Items are passed exactly if they are visited one after the other. -/
theorem passes_externalEntry_iff {items : List String}
    {entries : List (Option (String × ExternalFile))} :
    Act.Passes w.externalEntry s items entries s' ↔
      ∃ visits, w.Collects s visits ∧ visits.map (·.item) = items ∧
        visits.map (·.collected?) = entries ∧ s' = s.extend (visits.flatMap (·.happenings)) := by
  constructor
  · intro passed
    induction passed with
    | none s => exact ⟨[], .none s, rfl, rfl, (s.extend_nil).symm⟩
    | one first _ ih =>
        obtain ⟨v, visited, rfl, rfl, rfl⟩ := externalEntry_eq_ok_iff.mp first
        obtain ⟨visits, later, rfl, rfl, rfl⟩ := ih
        exact ⟨v :: visits, .visit visited later, rfl, rfl, Session.extend_extend ..⟩
  · rintro ⟨visits, collected, rfl, rfl, rfl⟩
    induction collected with
    | none s =>
        rw [List.flatMap_nil, s.extend_nil]
        exact .none s
    | visit visited _ ih =>
        rw [Session.extend_extend] at ih
        exact .one (externalEntry_eq_ok_iff.mpr ⟨_, visited, rfl, rfl, rfl⟩) ih

/-- The linked files are collected exactly if all items are visited, and then they are the
entries of the visits. -/
theorem collectExternalFiles_eq_ok_iff {items : List String} {files : Dictionary ExternalFile} :
    w.collectExternalFiles items s = (.ok files, s') ↔
      ∃ visits, w.Collects s visits ∧ visits.map (·.item) = items ∧
        files = .ofList (visits.filterMap (·.collected?)) ∧
        s' = s.extend (visits.flatMap (·.happenings)) := by
  simp only [collectExternalFiles, Act.bind_eq_ok_iff, Act.each_eq_ok_iff, Act.pure_eq_iff,
    passes_externalEntry_iff]
  constructor
  · rintro ⟨_, _, ⟨visits, collected, rfl, rfl, rfl⟩, rfl, rfl⟩
    exact ⟨visits, collected, rfl, by rw [List.filterMap_map]; rfl, rfl⟩
  · rintro ⟨visits, collected, rfl, rfl, rfl⟩
    exact ⟨_, _, ⟨visits, collected, rfl, rfl, rfl⟩, by rw [List.filterMap_map]; rfl, rfl⟩

/-- The collecting fails exactly if it stops at an item behind those that are visited, and
nothing is looked up or fetched behind it. -/
theorem collectExternalFiles_eq_error_iff {items : List String} {e : FetchError} :
    w.collectExternalFiles items s = (.error e, s') ↔
      ∃ visits item after more, w.Collects s visits ∧
        items = visits.map (·.item) ++ item :: after ∧
        w.Stops (s.extend (visits.flatMap (·.happenings))) item more e ∧
        s' = s.extend (visits.flatMap (·.happenings) ++ more) := by
  simp only [collectExternalFiles, Act.bind_eq_error_iff, Act.each_eq_error_iff,
    Act.pure_ne_error, and_false, exists_false, or_false, passes_externalEntry_iff,
    externalEntry_eq_error_iff]
  constructor
  · rintro ⟨_, item, after, _, _, rfl, ⟨visits, collected, rfl, rfl, rfl⟩, more, stopped, rfl⟩
    exact ⟨visits, item, after, more, collected, rfl, stopped, Session.extend_extend ..⟩
  · rintro ⟨visits, item, after, more, collected, rfl, stopped, rfl⟩
    exact ⟨_, item, after, _, _, rfl, ⟨visits, collected, rfl, rfl, rfl⟩, more, stopped,
      (Session.extend_extend ..).symm⟩

end World

/-! ### What is collected -/

namespace Visit

variable {visits : List Visit}

/-- The names of the collected files are those of the files that have a link. -/
theorem mem_names {name : String} :
    name ∈ (Dictionary.ofList (visits.filterMap (·.collected?))).map (·.1) ↔
      ∃ item file link scratch, .linked item file link scratch ∈ visits ∧ file.name = name := by
  rw [Dictionary.mem_keys_ofList, List.mem_map]
  constructor
  · rintro ⟨entry, mem, rfl⟩
    obtain ⟨v, visited, made⟩ := List.mem_filterMap.mp mem
    cases v with
    | unlinked item file? => cases made
    | linked item file link scratch =>
        cases made
        exact ⟨item, file, link, scratch, visited, rfl⟩
  · rintro ⟨item, file, link, scratch, mem, rfl⟩
    exact ⟨_, List.mem_filterMap.mpr ⟨_, mem, rfl⟩, rfl⟩

/-- A visit that makes no entry of a name is none of a linked file with that name. -/
theorem no_entry_iff {name : String} :
    (∀ entry ∈ visits.filterMap (·.collected?), entry.1 ≠ name) ↔
      ∀ item file link scratch, .linked item file link scratch ∈ visits → file.name ≠ name := by
  constructor
  · intro none item file link scratch mem
    exact none _ (List.mem_filterMap.mpr ⟨_, mem, rfl⟩)
  · intro none entry mem
    obtain ⟨v, visited, made⟩ := List.mem_filterMap.mp mem
    cases v with
    | unlinked item file? => cases made
    | linked item file link scratch =>
        cases made
        exact none item file link scratch visited

/-- Under a name stands what the visit of the last item with it made. -/
theorem lookup_eq_some_iff {name : String} {external : ExternalFile} :
    (Dictionary.ofList (visits.filterMap (·.collected?))).lookup name = some external ↔
      ∃ earlier item file link scratch later,
        visits = earlier ++ .linked item file link scratch :: later ∧ file.name = name ∧
        (∀ item' file' link' scratch', .linked item' file' link' scratch' ∈ later →
          file'.name ≠ name) ∧
        external = ⟨Blank.trim link, Md5.hex scratch.content⟩ := by
  rw [Dictionary.lookup_ofList_eq_some_iff]
  constructor
  · rintro ⟨_, _, entries, last⟩
    obtain ⟨earlier, rest, rfl, rfl, behind⟩ := List.filterMap_eq_append_iff.mp entries
    obtain ⟨skipped, v, later, rfl, -, made, rfl⟩ := List.filterMap_eq_cons_iff.mp behind
    cases v with
    | unlinked item file? => cases made
    | linked item file link scratch =>
        cases made
        exact ⟨earlier ++ skipped, item, file, link, scratch, later, by simp, rfl,
          no_entry_iff.mp last, rfl⟩
  · rintro ⟨earlier, item, file, link, scratch, later, rfl, rfl, last, rfl⟩
    refine ⟨earlier.filterMap (·.collected?), later.filterMap (·.collected?), ?_,
      no_entry_iff.mpr last⟩
    rw [List.filterMap_append]
    rfl

end Visit

end Deposit
