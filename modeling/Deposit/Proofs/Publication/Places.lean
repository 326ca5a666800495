import Deposit.Proofs.PackageInfo
import Deposit.Proofs.Publication.Calls

/-!
What the package-info document of a publication says about the items.

The storage tells a name and a path for each item, and the web gives the content of each
linked file. The sections of the document have them by name, so of several with one name the
last counts.

* `publish_places_items`: the sections of the document in any world, and exactly when no item
  is lost in them.
-/

namespace Deposit

variable {journal : Journal} {network : Network}

/-! ### Links of items -/

/-- The entry of a linked item: the name and the address of its file, and the digest of what
the web gives there. -/
def Journal.LinksTo (journal : Journal) (f : FoundItem) (entry : String × ExternalFile) : Prop :=
  ∃ url scratch, f.file.externalUrl = some url ∧ .fetched url (.ok scratch) ∈ journal ∧
    entry = (f.file.name, ⟨url, Md5.hex scratch.content⟩)

/-- If the storage answers alike, the linked items have the entries of the files that were
looked up when they were classified. -/
theorem Journal.Consistent.linksTo (consistent : journal.Consistent) {found : List FoundItem}
    (located : ∀ f ∈ found, journal.Locates f.item f)
    (linked : ∀ f ∈ found, f.file.externalUrl.isSome = true)
    {entries : List (Option (String × ExternalFile))}
    (told : List.Forall₂ journal.Links (found.map (·.item)) entries) :
    List.Forall₂ journal.LinksTo found (entries.filterMap id) := by
  induction found generalizing entries with
  | nil =>
      obtain rfl := List.forall₂_nil_left_iff.mp told
      exact .nil
  | cons f rest ih =>
      obtain ⟨entry, entries, here, there, rfl⟩ := List.forall₂_cons_left_iff.mp told
      have later := ih (fun f' mem => located f' (List.mem_cons_of_mem f mem))
        (fun f' mem => linked f' (List.mem_cons_of_mem f mem)) there
      have looked := (located f List.mem_cons_self).2
      rcases here with ⟨again, link, fetched⟩ | ⟨again, link⟩
      · rename_i file url scratch
        obtain rfl : f.file = file := by simpa using consistent.file _ _ _ looked again
        exact .cons ⟨url, scratch, link, fetched, rfl⟩ later
      · -- The file was found with a link.
        rename_i file?
        obtain rfl : some f.file = file? := by simpa using consistent.file _ _ _ looked again
        have some := linked f List.mem_cons_self
        rw [Option.bind_some] at link
        rw [link] at some
        cases some

/-- The items elsewhere and those in the network have links. -/
theorem FoundItem.externalUrl_isSome {f : FoundItem}
    (h : f.isAt network .elsewhere = true ∨ f.isAt network .inNetwork = true) :
    f.file.externalUrl.isSome = true := by
  rw [FoundItem.isAt_iff, FoundItem.isAt_iff, Location.of_eq_elsewhere_iff,
    Location.of_eq_inNetwork_iff] at h
  rcases h with ⟨url, link, -⟩ | ⟨url, link, -⟩
  · rw [link]; rfl
  · rw [link]; rfl

/-- So have all items that are classified as linked, those elsewhere in front. -/
theorem Journal.Consistent.external_linksTo (consistent : journal.Consistent)
    {items : List String} {found : List FoundItem}
    {entries : List (Option (String × ExternalFile))}
    (located : List.Forall₂ journal.Locates items found)
    (told : List.Forall₂ journal.Links (Classified.ofFound network found).external entries) :
    List.Forall₂ journal.LinksTo (found.filter (·.isAt network .elsewhere) ++
      found.filter (·.isAt network .inNetwork)) (entries.filterMap id) := by
  have looked := (Journal.locates_all located).2
  rw [Classified.ofFound_eq, Classified.external, FoundItem.idsAt, FoundItem.idsAt,
    ← List.map_append] at told
  refine consistent.linksTo (fun f mem => looked f ?_) (fun f mem => ?_) told
  · exact (List.mem_append.mp mem).elim (fun mem => (List.mem_filter.mp mem).1)
      fun mem => (List.mem_filter.mp mem).1
  · exact FoundItem.externalUrl_isSome <| (List.mem_append.mp mem).imp
      (fun mem => (List.mem_filter.mp mem).2) fun mem => (List.mem_filter.mp mem).2

namespace World

/-- What the package-info document says about the items, if the storage answers alike and the
provenance does not replace the sections.

Under each name, the paths have that of the last item with the name, and the linked files have
address and digest of the last linked item with the name, those elsewhere in front of those in
the network. So every item is in the document if and only if items with one name have one path,
and linked items with one name have one address and one digest. -/
theorem publish_places_items (w : World) (config : Config) (request : PublishRequest)
    (s : Session) :
    ∃ trail seconds result s', w.publish config request s = (result, s') ∧
      s' = s.extend (trail.happenings ++ [.measured (.publication (outcome result) seconds)]) ∧
      Course.publication config request trail result ∧
      ∀ (before : Trail PublishError) m after call answer, trail = before ++ m :: after →
        m.step = .packageInfo → .called (.created call answer) ∈ m.happenings →
        before.journal.Consistent → Yaml.valueAt? "paths" request.provenance = none →
        Yaml.valueAt? "external files" request.provenance = none →
        ∃ found, ∃ placed : List (String × String), ∃ linked : List (String × ExternalFile),
          ∃ entries text,
          List.Forall₂ before.journal.Locates request.items found ∧
          List.Forall₂ before.journal.Places request.items placed ∧
          List.Forall₂ before.journal.LinksTo
            (found.filter (·.isAt config.effectiveNetwork .elsewhere) ++
              found.filter (·.isAt config.effectiveNetwork .inNetwork)) linked ∧
          Yaml.document entries = .ok text ∧ call.content = Utf8.bytes text ∧
          (∀ name, Yaml.valueAt? name (Yaml.sectionAt "paths" entries) =
            (placed.reverse.lookup name).map .str) ∧
          (∀ name, Yaml.valueAt? name (Yaml.sectionAt "external files" entries) =
            (linked.reverse.lookup name).map PackageInfo.externalValue) ∧
          ((∀ e ∈ placed,
              Yaml.valueAt? e.1 (Yaml.sectionAt "paths" entries) = some (.str e.2)) ↔
            ∀ a ∈ placed, ∀ b ∈ placed, a.1 = b.1 → a.2 = b.2) ∧
          ((∀ e ∈ linked, Yaml.valueAt? e.1 (Yaml.sectionAt "external files" entries) =
              some (PackageInfo.externalValue e.2)) ↔
            ∀ a ∈ linked, ∀ b ∈ linked, a.1 = b.1 → a.2 = b.2) := by
  obtain ⟨trail, seconds, result, s', published, along, moved⟩ := w.publish_trail config request s
  refine ⟨trail, seconds, result, s', published, moved, along, ?_⟩
  rintro before m after call answer rfl step called consistent noPaths noFiles
  have meets : Trail.Meets (CreateCall.Fits config.effectiveNetwork request) []
      (before ++ m :: after) := (Course.sends_publication config request).meets trivial along
  obtain ⟨tale, found, placed, linked, text, located, places, links, written, sent⟩ :=
    (meets.allows called).packageInfo step
  refine ⟨found, placed, linked.filterMap id, _, text, located, places,
    consistent.external_linksTo located links, written, sent,
    PackageInfo.valueAt?_paths _ noPaths, PackageInfo.valueAt?_externalFiles _ noFiles, ?_, ?_⟩
  · rw [← Dictionary.forall_lookup_ofList_iff]
    refine forall₂_congr fun e _ => ?_
    rw [PackageInfo.valueAt?_paths _ noPaths, Dictionary.lookup_ofList]
    simp
  · rw [← Dictionary.forall_lookup_ofList_iff]
    refine forall₂_congr fun e _ => ?_
    rw [PackageInfo.valueAt?_externalFiles _ noFiles, Dictionary.lookup_ofList]
    simp [PackageInfo.externalValue_inj]

end World

end Deposit
