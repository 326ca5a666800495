import Deposit.Classification
import Deposit.Proofs.Text.Blank

/-!
Classified items: each list holds the items of one location, in the order of the
items (`Classified.ofFound_eq`). The location of a file is read off its link
(`Location.of_eq_inNetwork_iff` and its companions), and every item has one, so the lists
together hold each item as often as it was classified (`FoundItem.located_perm`).
-/

namespace Deposit

/-! ### Locations -/

/-- The address of a file's content: its link, trimmed, unless that is blank. -/
theorem FileObject.externalUrl_eq_some_iff {file : FileObject} {url : String} :
    file.externalUrl = some url ↔
      ∃ link, file.linkUrl = some link ∧ Blank.isBlankText link = false ∧
        Blank.trim link = url := by
  rw [externalUrl]
  cases file.linkUrl with
  | none => simp
  | some link =>
      cases blank : Blank.isBlankText link with
      | true => simp [Blank.present?_eq_none blank, blank]
      | false => simp [Blank.present?_eq_some blank, blank]

theorem FileObject.exists_externalUrl_iff {file : FileObject} {p : String → Prop} :
    (∃ url, file.externalUrl = some url ∧ p url) ↔
      ∃ link, file.linkUrl = some link ∧ Blank.isBlankText link = false ∧
        p (Blank.trim link) := by
  simp only [externalUrl_eq_some_iff]
  constructor
  · rintro ⟨_, ⟨link, linked, filled, rfl⟩, holds⟩
    exact ⟨link, linked, filled, holds⟩
  · rintro ⟨link, linked, filled, holds⟩
    exact ⟨_, ⟨link, linked, filled, rfl⟩, holds⟩

/-- A file without a link, or with a blank one, has no address elsewhere. -/
theorem FileObject.externalUrl_eq_none_iff {file : FileObject} :
    file.externalUrl = none ↔
      ∀ link, file.linkUrl = some link → Blank.isBlankText link = true := by
  rw [externalUrl]
  cases file.linkUrl with
  | none => simp
  | some link =>
      cases blank : Blank.isBlankText link with
      | true => simp [Blank.present?_eq_none blank, blank]
      | false => simp [Blank.present?_eq_some blank, blank]

namespace Location

variable {file : FileObject} {network : Network}

theorem of_eq_inNetwork_iff :
    Location.of file network = .inNetwork ↔
      ∃ url, file.externalUrl = some url ∧ network.hosts url = true := by
  rw [Location.of]
  cases file.externalUrl with
  | none => simp
  | some url => cases hosted : network.hosts url <;> simp [hosted]

theorem of_eq_elsewhere_iff :
    Location.of file network = .elsewhere ↔
      ∃ url, file.externalUrl = some url ∧ network.hosts url = false := by
  rw [Location.of]
  cases file.externalUrl with
  | none => simp
  | some url => cases hosted : network.hosts url <;> simp [hosted]

theorem of_eq_stored_iff : Location.of file network = .stored ↔ file.externalUrl = none := by
  rw [Location.of]
  cases file.externalUrl with
  | none => simp
  | some url => cases hosted : network.hosts url <;> simp [hosted]

end Location

/-! ### Items at a location -/

/-- Whether the file of an item is at a location, for a network. -/
def FoundItem.isAt (network : Network) (place : Location) (f : FoundItem) : Bool :=
  decide (Location.of f.file network = place)

theorem FoundItem.isAt_iff {network : Network} {place : Location} {f : FoundItem} :
    f.isAt network place = true ↔ Location.of f.file network = place := by
  simp [FoundItem.isAt]

/-- The ids of the items at a location, in the order of the items. -/
def FoundItem.idsAt (network : Network) (place : Location) (found : List FoundItem) :
    List String :=
  (found.filter (·.isAt network place)).map (·.item)

theorem FoundItem.mem_idsAt {network : Network} {place : Location} {found : List FoundItem}
    {id : String} :
    id ∈ idsAt network place found ↔
      ∃ f ∈ found, f.item = id ∧ Location.of f.file network = place := by
  simp only [idsAt, List.mem_map, List.mem_filter, isAt_iff]
  constructor
  · rintro ⟨f, ⟨mem, there⟩, named⟩
    exact ⟨f, mem, named, there⟩
  · rintro ⟨f, mem, named, there⟩
    exact ⟨f, ⟨mem, there⟩, named⟩

/-- Every item is at one location. -/
theorem FoundItem.located_perm (network : Network) (found : List FoundItem) :
    (found.filter (·.isAt network .inNetwork) ++ found.filter (·.isAt network .stored) ++
      found.filter (·.isAt network .elsewhere)).Perm found := by
  induction found with
  | nil => exact .refl _
  | cons f rest ih =>
      have here : ∀ place, f.isAt network place = decide (Location.of f.file network = place) :=
        fun _ => rfl
      rw [List.append_assoc] at ih ⊢
      simp only [List.filter_cons, here]
      cases place : Location.of f.file network with
      | inNetwork => simpa using ih
      | stored => simpa using List.perm_middle.trans (ih.cons f)
      | elsewhere =>
          have last := List.perm_middle.trans (((List.append_assoc ..).symm ▸ ih).cons f)
          simpa using last

/-! ### Classified items -/

namespace Classified

/-- The items that are added go to the lists of their locations. -/
theorem foldl_add (network : Network) (found : List FoundItem) :
    ∀ c : Classified, found.foldl (fun c f => c.add network f.item f.file) c =
      ⟨c.inNetwork ++ FoundItem.idsAt network .inNetwork found,
        c.elsewhere ++ FoundItem.idsAt network .elsewhere found,
        c.stored ++ found.filter (·.isAt network .stored)⟩ := by
  induction found with
  | nil => simp [FoundItem.idsAt]
  | cons f rest ih =>
      intro c
      rw [List.foldl_cons, ih]
      cases place : Location.of f.file network <;>
        simp [add, FoundItem.idsAt, FoundItem.isAt, place]

/-- Items by location: each list is a filter of them. -/
theorem ofFound_eq (network : Network) (found : List FoundItem) :
    ofFound network found =
      ⟨FoundItem.idsAt network .inNetwork found, FoundItem.idsAt network .elsewhere found,
        found.filter (·.isAt network .stored)⟩ := by
  simpa [ofFound, empty] using foldl_add network found empty

/-- Classified items one behind the other. -/
def append (c d : Classified) : Classified :=
  ⟨c.inNetwork ++ d.inNetwork, c.elsewhere ++ d.elsewhere, c.stored ++ d.stored⟩

theorem ofFound_append (network : Network) (found more : List FoundItem) :
    ofFound network (found ++ more) = (ofFound network found).append (ofFound network more) := by
  simp [ofFound_eq, append, FoundItem.idsAt]

theorem storedIds_ofFound (network : Network) (found : List FoundItem) :
    (ofFound network found).storedIds = FoundItem.idsAt network .stored found := by
  rw [ofFound_eq]
  rfl

/-- All items are described, each as often as it was classified. -/
theorem described_perm (network : Network) (found : List FoundItem) :
    (ofFound network found).described.Perm (found.map (·.item)) := by
  have all := (FoundItem.located_perm network found).map (·.item)
  rw [List.map_append, List.map_append] at all
  rw [described, storedIds_ofFound, ofFound_eq]
  exact all

theorem size_ofFound (network : Network) (found : List FoundItem) :
    (ofFound network found).size = found.length := by
  have all := (described_perm network found).length_eq
  rw [List.length_map] at all
  rw [← all, described, storedIds, size]
  simp only [List.length_append, List.length_map]
  omega

/-- The items that are linked to and those that are stored are all items. -/
theorem external_append_storedIds_perm (c : Classified) :
    (c.external ++ c.storedIds).Perm c.described := by
  rw [external, described, List.append_assoc]
  exact List.perm_append_comm

end Classified

end Deposit
