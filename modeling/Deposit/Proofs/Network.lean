import Deposit.Proofs.Classification
import Deposit.Proofs.Url.Composition

/-!
Which links point into a network.

The host of a link decides, by the labels of its name (`hosts_iff`): look-alikes with another
domain around the name do not count, and neither does a name in any other part of the link
(`hostOf?_text`). What a file counts as follows from it, for both networks
(`hosts_by_labels`).
-/

namespace Deposit.Network

open Url (WebLink)

/-! ### Domains -/

/-- Whether the last labels of a host are those of the networks' domain. -/
def EndsInDomain (host : String) : Prop :=
  ["dataone".toList, "org".toList] <:+ Split.pieces '.' host.toList

theorem endsWith_iff {s t : String} : s.endsWith t = true ↔ t.toList <:+ s.toList := by
  rw [String.endsWith_eq_endsWith_toSlice, String.Slice.endsWith_string_iff, String.copy_toSlice]

/-- A host is in the domain if its last labels are those of the domain. -/
theorem inDomain_iff {host : String} : inDomain host = true ↔ EndsInDomain host := by
  have pieces : Split.pieces '.' domain.toList = ["dataone".toList, "org".toList] := by decide
  have dotted : ".dataone.org".toList = '.' :: domain.toList := by decide
  rw [EndsInDomain, ← pieces, suffix_pieces_iff, inDomain, Bool.or_eq_true, beq_iff_eq,
    endsWith_iff, dotted, String.toList_inj]

/-- A link points into a network if its host does. -/
theorem hosts_iff {network : Network} {link : String} :
    network.hosts link = true ↔ ∃ host, hostOf? link = some host ∧
      (EndsInDomain host ∨ network = .development ∧ host = developmentHost) := by
  rw [hosts]
  cases hostOf? link with
  | none => simp
  | some host =>
      cases network with
      | production => simp [inDomain_iff]
      | development => simp [inDomain_iff]

/-- The nodes that count as development are hosts of the development network. -/
theorem hosts_of_forNode {node : String} (development : forNode node = .development) :
    Network.development.hosts node = true := by
  rw [forNode] at development
  cases there : hostOf? node with
  | none => simp [there] at development
  | some host =>
      simp only [there] at development
      split at development
      · next test =>
        refine hosts_iff.mpr ⟨host, there, ?_⟩
        rcases test with same | test
        · exact .inr ⟨rfl, same⟩
        · refine .inl (inDomain_iff.mp ?_)
          have within : ".dataone.org".toList <:+ ".test.dataone.org".toList := by decide
          simp [inDomain, endsWith_iff.mpr (within.trans (endsWith_iff.mp test))]
      · cases development

/-! ### Links -/

/-- The host of a link is read from the place of the host, and from nothing else. -/
theorem hostOf?_text (link : WebLink) :
    hostOf? link.text = (Url.Host.parse? link.host).map (Lowercase.ascii ·.text) := by
  have trimmed : Blank.trim link.text = link.text := by
    rw [Blank.trim, Blank.trimBy_eq_self fun c mem => (link.text_plain c mem).1,
      String.ofList_toList]
  rw [hostOf?, trimmed, link.hostText?_text, Option.map_map]
  rfl

/-! ### Files -/

/-- Blanks around the link of a file do not matter for its location. -/
theorem of_append_blanks (file : FileObject) (network : Network) {before after : String}
    (front : Blank.isBlankText before = true) (back : Blank.isBlankText after = true)
    (link : String) :
    Location.of { file with linkUrl := some (before ++ link ++ after) } network =
      Location.of { file with linkUrl := some link } network := by
  have present : Blank.present? (before ++ link ++ after) = Blank.present? link := by
    rw [Blank.present?, Blank.trim_append front back, Blank.present?]
  simp only [Location.of, FileObject.externalUrl, Option.bind_some, present]

/-- What is in the production network is in the development network, too. -/
theorem of_development {file : FileObject} (remote : Location.of file .production = .inNetwork) :
    Location.of file .development = .inNetwork := by
  obtain ⟨url, linked, hosted⟩ := Location.of_eq_inNetwork_iff.mp remote
  refine Location.of_eq_inNetwork_iff.mpr ⟨url, linked, ?_⟩
  obtain ⟨host, there, inside | ⟨other, -⟩⟩ := hosts_iff.mp hosted
  · exact hosts_iff.mpr ⟨host, there, .inl inside⟩
  · cases other

/-- **Membership in a network is decided by the labels of the host.** A link points into the
production network if the last labels of its host are `dataone` and `org`, and into the development
network if they are or the host is that of the development node; a link without a host points into
none. So in a link nothing but the host matters, whatever names stand around it. For the location of
a file blanks around its link do not matter; what is in the production network is in the
development network, what is stored is so for both, and a node that counts as development is a
host of the development network. -/
theorem hosts_by_labels :
    (∀ link : String,
      let host := ((Url.parse? (Blank.trim link)).bind Url.hostText?).map Lowercase.ascii
      (Network.production.hosts link = true ↔ ∃ h, host = some h ∧ EndsInDomain h) ∧
      (Network.development.hosts link = true ↔
        ∃ h, host = some h ∧ (EndsInDomain h ∨ h = "dev.nceas.ucsb.edu")) ∧
      (host = none → ∀ network : Network, network.hosts link = false)) ∧
    (∀ link : WebLink,
      hostOf? link.text = (Url.Host.parse? link.host).map (Lowercase.ascii ·.text) ∧
      ∀ other : WebLink, other.host = link.host →
        ∀ network : Network, network.hosts other.text = network.hosts link.text) ∧
    (∀ (file : FileObject) (network : Network) (link before after : String),
      Blank.isBlankText before = true → Blank.isBlankText after = true →
      Location.of { file with linkUrl := some (before ++ link ++ after) } network =
        Location.of { file with linkUrl := some link } network) ∧
    (∀ file : FileObject,
      (Location.of file .production = .inNetwork → Location.of file .development = .inNetwork) ∧
      ∀ network network' : Network,
        Location.of file network = .stored → Location.of file network' = .stored) ∧
    ∀ node : String, forNode node = .development → Network.development.hosts node = true := by
  refine ⟨fun link => ⟨?_, ?_, fun nowhere network => ?_⟩, fun link => ⟨hostOf?_text link, ?_⟩,
    fun file network link before after front back => of_append_blanks file network front back link,
    fun file => ⟨of_development, fun network network' stored => ?_⟩, fun node => hosts_of_forNode⟩
  · rw [hosts_iff]
    simp [hostOf?]
  · rw [hosts_iff]
    simp [hostOf?, developmentHost]
  · have none : hostOf? link = none := nowhere
    rw [hosts, none]
  · intro other same network
    rw [hosts, hosts, hostOf?_text other, hostOf?_text link, same]
  · exact Location.of_eq_stored_iff.mpr (Location.of_eq_stored_iff.mp stored)

end Deposit.Network
