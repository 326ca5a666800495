import Deposit.Proofs.Publication.Acts
import Deposit.Proofs.Publication.Classify
import Deposit.Proofs.Publication.Generated
import Deposit.Proofs.Publication.Links
import Deposit.Proofs.Text.Dictionary

/-!
The package-info document and the order of the items.

A world is *steady* if storage, web and machine answer a question alike at all times
(`World.Steady`). In a steady world, what is read of an item does not depend on when it is read,
and dictionaries of what is read do not depend on the order of the items, as long as items with
one name are the same. So the document does not depend on it either (`packageInfo_perm`).
-/

namespace Deposit

namespace World

variable {w : World} {network : Network} {items items' : List String} {s s' : Session}

/-! ### Steady worlds -/

/-- A question about an item, a document or an address has the same answer at all times. -/
structure Steady (w : World) : Prop where
  file : ∀ journal journal' item, w.fileAnswer journal item = w.fileAnswer journal' item
  document : ∀ journal journal' path,
    w.documentAnswer journal path = w.documentAnswer journal' path
  fetch : ∀ journal journal' url, w.fetchAnswer journal url = w.fetchAnswer journal' url
  room : ∀ s s', w.scratchFile s = w.scratchFile s'

namespace Steady

theorem file? (h : w.Steady) (id : String) : (w.file? id).Steady :=
  Act.steady_call fun journal journal' => h.file journal journal' id

theorem record {α : Type} (h : w.Steady) (read : Json → Except Json.Mismatch α) (path : String) :
    (w.record read path).Steady :=
  (Act.steady_call fun journal journal' => h.document journal journal' path).bind fun _ =>
    Act.steady_ofExcept _

theorem pathEntry (h : w.Steady) (id : String) : (w.pathEntry id).Steady :=
  (h.record ..).bind fun _ =>
    ((Act.steady_call fun journal journal' => h.document journal journal' _).bind fun _ =>
      Act.steady_ofExcept _).bind fun _ => Act.steady_pure _

theorem externalFile (h : w.Steady) (name url : String) : (w.externalFile name url).Steady :=
  ((Act.steady_ask h.room).rename _).bind fun _ =>
    ((Act.steady_call fun journal journal' => h.fetch journal journal' url).rename _).bind fun _ =>
      ((Act.steady_ofExcept _).rename _).bind fun _ => Act.steady_pure _

theorem externalEntry (h : w.Steady) (id : String) : (w.externalEntry id).Steady := by
  refine ((h.file? id).rename _).bind fun file? => ?_
  split
  · exact (h.externalFile ..).bind fun _ => Act.steady_pure _
  · exact Act.steady_pure _

theorem locate (h : w.Steady) (id : String) : (w.locate id).Steady where
  same s s' := by rw [locate_eq, locate_eq, h.file s.journal s'.journal]

end Steady

/-! ### Names of items -/

/-- Different items have different names. -/
def NamesApart (w : World) (items : List String) : Prop :=
  ∀ x ∈ items, ∀ y ∈ items, ∀ a b, (w.item x .start).1 = .ok a → (w.item y .start).1 = .ok b →
    a.name = b.name → x = y

/-- Different items with linked files have files with different names. -/
def LinkNamesApart (w : World) (items : List String) : Prop :=
  ∀ x ∈ items, ∀ y ∈ items, ∀ a b, w.fileAnswer [] x = .ok (some a) →
    w.fileAnswer [] y = .ok (some b) → a.externalUrl ≠ none → b.externalUrl ≠ none →
      a.name = b.name → x = y

theorem NamesApart.mono (h : w.NamesApart items) (within : items' ⊆ items) :
    w.NamesApart items' :=
  fun x mem y mem' => h x (within mem) y (within mem')

theorem LinkNamesApart.mono (h : w.LinkNamesApart items) (within : items' ⊆ items) :
    w.LinkNamesApart items' :=
  fun x mem y mem' => h x (within mem) y (within mem')

theorem pathEntry_name {id : String} {entry : String × String}
    (done : (w.pathEntry id s).1 = .ok entry) :
    ∃ item, (w.item id s).1 = .ok item ∧ item.name = entry.1 := by
  obtain ⟨item, _, read, rest⟩ := Act.bind_eq_ok_iff.mp (Prod.ext done rfl :
    w.pathEntry id s = (.ok entry, (w.pathEntry id s).2))
  obtain ⟨path, _, -, made⟩ := Act.bind_eq_ok_iff.mp rest
  obtain ⟨rfl, -⟩ := Act.pure_eq_iff.mp made
  exact ⟨item, congrArg Prod.fst read, rfl⟩

theorem externalEntry_name {id : String} {entry : String × ExternalFile}
    (done : (w.externalEntry id s).1 = .ok (some entry)) :
    ∃ file, w.fileAnswer s.journal id = .ok (some file) ∧ file.externalUrl ≠ none ∧
      file.name = entry.1 := by
  obtain ⟨v, visited, rfl, made, -⟩ := externalEntry_eq_ok_iff.mp (Prod.ext done rfl :
    w.externalEntry id s = (.ok (some entry), (w.externalEntry id s).2))
  cases visited with
  | unlinked none => cases made
  | @linked _ file link scratch linked room fetched readable =>
      cases made
      have url := FileObject.externalUrl_eq_some_iff.mpr ⟨link, linked.linked, linked.filled, rfl⟩
      exact ⟨file, linked.looked, by simp [url], rfl⟩

/-! ### What does not depend on the order -/

/-- In any order the items of a classification are found, and the same of them have links. -/
theorem classify_perm (steady : w.Steady) (perm : items.Perm items') {c : Classified}
    (done : (w.classify network items s).1 = .ok c) (s' : Session) :
    ∃ c', (w.classify network items' s').1 = .ok c' ∧ c'.external.Perm c.external := by
  obtain ⟨found, all, rfl⟩ := Act.bind_pure_fst_eq_ok_iff.mp done
  obtain ⟨found', all', same⟩ := Act.each_perm_of_steady steady.locate perm all s'
  refine ⟨.ofFound network found', Act.bind_pure_fst_eq_ok_iff.mpr ⟨found', all', rfl⟩, ?_⟩
  simp only [Classified.ofFound_eq, Classified.external, FoundItem.idsAt]
  exact ((same.filter _).map _).append ((same.filter _).map _)

/-- A dictionary of what a steady act gives for each element does not depend on the order of the
elements, if entries with one key are made of one element. -/
theorem each_ofList_perm {ε α β γ : Type} {act : α → Act ε β} (steady : ∀ a, (act a).Steady)
    {as as' : List α} (perm : as.Perm as') (f : β → Option (String × γ))
    (apart : ∀ x ∈ as, ∀ y ∈ as, ∀ b b' a a', (act x .start).1 = .ok b →
      (act y .start).1 = .ok b' → f b = some a → f b' = some a' → a.1 = a'.1 → x = y)
    {bs : List β} (done : (Act.each act as s).1 = .ok bs) (s' : Session) :
    ∃ bs', (Act.each act as' s').1 = .ok bs' ∧
      Dictionary.ofList (bs'.filterMap f) = .ofList (bs.filterMap f) := by
  obtain ⟨bs', done', same⟩ := Act.each_perm_of_steady steady perm done s'
  refine ⟨bs', done', (Dictionary.ofList_perm (same.symm.filterMap f) ?_).symm⟩
  intro a mem a' mem' named
  obtain ⟨b, given, made⟩ := List.mem_filterMap.mp mem
  obtain ⟨b', given', made'⟩ := List.mem_filterMap.mp mem'
  obtain ⟨x, among, told⟩ := Act.each_mem_of_steady steady done given
  obtain ⟨y, among', told'⟩ := Act.each_mem_of_steady steady done given'
  obtain rfl := apart x among y among' b b' a a' told told' made made' named
  obtain rfl := Except.ok.inj (told.symm.trans told')
  exact Option.some.inj (made.symm.trans made')

/-- The paths of items do not depend on their order. -/
theorem collectPaths_perm (steady : w.Steady) (names : w.NamesApart items)
    (perm : items.Perm items') {paths : Dictionary String}
    (done : (w.collectPaths items s).1 = .ok paths) (s' : Session) :
    (w.collectPaths items' s').1 = .ok paths := by
  obtain ⟨entries, told, rfl⟩ := Act.bind_pure_fst_eq_ok_iff.mp done
  obtain ⟨entries', told', same⟩ := each_ofList_perm steady.pathEntry perm some
    (by
      rintro x among y among' _ _ a a' toldX toldY ⟨⟩ ⟨⟩ named
      obtain ⟨item, ofX, nameX⟩ := pathEntry_name toldX
      obtain ⟨item', ofY, nameY⟩ := pathEntry_name toldY
      exact names x among y among' item item' ofX ofY (by rw [nameX, named, nameY]))
    told s'
  rw [List.filterMap_some, List.filterMap_some] at same
  exact Act.bind_pure_fst_eq_ok_iff.mpr ⟨entries', told', same⟩

/-- The linked files of items do not depend on their order. -/
theorem collectExternalFiles_perm (steady : w.Steady) (names : w.LinkNamesApart items)
    (perm : items.Perm items') {files : Dictionary ExternalFile}
    (done : (w.collectExternalFiles items s).1 = .ok files) (s' : Session) :
    (w.collectExternalFiles items' s').1 = .ok files := by
  obtain ⟨entries, told, rfl⟩ := Act.bind_pure_fst_eq_ok_iff.mp done
  obtain ⟨entries', told', same⟩ := each_ofList_perm steady.externalEntry perm id
    (by
      rintro x among y among' _ _ a a' toldX toldY rfl rfl named
      obtain ⟨file, ofX, linkX, nameX⟩ := externalEntry_name toldX
      obtain ⟨file', ofY, linkY, nameY⟩ := externalEntry_name toldY
      exact names x among y among' file file' ofX ofY linkX linkY (by rw [nameX, named, nameY]))
    told s'
  exact Act.bind_pure_fst_eq_ok_iff.mpr ⟨entries', told', same⟩

/-- The linked items of a classification are some of its items. -/
theorem external_subset {c : Classified} (done : (w.classify network items s).1 = .ok c) :
    c.external ⊆ items := by
  obtain ⟨found, all, -, rfl⟩ := classify_eq_ok_iff.mp (Prod.ext done rfl :
    w.classify network items s = (.ok c, (w.classify network items s).2))
  have within : ∀ place, FoundItem.idsAt network place found ⊆ items := by
    intro place id mem
    obtain ⟨f, among, named, -⟩ := FoundItem.mem_idsAt.mp mem
    rw [← all.items_eq]
    exact List.mem_map.mpr ⟨f, among, named⟩
  rw [Classified.ofFound_eq]
  exact List.append_subset.mpr ⟨within _, within _⟩

/-- In a steady world, where items with one name are the same, the document over items does not
depend on their order: what it says can be collected for both orders or for none, and then it is
the same, byte by byte, if provenance can be written at all. -/
theorem packageInfo_perm (steady : w.Steady) (perm : items.Perm items')
    (names : w.NamesApart items) (linkNames : w.LinkNamesApart items) (network : Network)
    (tale : Tale) (provenance : Yaml.Mapping) :
    (∀ s s', (∃ c, (w.classify network items s).1 = .ok c) ↔
      ∃ c, (w.classify network items' s').1 = .ok c) ∧
    (∀ s s', (∃ paths, (w.collectPaths items s).1 = .ok paths) ↔
      ∃ paths, (w.collectPaths items' s').1 = .ok paths) ∧
    ∀ s₁ s₁' c c', (w.classify network items s₁).1 = .ok c →
      (w.classify network items' s₁').1 = .ok c' →
      (∀ s s', (∃ files, (w.collectExternalFiles c.external s).1 = .ok files) ↔
        ∃ files, (w.collectExternalFiles c'.external s').1 = .ok files) ∧
      ∀ s₂ s₂' s₃ s₃' paths paths' files files',
        (w.collectPaths items s₂).1 = .ok paths → (w.collectPaths items' s₂').1 = .ok paths' →
        (w.collectExternalFiles c.external s₃).1 = .ok files →
        (w.collectExternalFiles c'.external s₃').1 = .ok files' →
        (PackageInfo.ofTale tale paths files provenance).text.map Utf8.bytes =
          (PackageInfo.ofTale tale paths' files' provenance).text.map Utf8.bytes := by
  have names' : w.NamesApart items' := names.mono perm.symm.subset
  refine ⟨fun s s' => ?_, fun s s' => ?_, fun s₁ s₁' c c' done done' => ⟨fun s s' => ?_, ?_⟩⟩
  · constructor
    · rintro ⟨c, done⟩
      obtain ⟨c', done', -⟩ := classify_perm steady perm done s'
      exact ⟨c', done'⟩
    · rintro ⟨c, done⟩
      obtain ⟨c', done', -⟩ := classify_perm steady perm.symm done s
      exact ⟨c', done'⟩
  · exact ⟨fun ⟨paths, done⟩ => ⟨paths, collectPaths_perm steady names perm done s'⟩,
      fun ⟨paths, done⟩ => ⟨paths, collectPaths_perm steady names' perm.symm done s⟩⟩
  all_goals
    obtain ⟨_, again, linked⟩ := classify_perm steady perm done s₁'
    obtain rfl := Except.ok.inj (done'.symm.trans again)
    have apart : w.LinkNamesApart c.external := linkNames.mono (external_subset done)
    have apart' : w.LinkNamesApart c'.external := apart.mono linked.subset
  · exact ⟨fun ⟨files, done⟩ => ⟨files, collectExternalFiles_perm steady apart linked.symm done s'⟩,
      fun ⟨files, done⟩ => ⟨files, collectExternalFiles_perm steady apart' linked done s⟩⟩
  · intro s₂ s₂' s₃ s₃' paths paths' files files' known known' fetched fetched'
    obtain rfl := Except.ok.inj
      (known'.symm.trans (collectPaths_perm steady names perm known s₂'))
    obtain rfl := Except.ok.inj
      (fetched'.symm.trans (collectExternalFiles_perm steady apart linked.symm fetched s₃'))
    rfl

/-- A storage with two linked items, sand in the network and clay elsewhere. -/
def samples : World :=
  { World.willing
      [("item/1", .obj [("_id", .str "1"), ("name", .str "sand.csv")]),
        ("resource/1/path?type=item", .str "/soil/sand.csv"),
        ("item/2", .obj [("_id", .str "2"), ("name", .str "clay.csv")]),
        ("resource/2/path?type=item", .str "/soil/clay.csv")]
      ⟨"", "", 0, "", none⟩ [] [] with
    fileAnswer := fun _ item =>
      if item = "1" then
        .ok (some ⟨"file1", "sand.csv", 0, "text/csv", some "https://cn.dataone.org/sand"⟩)
      else .ok (some ⟨"file2", "clay.csv", 0, "text/csv", some "https://example.org/clay"⟩)
    fetchAnswer := fun _ url => .ok (.holding (Utf8.bytes url)) }

/-- Clay and sand have one document in both orders. -/
theorem samples_packageInfo_perm :
    samples.Steady ∧ ["1", "2"].Perm ["2", "1"] ∧ samples.NamesApart ["1", "2"] ∧
      samples.LinkNamesApart ["1", "2"] ∧ ∃ c c' paths paths' files files',
        (samples.classify .production ["1", "2"] .start).1 = .ok c ∧
        (samples.classify .production ["2", "1"] .start).1 = .ok c' ∧
        (samples.collectPaths ["1", "2"] .start).1 = .ok paths ∧
        (samples.collectPaths ["2", "1"] .start).1 = .ok paths' ∧
        (samples.collectExternalFiles c.external .start).1 = .ok files ∧
        (samples.collectExternalFiles c'.external .start).1 = .ok files' ∧
        (PackageInfo.ofTale ⟨"tale1", "", none, none, none, none, none⟩ paths files
            []).text.map Utf8.bytes =
          (PackageInfo.ofTale ⟨"tale1", "", none, none, none, none, none⟩ paths' files'
            []).text.map Utf8.bytes := by
  have steady : samples.Steady :=
    ⟨fun _ _ _ => rfl, fun _ _ _ => rfl, fun _ _ _ => rfl, fun _ _ => rfl⟩
  have perm : ["1", "2"].Perm ["2", "1"] := .swap ..
  have names : samples.NamesApart ["1", "2"] := by
    intro x mem y mem' a b ofX ofY named
    have differ : ∀ x ∈ ["1", "2"], ∀ y ∈ ["1", "2"],
        (samples.item x .start).1.map (·.name) = (samples.item y .start).1.map (·.name) →
          x = y := by
      decide +kernel
    exact differ x mem y mem' (by rw [ofX, ofY]; exact congrArg Except.ok named)
  have linkNames : samples.LinkNamesApart ["1", "2"] := by
    intro x mem y mem' a b ofX ofY _ _ named
    have differ : ∀ x ∈ ["1", "2"], ∀ y ∈ ["1", "2"],
        (samples.fileAnswer [] x).map (·.map (·.name)) =
          (samples.fileAnswer [] y).map (·.map (·.name)) → x = y := by
      decide +kernel
    exact differ x mem y mem' (by rw [ofX, ofY]; exact congrArg (Except.ok ∘ some) named)
  obtain ⟨classified, known, linked⟩ :=
    packageInfo_perm steady perm names linkNames .production
      ⟨"tale1", "", none, none, none, none, none⟩ []
  -- The first order is evaluated, and the theorem gives the second.
  have first : (samples.classify .production ["1", "2"] .start).1 = .ok ⟨["1"], ["2"], []⟩ := by
    decide +kernel
  have placed : (samples.collectPaths ["1", "2"] .start).1 =
      .ok [("clay.csv", "/soil/clay.csv"), ("sand.csv", "/soil/sand.csv")] := by
    decide +kernel
  have fetched : ∃ files, (samples.collectExternalFiles ["2", "1"] .start).1 = .ok files := by
    have done : (samples.collectExternalFiles ["2", "1"] .start).1.isOk = true := by
      decide +kernel
    cases answer : (samples.collectExternalFiles ["2", "1"] .start).1 with
    | error e => rw [answer] at done; cases done
    | ok files => exact ⟨files, rfl⟩
  obtain ⟨c', second⟩ := (classified .start .start).mp ⟨_, first⟩
  obtain ⟨paths', placed'⟩ := (known .start .start).mp ⟨_, placed⟩
  obtain ⟨same, document⟩ := linked _ _ _ _ first second
  obtain ⟨files, fetched⟩ := fetched
  obtain ⟨files', fetched'⟩ := (same .start .start).mp ⟨_, fetched⟩
  exact ⟨steady, perm, names, linkNames, _, c', _, paths', files, files', first, second, placed,
    placed', fetched, fetched', document _ _ _ _ _ _ _ _ placed placed' fetched fetched'⟩

end World

end Deposit
