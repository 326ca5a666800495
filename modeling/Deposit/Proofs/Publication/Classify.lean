import Deposit.Proofs.Classification
import Deposit.Proofs.Publication.Following

/-!
What the classification of items does in a world.

The items are looked up one after the other. Either each of them has a file
(`World.Finds`), or one is the first without (`World.Misses`), and nothing is looked up
behind it. If the storage answers by the item alone, so does every lookup
(`World.each_locate_of_steady`).

* `World.classify_partitions`: classified items are the items in three parts, each in their
  order, and a failure names the first item that has no file.
-/

namespace Deposit

/-- The lookup of an item that has a file. -/
def FoundItem.lookup (f : FoundItem) : Happening := .called (.lookedUp f.item (.ok (some f.file)))

/-- The answers that come to a failure: there is no such item, the item has no file, or the
storage failed. -/
theorem Course.located_eq_error_iff {item : String}
    {answer : Except StorageError (Option FileObject)} {e : ClassificationError} :
    located item answer = .error e ↔
      ((answer = .ok none ∨ ∃ resource, answer = .error (.notFound resource)) ∧
          e = .notFound item) ∨
        ∃ source, answer = .error source ∧ (∀ resource, source ≠ .notFound resource) ∧
          e = .storage item source := by
  rcases answer with source | _ | file
  · cases source <;> simp [located, ClassificationError.ofLookup, eq_comm]
  · simp [located, eq_comm]
  · simp [located]

namespace World

variable {w : World} {network : Network} {item : String} {items before : List String}
  {found : List FoundItem} {s s' : Session} {answer : Except StorageError (Option FileObject)}
  {e : ClassificationError}

/-! ### Lookups -/

/-- Items that are looked up one after the other all have files. -/
inductive Finds (w : World) : Session → List String → List FoundItem → Prop where
  | none (s : Session) : Finds w s [] []
  | item {s : Session} {f : FoundItem} {items : List String} {found : List FoundItem} :
      w.fileAnswer s.journal f.item = .ok (some f.file) →
      Finds w (s.extend [f.lookup]) items found → Finds w s (f.item :: items) (f :: found)

/-- The files that are found are those of the items, in their order. -/
theorem Finds.items_eq (h : w.Finds s items found) : found.map (·.item) = items := by
  induction h with
  | none s => rfl
  | item _ _ ih => rw [List.map_cons, ih]

/-- Of items that are looked up one after the other, some are found, and the next one is
answered without a file. -/
structure Misses (w : World) (s : Session) (items : List String) (found : List FoundItem)
    (item : String) (answer : Except StorageError (Option FileObject)) : Prop where
  split : ∃ after, items = found.map (·.item) ++ item :: after
  before : w.Finds s (found.map (·.item)) found
  answered : w.fileAnswer (s.extend (found.map FoundItem.lookup)).journal item = answer
  without : ∀ file, answer ≠ .ok (some file)

/-- All items are found, or one is the first that is not. -/
theorem finds_or_misses (w : World) (items : List String) :
    ∀ s, (∃ found, w.Finds s items found) ∨
      ∃ found item answer, w.Misses s items found item answer := by
  induction items with
  | nil => exact fun s => .inl ⟨[], .none s⟩
  | cons item items ih =>
      intro s
      by_cases there : ∃ file, w.fileAnswer s.journal item = .ok (some file)
      · obtain ⟨file, answered⟩ := there
        rcases ih (s.extend [FoundItem.lookup ⟨item, file⟩]) with ⟨found, all⟩ |
          ⟨found, missed, answer, ⟨after, rfl⟩, before, answered', without⟩
        · exact .inl ⟨⟨item, file⟩ :: found, .item answered all⟩
        · refine .inr ⟨⟨item, file⟩ :: found, missed, answer, ⟨after, rfl⟩,
            .item answered before, ?_, without⟩
          rwa [Session.extend_extend] at answered'
      · refine .inr ⟨[], item, w.fileAnswer s.journal item, ⟨items, rfl⟩, .none s, ?_, ?_⟩
        · rw [List.map_nil, Session.extend_nil]
        · exact fun file answered => there ⟨file, answered⟩

/-! ### The classification -/

/-- One lookup: its result is what the answer comes to, and nothing else happens. -/
theorem locate_eq (w : World) (item : String) (s : Session) :
    w.locate item s = (Course.located item (w.fileAnswer s.journal item),
      s.extend [.called (.lookedUp item (w.fileAnswer s.journal item))]) := by
  rcases given : w.fileAnswer s.journal item with e | _ | file <;>
    simp [locate, file?, Act.call, Act.ask, Bind.bind, Act.andThen, Act.rename, Act.fail,
      Pure.pure, Act.give, given, Course.located]

theorem each_locate_cons (w : World) (item : String) (items : List String) (s : Session) :
    Act.each w.locate (item :: items) s =
      match Course.located item (w.fileAnswer s.journal item) with
      | .error e =>
        (.error e, s.extend [.called (.lookedUp item (w.fileAnswer s.journal item))])
      | .ok f =>
        let later := Act.each w.locate items
          (s.extend [.called (.lookedUp item (w.fileAnswer s.journal item))])
        (later.1.map (f :: ·), later.2) := by
  show Act.andThen _ _ s = _
  rw [Act.andThen, locate_eq]
  cases Course.located item (w.fileAnswer s.journal item) with
  | error e => rfl
  | ok f =>
      show Act.andThen _ _ _ = _
      rw [Act.andThen]
      rcases Act.each w.locate items _ with ⟨e | fs, s'⟩ <;> rfl

/-- Found items stand in front of what is found behind them. -/
theorem Finds.each_append (h : w.Finds s before found) (items : List String) :
    Act.each w.locate (before ++ items) s =
      ((Act.each w.locate items (s.extend (found.map FoundItem.lookup))).1.map (found ++ ·),
        (Act.each w.locate items (s.extend (found.map FoundItem.lookup))).2) := by
  induction h with
  | none s =>
      rw [List.nil_append, List.map_nil, Session.extend_nil]
      rcases Act.each w.locate items s with ⟨e | fs, s'⟩ <;> rfl
  | @item s f before found answered _ ih =>
      rw [List.cons_append, each_locate_cons, answered]
      show ((Act.each w.locate (before ++ items) (s.extend [f.lookup])).1.map (f :: ·),
        (Act.each w.locate (before ++ items) (s.extend [f.lookup])).2) = _
      have same : (s.extend [f.lookup]).extend (found.map FoundItem.lookup) =
          s.extend ((f :: found).map FoundItem.lookup) := Session.extend_extend ..
      rw [ih, same]
      rcases Act.each w.locate items (s.extend ((f :: found).map FoundItem.lookup)) with
        ⟨e | fs, s'⟩ <;> rfl

theorem Finds.each (h : w.Finds s items found) :
    Act.each w.locate items s = (.ok found, s.extend (found.map FoundItem.lookup)) := by
  have all := h.each_append []
  rw [List.append_nil] at all
  rw [all]
  show (Except.ok (found ++ []), _) = _
  rw [List.append_nil]
  rfl

/-- Nothing is looked up behind the first item that is missed. -/
theorem Misses.each (h : w.Misses s items found item answer)
    (failed : Course.located item answer = .error e) :
    Act.each w.locate items s = (.error e,
      s.extend (found.map FoundItem.lookup ++ [.called (.lookedUp item answer)])) := by
  obtain ⟨⟨after, rfl⟩, before, answered, -⟩ := h
  rw [before.each_append, each_locate_cons, answered, failed, ← Session.extend_extend]
  rfl

/-- An answer without a file comes to a failure. -/
theorem Misses.fails (h : w.Misses s items found item answer) :
    ∃ e, Course.located item answer = .error e := by
  rcases answer with source | _ | file
  · exact ⟨_, rfl⟩
  · exact ⟨_, rfl⟩
  · exact absurd rfl (h.without file)

/-- A storage that answers by the item alone: every lookup is made by itself. -/
theorem each_locate_of_steady {fileOf : String → Except StorageError (Option FileObject)}
    (steady : ∀ journal item, w.fileAnswer journal item = fileOf item) (items : List String) :
    ∀ s, (Act.each w.locate items s).1 =
      items.mapM fun item => Course.located item (fileOf item) := by
  induction items with
  | nil => exact fun s => rfl
  | cons item items ih =>
      intro s
      rw [each_locate_cons, steady, List.mapM_cons]
      cases Course.located item (fileOf item) with
      | error e => rfl
      | ok f =>
          show (Act.each w.locate items _).1.map (f :: ·) = _
          rw [ih]
          cases items.mapM fun item => Course.located item (fileOf item) <;> rfl

theorem classify_eq (w : World) (network : Network) (items : List String) (s : Session) :
    w.classify network items s =
      ((Act.each w.locate items s).1.map (.ofFound network), (Act.each w.locate items s).2) := by
  show Act.andThen _ _ s = _
  rw [Act.andThen]
  rcases Act.each w.locate items s with ⟨e | found, s'⟩ <;> rfl

/-- A classification succeeds exactly if all items are found, and then it sorts them. -/
theorem classify_eq_ok_iff {c : Classified} :
    w.classify network items s = (.ok c, s') ↔
      ∃ found, w.Finds s items found ∧ s' = s.extend (found.map FoundItem.lookup) ∧
        c = .ofFound network found := by
  rw [classify_eq]
  constructor
  · intro classified
    rcases w.finds_or_misses items s with ⟨found, all⟩ | ⟨found, item, answer, missed⟩
    · rw [all.each] at classified
      obtain ⟨rfl, rfl⟩ := (by simpa [Except.map] using classified :
        Classified.ofFound network found = c ∧ s.extend (found.map FoundItem.lookup) = s')
      exact ⟨found, all, rfl, rfl⟩
    · obtain ⟨e, failed⟩ := missed.fails
      rw [missed.each failed] at classified
      cases congrArg Prod.fst classified
  · rintro ⟨found, all, rfl, rfl⟩
    rw [all.each]
    rfl

/-- A classification fails exactly if an item is missed, with what its answer comes to. -/
theorem classify_eq_error_iff :
    w.classify network items s = (.error e, s') ↔
      ∃ found item answer, w.Misses s items found item answer ∧
        s' = s.extend (found.map FoundItem.lookup ++ [.called (.lookedUp item answer)]) ∧
        Course.located item answer = .error e := by
  rw [classify_eq]
  constructor
  · intro classified
    rcases w.finds_or_misses items s with ⟨found, all⟩ | ⟨found, item, answer, missed⟩
    · rw [all.each] at classified
      cases congrArg Prod.fst classified
    · obtain ⟨e', failed⟩ := missed.fails
      rw [missed.each failed] at classified
      obtain ⟨rfl, rfl⟩ := (by simpa [Except.map] using classified : e' = e ∧ _ = s')
      exact ⟨found, item, answer, missed, rfl, failed⟩
  · rintro ⟨found, item, answer, missed, rfl, failed⟩
    rw [missed.each failed]
    rfl

/-- If the storage answers by the item alone, the items of two lists are classified as each
list by itself. -/
theorem classify_append {fileOf : String → Except StorageError (Option FileObject)}
    (steady : ∀ journal item, w.fileAnswer journal item = fileOf item) (xs ys : List String)
    (s₁ s₂ s₃ : Session) :
    (w.classify network (xs ++ ys) s₁).1 =
      (w.classify network xs s₂).1.bind fun c =>
        (w.classify network ys s₃).1.map fun d => c.append d := by
  simp only [classify_eq, each_locate_of_steady steady, List.mapM_append]
  cases xs.mapM fun item => Course.located item (fileOf item) with
  | error e => rfl
  | ok found =>
      cases ys.mapM fun item => Course.located item (fileOf item) with
      | error e => rfl
      | ok more => exact congrArg Except.ok (Classified.ofFound_append network found more)

/-- **Classification is a partition that keeps the order.**

It succeeds exactly if all items are found, and then its lists are the items in the network,
those elsewhere and those that the storage keeps, each with the file that was looked up, in
the order of the items and as often as they are among them. Where the content of a file is
depends on its link alone. It fails exactly if an item is missed, of which it gives the first,
and nothing is looked up behind it. If the storage answers by the item alone, items one behind
the other are classified as each of the two lists by itself. -/
theorem classify_partitions (w : World) (network : Network) (items : List String) (s : Session) :
    (∀ c s', w.classify network items s = (.ok c, s') ↔
      ∃ found, w.Finds s items found ∧ s' = s.extend (found.map FoundItem.lookup) ∧
        c.inNetwork = (found.filter (·.isAt network .inNetwork)).map (·.item) ∧
        c.elsewhere = (found.filter (·.isAt network .elsewhere)).map (·.item) ∧
        c.stored = found.filter (·.isAt network .stored)) ∧
      (∀ f : FoundItem,
        (f.isAt network .inNetwork = true ↔ ∃ link, f.file.linkUrl = some link ∧
          Blank.isBlankText link = false ∧ network.hosts (Blank.trim link) = true) ∧
        (f.isAt network .elsewhere = true ↔ ∃ link, f.file.linkUrl = some link ∧
          Blank.isBlankText link = false ∧ network.hosts (Blank.trim link) = false) ∧
        (f.isAt network .stored = true ↔
          ∀ link, f.file.linkUrl = some link → Blank.isBlankText link = true)) ∧
      (∀ c s', w.classify network items s = (.ok c, s') →
        c.described.Perm items ∧ c.size = items.length ∧
          (c.external ++ c.storedIds).Perm items) ∧
      (∀ e s', w.classify network items s = (.error e, s') ↔
        ∃ found item answer, w.Misses s items found item answer ∧
          s' = s.extend (found.map FoundItem.lookup ++ [.called (.lookedUp item answer)]) ∧
          (((answer = .ok none ∨ ∃ resource, answer = .error (.notFound resource)) ∧
              e = .notFound item) ∨
            ∃ source, answer = .error source ∧ (∀ resource, source ≠ .notFound resource) ∧
              e = .storage item source)) ∧
      ∀ fileOf : String → Except StorageError (Option FileObject),
        (∀ journal item, w.fileAnswer journal item = fileOf item) →
        ∀ xs ys s₁ s₂ s₃, (w.classify network (xs ++ ys) s₁).1 =
          (w.classify network xs s₂).1.bind fun c =>
            (w.classify network ys s₃).1.map fun d =>
              ⟨c.inNetwork ++ d.inNetwork, c.elsewhere ++ d.elsewhere, c.stored ++ d.stored⟩ := by
  refine ⟨fun c s' => ?_, fun f => ⟨?_, ?_, ?_⟩, fun c s' classified => ?_, fun e s' => ?_,
    fun fileOf steady xs ys s₁ s₂ s₃ => classify_append steady xs ys s₁ s₂ s₃⟩
  · rw [classify_eq_ok_iff]
    refine exists_congr fun found => and_congr_right fun _ => and_congr_right fun _ => ?_
    rw [Classified.ofFound_eq]
    rcases c with ⟨inNetwork, elsewhere, stored⟩
    rw [Classified.mk.injEq]
    rfl
  · rw [FoundItem.isAt_iff, Location.of_eq_inNetwork_iff,
      FileObject.exists_externalUrl_iff]
  · rw [FoundItem.isAt_iff, Location.of_eq_elsewhere_iff,
      FileObject.exists_externalUrl_iff]
  · rw [FoundItem.isAt_iff, Location.of_eq_stored_iff, FileObject.externalUrl_eq_none_iff]
  · obtain ⟨found, all, -, rfl⟩ := classify_eq_ok_iff.mp classified
    have same := all.items_eq
    refine ⟨same ▸ Classified.described_perm network found, ?_, ?_⟩
    · rw [Classified.size_ofFound, ← same, List.length_map]
    · exact (Classified.external_append_storedIds_perm _).trans
        (same ▸ Classified.described_perm network found)
  · simp only [classify_eq_error_iff, Course.located_eq_error_iff]

end World

end Deposit
