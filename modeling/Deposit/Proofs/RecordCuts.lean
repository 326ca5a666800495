import Deposit.Proofs.DescriptiveRecord
import Deposit.Proofs.Xml.Cut

/-!
Records that are cut off.

The texts of an entry are put into it as they are read, so at most cuts the state of reading holds
a name or a size that is not there to its end. An entry counts only when its element ends, so what
is read in front of a cut, if it can be read, is the first entries of the whole record
(`readEntries_take`), wherever the cut is.
-/

namespace Deposit.DescriptiveRecord

/-- Reading an event, then the others. -/
theorem entriesOf_cons_eq_ok_iff {state : Reading} {event : Xml.Event} {rest : List Xml.Event}
    {entries : List ObjectEntry} :
    entriesOf state (event :: rest) = .ok entries ↔
      ∃ after completed later, step state event = .ok (after, completed) ∧
        entriesOf after rest = .ok later ∧ entries = completed.toList ++ later := by
  rw [entriesOf]
  constructor
  · intro read
    split at read
    · cases read
    next after completed stepped =>
    split at read
    · cases read
    next later behind =>
    cases read
    exact ⟨after, completed, later, stepped, behind, rfl⟩
  · rintro ⟨after, completed, later, stepped, behind, rfl⟩
    rw [stepped]
    dsimp only
    rw [behind]

/-- A text completes no entry. -/
theorem step_text {before after : Reading} {content : Bytes} {completed : Option ObjectEntry}
    (stepped : step before (.text content) = .ok (after, completed)) : completed = none := by
  simp only [step] at stepped
  cases here : before.entry with
  | none =>
      rw [here] at stepped
      cases stepped
      rfl
  | some entry =>
      rw [here] at stepped
      dsimp only at stepped
      split at stepped
      · cases stepped
      split at stepped
      · cases stepped
      cases stepped
      rfl

/-- The first events complete the first entries. -/
theorem entriesOf_prefix {first whole : List Xml.Event} (front : first <+: whole)
    {state : Reading} {left entries : List ObjectEntry}
    (cut : entriesOf state first = .ok left) (read : entriesOf state whole = .ok entries) :
    left <+: entries := by
  induction first generalizing whole state left entries with
  | nil =>
      cases cut
      exact List.nil_prefix
  | cons event rest ih =>
      obtain ⟨more, rfl⟩ := front
      obtain ⟨after, completed, later, stepped, behind, rfl⟩ := entriesOf_cons_eq_ok_iff.mp cut
      obtain ⟨_, _, later', stepped', behind', rfl⟩ := entriesOf_cons_eq_ok_iff.mp read
      cases stepped.symm.trans stepped'
      exact (List.prefix_append_right_inj _).mpr (ih (List.prefix_append _ _) behind behind')

/-- A text behind other events makes no entry. -/
theorem entriesOf_append_text {events : List Xml.Event} {content : Bytes} {state : Reading}
    {left : List ObjectEntry} (read : entriesOf state (events ++ [.text content]) = .ok left) :
    entriesOf state events = .ok left := by
  induction events generalizing state left with
  | nil =>
      obtain ⟨after, completed, later, stepped, behind, rfl⟩ := entriesOf_cons_eq_ok_iff.mp read
      cases behind
      rw [step_text stepped]
      rfl
  | cons event rest ih =>
      obtain ⟨after, completed, later, stepped, behind, rfl⟩ := entriesOf_cons_eq_ok_iff.mp read
      exact entriesOf_cons_eq_ok_iff.mpr ⟨after, completed, later, stepped, ih behind, rfl⟩

/-- The entries of a document are those of its events, if there is no fault. -/
theorem readEntries_eq_ok_iff {document : Bytes} {entries : List ObjectEntry} :
    readEntries document = .ok entries ↔
      (Xml.events document).2 = none ∧
        entriesOf ⟨none, []⟩ (Xml.events document).1 = .ok entries := by
  unfold readEntries
  obtain ⟨events, fault⟩ := Xml.events document
  dsimp only
  cases entriesOf ⟨none, []⟩ events with
  | error _ => simp
  | ok _ => cases fault <;> simp

/-- What is left of a document behind a cut cannot be read, or has the first entries of the
document. -/
theorem readEntries_take {document : Bytes} {entries : List ObjectEntry}
    (whole : readEntries document = .ok entries) (k : Nat) :
    (∃ fault, readEntries (document.take k) = .error fault) ∨
      ∃ left, readEntries (document.take k) = .ok left ∧ left <+: entries := by
  obtain ⟨-, read⟩ := readEntries_eq_ok_iff.mp whole
  cases cut : readEntries (document.take k) with
  | error fault => exact .inl ⟨fault, rfl⟩
  | ok left =>
      refine .inr ⟨left, rfl, ?_⟩
      obtain ⟨sound, cut⟩ := readEntries_eq_ok_iff.mp cut
      obtain ⟨first, front, same | ⟨content, same⟩⟩ := Xml.events_take document k sound
      · rw [same] at cut
        exact entriesOf_prefix front cut read
      · rw [same] at cut
        exact entriesOf_prefix front (entriesOf_append_text cut) read

/-- **Records that are cut off.** The entries of a record that was written are read back, and of
what is left of the record behind a cut at any byte, the entries cannot be read or are the first of
these: none is altered, none is out of order, and there is no other. -/
theorem readEntries_cut {tale : Tale} {user : User} {items : List ObjectEntry}
    (itemSizes : ∀ entry ∈ items, entry.size < 2 ^ 64) {pid : Pid} {sizes : FileSizes}
    (packageInfo : sizes.packageInfo < 2 ^ 64) (license : sizes.license < 2 ^ 64)
    (environment : sizes.environment < 2 ^ 64) {licenseId userId : String} {xml : Bytes}
    (written : document tale user items pid sizes licenseId userId = .ok xml) :
    ∃ entries, readEntries xml = .ok entries ∧
      entries = items.map ObjectEntry.normal ++ generatedEntries sizes ∧
      ∀ k, (∃ fault, readEntries (xml.take k) = .error fault) ∨
        ∃ left, readEntries (xml.take k) = .ok left ∧ left <+: entries := by
  have small : ∀ entry ∈ items ++ generatedEntries sizes, entry.size < 2 ^ 64 := by
    intro entry mem
    rcases List.mem_append.mp mem with mem | mem
    · exact itemSizes entry mem
    · exact size_lt_of_mem_generatedEntries packageInfo license environment mem
  have whole := readEntries_of_document small written
  exact ⟨_, whole, rfl, readEntries_take whole⟩

/-- A name that a cut can shorten, also inside of its first character, and a size that a cut can
make smaller. -/
theorem readEntries_cut_accented :
    ∃ xml, document ⟨"tale", "Title", none, none, none, none, none⟩
        ⟨"user", some "Jane", some "Doe", some "jane@example.org"⟩
        [⟨"é.csv", "", 1234, "text/csv"⟩] ⟨"1"⟩ ⟨10, 0, 20⟩ "CC0-1.0" "user" = .ok xml ∧
      readEntries xml = .ok [⟨"é.csv", "", 1234, "text/csv"⟩, .ofGenerated .packageInfo 10,
        .ofGenerated .environment 20] ∧
      ∀ k, (∃ fault, readEntries (xml.take k) = .error fault) ∨
        ∃ left, readEntries (xml.take k) = .ok left ∧
          left <+: [⟨"é.csv", "", 1234, "text/csv"⟩, .ofGenerated .packageInfo 10,
            .ofGenerated .environment 20] := by
  obtain ⟨publisher, named⟩ : ∃ publisher, Publisher.ofUser
      ⟨"user", some "Jane", some "Doe", some "jane@example.org"⟩ = .ok publisher :=
    Publisher.ofUser_ok ⟨"Jane", rfl, by decide⟩ ⟨"Doe", rfl, by decide⟩
      ⟨"jane@example.org", rfl, by decide⟩
  have written : document ⟨"tale", "Title", none, none, none, none, none⟩
      ⟨"user", some "Jane", some "Doe", some "jane@example.org"⟩
      [⟨"é.csv", "", 1234, "text/csv"⟩] ⟨"1"⟩ ⟨10, 0, 20⟩ "CC0-1.0" "user" =
        .ok (Xml.documentBytes (element ⟨"tale", "Title", none, none, none, none, none⟩ publisher
          [⟨"é.csv", "", 1234, "text/csv"⟩] ⟨"1"⟩ ⟨10, 0, 20⟩ "CC0-1.0" "user")) := by
    rw [document, named]
    rfl
  obtain ⟨entries, read, same, cuts⟩ :=
    readEntries_cut (by decide) (by decide) (by decide) (by decide) written
  have normal : ObjectEntry.normal ⟨"é.csv", "", 1234, "text/csv"⟩ =
      ⟨"é.csv", "", 1234, "text/csv"⟩ := by decide +kernel
  rw [List.map_singleton, normal] at same
  subst same
  exact ⟨_, written, read, cuts⟩

end Deposit.DescriptiveRecord
