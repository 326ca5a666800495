import Deposit.Proofs.Text.Infix
import Deposit.Proofs.Xml.Events

/-!
Documents that are cut off.

Markup that ends in front of a cut is read the same whatever stands behind it
(`readMarkup_append`), and markup that the cut goes through is a fault. So the events of a
document that is cut off anywhere, if they are read without a fault, are the first events of
the whole document, but for a text at the end that the cut may have shortened (`events_take`).
-/

namespace Deposit.Xml

/-! ### The ends of markup -/

section Ends

variable {s content rest : Bytes}

theorem atTagEnd?_append {quote : Option UInt8}
    (found : atTagEnd? quote s = some (content, rest)) (more : Bytes) :
    atTagEnd? quote (s ++ more) = some (content, rest ++ more) := by
  induction s generalizing quote content with
  | nil => cases found
  | cons b s ih =>
      cases quote with
      | none =>
          simp only [List.cons_append, atTagEnd?] at found ⊢
          split_ifs at found ⊢
          · cases found
            rfl
          all_goals
            obtain ⟨⟨inside, behind⟩, further, same⟩ := Option.map_eq_some_iff.mp found
            cases same
            rw [ih further]
            rfl
      | some q =>
          simp only [List.cons_append, atTagEnd?] at found ⊢
          obtain ⟨⟨inside, behind⟩, further, same⟩ := Option.map_eq_some_iff.mp found
          cases same
          rw [ih further]
          rfl

theorem atEnd?_append {last before : Bytes} {least : Nat}
    (found : atEnd? last least before s = some (content, rest)) (more : Bytes) :
    atEnd? last least before (s ++ more) = some (content, rest ++ more) := by
  induction s generalizing before with
  | nil => cases found
  | cons b s ih =>
      simp only [List.cons_append, atEnd?] at found ⊢
      split_ifs at found ⊢
      · cases found
        rfl
      · exact ih found

theorem atDoctypeEnd?_append {depth : Nat}
    (found : atDoctypeEnd? depth s = some (content, rest)) (more : Bytes) :
    atDoctypeEnd? depth (s ++ more) = some (content, rest ++ more) := by
  induction s generalizing depth content with
  | nil => cases found
  | cons b s ih =>
      simp only [List.cons_append, atDoctypeEnd?] at found ⊢
      split_ifs at found ⊢
      · cases found
        rfl
      all_goals
        obtain ⟨⟨inside, behind⟩, further, same⟩ := Option.map_eq_some_iff.mp found
        cases same
        rw [ih further]
        rfl

end Ends

/-! ### Markup -/

section Markup

variable {opened opened' : List Bytes} {s rest : Bytes} {event : Event}

theorem readStart_append (read : readStart opened s = .ok (event, opened', rest)) (more : Bytes) :
    readStart opened (s ++ more) = .ok (event, opened', rest ++ more) := by
  unfold readStart at read
  split at read
  · cases read
  next content behind found =>
  rw [readStart, atTagEnd?_append found more]
  dsimp only
  split_ifs at read ⊢
  all_goals
    cases read
    rfl

theorem readEnd_append (read : readEnd opened s = .ok (event, opened', rest)) (more : Bytes) :
    readEnd opened (s ++ more) = .ok (event, opened', rest ++ more) := by
  unfold readEnd at read
  split at read
  · cases read
  next content behind found =>
  rw [readEnd, atTagEnd?_append found more]
  cases opened with
  | nil => cases read
  | cons expected outer =>
      dsimp only at read ⊢
      split_ifs at read ⊢
      cases read
      rfl

theorem readInstruction_append (read : readInstruction opened s = .ok (event, opened', rest))
    (more : Bytes) : readInstruction opened (s ++ more) = .ok (event, opened', rest ++ more) := by
  unfold readInstruction at read
  split at read
  · cases read
  next content behind found =>
  rw [readInstruction, atEnd?_append found more]
  dsimp only
  split_ifs at read ⊢
  cases read
  rfl

theorem readBang_append (read : readBang opened s = .ok (event, opened', rest)) (more : Bytes) :
    readBang opened (s ++ more) = .ok (event, opened', rest ++ more) := by
  unfold readBang at read
  split at read
  · cases read
  next kind others kinds =>
  have long : 1 ≤ s.length := by
    have := congrArg List.length kinds
    simp only [List.length_drop, List.length_cons] at this
    omega
  rw [readBang, List.drop_append_of_le_length long, kinds, List.cons_append]
  dsimp only
  -- Each kind of markup has an end of its own.
  split_ifs at read ⊢
  · split at read
    · next found =>
      rw [atEnd?_append found more]
      dsimp only
      split_ifs at read ⊢
      cases read
      rfl
    · cases read
  · split at read
    · next found =>
      rw [atEnd?_append found more]
      dsimp only
      split_ifs at read ⊢
      cases read
      rfl
    · cases read
  · split at read
    · next found =>
      rw [atDoctypeEnd?_append found more]
      dsimp only at read ⊢
      split_ifs at read ⊢
      cases read
      rfl
    · cases read

/-- Markup that is there to its end is read the same whatever stands behind it. -/
theorem readMarkup_append (read : readMarkup opened s = .ok (event, opened', rest))
    (more : Bytes) : readMarkup opened (s ++ more) = .ok (event, opened', rest ++ more) := by
  cases s with
  | nil => cases read
  | cons b s =>
      simp only [List.cons_append, readMarkup] at read ⊢
      split_ifs at read ⊢
      · exact readBang_append read more
      · exact readEnd_append read more
      · exact readInstruction_append read more
      · exact readStart_append read more

end Markup

/-! ### Events -/

/-- Events that are the first of others, but for a text at the end that may be another one. -/
def IsCutOf (read whole : List Event) : Prop :=
  ∃ first, first <+: whole ∧ (read = first ∨ ∃ content, read = first ++ [.text content])

theorem isCutOf_nil (whole : List Event) : IsCutOf [] whole :=
  ⟨[], List.nil_prefix, .inl rfl⟩

theorem isCutOf_text (content : Bytes) (whole : List Event) : IsCutOf [.text content] whole :=
  ⟨[], List.nil_prefix, .inr ⟨content, rfl⟩⟩

theorem IsCutOf.cons {read whole : List Event} (cut : IsCutOf read whole) (event : Event) :
    IsCutOf (event :: read) (event :: whole) := by
  obtain ⟨first, front, same⟩ := cut
  refine ⟨event :: first, List.cons_prefix_cons.mpr ⟨rfl, front⟩, ?_⟩
  rcases same with rfl | ⟨content, rfl⟩
  · exact .inl rfl
  · exact .inr ⟨content, rfl⟩

/-- Bytes that are read without a fault are read as the first events of what they are the
front of. -/
theorem eventsFrom_append (more : Bytes) {fuel fuel' : Nat} (enough : fuel ≤ fuel')
    {opened : List Bytes} {s : Bytes} (sound : (eventsFrom fuel opened s).2 = none) :
    IsCutOf (eventsFrom fuel opened s).1 (eventsFrom fuel' opened (s ++ more)).1 := by
  induction fuel generalizing fuel' opened s with
  | zero => exact isCutOf_nil _
  | succ fuel ih =>
      obtain ⟨fuel', rfl⟩ := Nat.exists_eq_add_of_lt enough
      have enough : fuel ≤ fuel + fuel' := Nat.le_add_right _ _
      cases inside : s.dropWhile isBlank with
      | nil =>
          rw [eventsFrom, inside]
          exact isCutOf_nil _
      | cons b rest =>
          have inside' : (s ++ more).dropWhile isBlank = b :: (rest ++ more) := by
            rw [List.dropWhile_append, inside]
            rfl
          rw [eventsFrom, inside] at sound ⊢
          rw [eventsFrom, inside']
          dsimp only at sound ⊢
          split_ifs at sound ⊢ with markup
          · cases read : readMarkup opened rest with
            | error fault =>
                rw [read] at sound
                cases sound
            | ok result =>
                obtain ⟨event, opened', behind⟩ := result
                rw [read] at sound
                rw [readMarkup_append read more]
                exact (ih enough sound).cons event
          · rw [drop_takeWhile] at sound ⊢
            rw [drop_takeWhile, ← List.cons_append, List.dropWhile_append]
            cases behind : (b :: rest).dropWhile (· != 0x3C) with
            | nil =>
                -- The text goes on to the cut.
                rw [eventsFrom_nil]
                exact isCutOf_text _ _
            | cons c later =>
                rw [behind] at sound
                rw [takeWhile_append_of_dropWhile (by simp [behind])]
                exact (ih enough sound).cons _

/-- The part of a byte order mark that a cut leaves is at most a text. -/
theorem events_cut_mark {s rest : Bytes} (cut : [0xEF, 0xBB, 0xBF] = s ++ rest) (ne : rest ≠ [])
    (whole : List Event) : IsCutOf (events s).1 whole := by
  rcases s with _ | ⟨a, _ | ⟨b, _ | ⟨c, more⟩⟩⟩
  · exact isCutOf_nil _
  · cases cut
    exact isCutOf_text _ _
  · cases cut
    exact isCutOf_text _ _
  · simp [ne] at cut

/-- **Documents that are cut off.** What is left of a document, if it is read without a fault, has
the first events of the document, but for a text at its end. -/
theorem events_take (document : Bytes) (k : Nat) (sound : (events (document.take k)).2 = none) :
    IsCutOf (events (document.take k)).1 (events document).1 := by
  have whole := List.take_append_drop k document
  generalize document.take k = s, document.drop k = more at whole sound ⊢
  subst whole
  cases marked : Split.behind? [0xEF, 0xBB, 0xBF] s with
  | some rest =>
      have marked' : Split.behind? [0xEF, 0xBB, 0xBF] (s ++ more) = some (rest ++ more) := by
        rw [Split.behind?_eq_some_iff] at marked ⊢
        rw [marked, List.append_assoc]
      rw [events, marked] at sound ⊢
      rw [events, marked']
      exact eventsFrom_append more (by simp) sound
  | none =>
      cases marked' : Split.behind? [0xEF, 0xBB, 0xBF] (s ++ more) with
      | none =>
          rw [events, marked] at sound ⊢
          rw [events, marked']
          exact eventsFrom_append more (by simp) sound
      | some rest =>
          -- The cut goes through the mark itself.
          rcases List.append_eq_append_iff.mp (Split.behind?_eq_some_iff.mp marked') with
            ⟨left, cut, -⟩ | ⟨left, cut, -⟩
          · refine events_cut_mark cut ?_ _
            rintro rfl
            rw [List.append_nil] at cut
            rw [← cut] at marked
            cases marked
          · rw [Split.behind?_eq_some_iff.mpr cut] at marked
            cases marked

end Deposit.Xml
