import Deposit.Proofs.Text.Tags

/-!
A text in pieces: what is kept of it, with the tags between that are taken out.

Each tag is as short as it can be, and no tag begins in what is kept (`Pieces.Leftmost`). A text
is in such pieces in one way only (`Pieces.Leftmost.unique`), and the pass from the left leaves
what is kept of them (`exists_leftmost`). Every step of the pass takes a tag or a character
(`strip_cases`), and of a run of `<` all but the last stay (`strip_run`).
-/

namespace Deposit.Tags

/-- A tag that is as short as it can be, with its brackets. -/
def IsTag (tag : List Char) : Prop := ∃ body, tag = '<' :: (body ++ ['>']) ∧ IsShortBody body

/-- Whether a tag begins with the first character of a text, however long. -/
def Begins (text : List Char) : Prop :=
  ∃ body behind, text = '<' :: (body ++ '>' :: behind) ∧ IsBody body

/-- A piece in which no tag begins, in front of what is behind it. -/
def Untouched (piece behind : List Char) : Prop :=
  ∀ before after, piece = before ++ after → after ≠ [] → ¬ Begins (after ++ behind)

/-- A text in pieces: what is kept of it, and tags between. -/
inductive Pieces where
  /-- No tag follows. -/
  | last (kept : List Char)
  /-- What is kept in front of a tag, the tag, and the pieces behind it. -/
  | cut (kept tag : List Char) (behind : Pieces)

namespace Pieces

/-- The text that is in pieces. -/
def text : Pieces → List Char
  | .last kept => kept
  | .cut kept tag behind => kept ++ (tag ++ behind.text)

/-- What is kept of it. -/
def kept : Pieces → List Char
  | .last kept => kept
  | .cut kept _ behind => kept ++ behind.kept

/-- The tags are short, and no tag begins anywhere else. -/
def Leftmost : Pieces → Prop
  | .last kept => Untouched kept []
  | .cut kept tag behind =>
    Untouched kept (tag ++ behind.text) ∧ IsTag tag ∧ behind.Leftmost

/-- The pieces with one more character in front. -/
def push (c : Char) : Pieces → Pieces
  | .last kept => .last (c :: kept)
  | .cut kept tag behind => .cut (c :: kept) tag behind

@[simp] theorem text_push (c : Char) (p : Pieces) : (p.push c).text = c :: p.text := by
  cases p <;> rfl

@[simp] theorem kept_push (c : Char) (p : Pieces) : (p.push c).kept = c :: p.kept := by
  cases p <;> rfl

end Pieces

/-! ### Where tags begin -/

theorem begins_iff {text : List Char} : Begins text ↔ ∃ behind, behindTag? text = some behind := by
  constructor
  · rintro ⟨body, behind, rfl, isBody⟩
    obtain ⟨short, behind', same, isShort⟩ := isBody.shorten behind
    exact ⟨behind', behindTag?_eq_some_iff.mpr ⟨short, by rw [same], isShort⟩⟩
  · rintro ⟨behind, found⟩
    obtain ⟨body, rfl, short⟩ := behindTag?_eq_some_iff.mp found
    exact ⟨body, behind, rfl, short.1⟩

theorem not_begins_iff {text : List Char} : ¬ Begins text ↔ behindTag? text = none := by
  rw [begins_iff, Option.eq_none_iff_forall_ne_some, not_exists]

theorem not_begins_nil : ¬ Begins [] := by
  rintro ⟨body, behind, text, -⟩
  cases text

/-- What is behind a tag is what follows it in the text. -/
theorem behindTag?_eq_some_iff_isTag {text behind : List Char} :
    behindTag? text = some behind ↔ ∃ tag, IsTag tag ∧ text = tag ++ behind := by
  rw [behindTag?_eq_some_iff]
  constructor
  · rintro ⟨body, rfl, short⟩
    exact ⟨_, ⟨body, rfl, short⟩, by simp⟩
  · rintro ⟨-, ⟨body, rfl, short⟩, rfl⟩
    exact ⟨body, by simp, short⟩

theorem IsTag.begins {tag : List Char} (h : IsTag tag) (behind : List Char) :
    Begins (tag ++ behind) :=
  begins_iff.mpr ⟨behind, behindTag?_eq_some_iff_isTag.mpr ⟨tag, h, rfl⟩⟩

theorem untouched_nil (behind : List Char) : Untouched [] behind := by
  intro before after split some
  exact absurd (List.append_eq_nil_iff.mp split.symm).2 some

theorem untouched_cons {c : Char} {piece behind : List Char} :
    Untouched (c :: piece) behind ↔ ¬ Begins (c :: (piece ++ behind)) ∧ Untouched piece behind := by
  constructor
  · intro h
    exact ⟨h [] (c :: piece) rfl (by simp),
      fun before after split some => h (c :: before) after (by rw [split]; rfl) some⟩
  · rintro ⟨first, others⟩ before after split some
    cases before with
    | nil =>
        rw [List.nil_append] at split
        rw [← split]
        exact first
    | cons d before => exact others before after (List.cons.inj split).2 some

/-! ### The pieces of a text -/

namespace Pieces

theorem leftmost_push {c : Char} {p : Pieces} :
    (p.push c).Leftmost ↔ ¬ Begins (c :: p.text) ∧ p.Leftmost := by
  cases p with
  | last kept => simp [push, Leftmost, untouched_cons, text]
  | cut kept tag behind => simp [push, Leftmost, untouched_cons, text, and_assoc]

/-- Pieces begin with a character that is kept or with a tag, if they are not empty. -/
theorem cases_front (p : Pieces) :
    p = last [] ∨ (∃ c rest, p = push c rest) ∨ ∃ tag behind, p = cut [] tag behind := by
  cases p with
  | last kept =>
      cases kept with
      | nil => exact .inl rfl
      | cons c kept => exact .inr (.inl ⟨c, last kept, rfl⟩)
  | cut kept tag behind =>
      cases kept with
      | nil => exact .inr (.inr ⟨tag, behind, rfl⟩)
      | cons c kept => exact .inr (.inl ⟨c, cut kept tag behind, rfl⟩)

/-- An empty text has one piece. -/
theorem Leftmost.of_nil {p : Pieces} (h : p.Leftmost) (text : p.text = []) : p = last [] := by
  rcases p.cases_front with rfl | ⟨c, rest, rfl⟩ | ⟨tag, rest, rfl⟩
  · rfl
  · simp at text
  · have begins := h.2.1.begins rest.text
    rw [show tag ++ rest.text = [] from text] at begins
    exact absurd begins not_begins_nil

/-- If a tag begins a text, then the first piece is that tag. -/
theorem Leftmost.of_tag {p : Pieces} (h : p.Leftmost) {tag behind : List Char}
    (isTag : IsTag tag) (text : p.text = tag ++ behind) :
    ∃ rest, p = .cut [] tag rest ∧ rest.Leftmost ∧ rest.text = behind := by
  have begins := isTag.begins behind
  rcases p.cases_front with rfl | ⟨c, rest, rfl⟩ | ⟨tag', rest, rfl⟩
  · rw [← text] at begins
    exact absurd begins not_begins_nil
  · rw [← text, text_push] at begins
    exact absurd begins (leftmost_push.mp h).1
  · obtain ⟨-, isTag', later⟩ := h
    have found := behindTag?_eq_some_iff_isTag.mpr ⟨tag, isTag, text⟩
    have found' : behindTag? (cut [] tag' rest).text = some rest.text :=
      behindTag?_eq_some_iff_isTag.mpr ⟨tag', isTag', rfl⟩
    obtain rfl := Option.some.inj (found'.symm.trans found)
    obtain rfl : tag' = tag := List.append_cancel_right text
    exact ⟨rest, rfl, later, rfl⟩

/-- If no tag begins a text, then its first character is kept. -/
theorem Leftmost.of_char {p : Pieces} (h : p.Leftmost) {c : Char} {text : List Char}
    (none : ¬ Begins (c :: text)) (same : p.text = c :: text) :
    ∃ rest, p = push c rest ∧ rest.Leftmost ∧ rest.text = text := by
  rcases p.cases_front with rfl | ⟨d, rest, rfl⟩ | ⟨tag, rest, rfl⟩
  · cases same
  · rw [text_push] at same
    obtain ⟨rfl, rfl⟩ := List.cons.inj same
    exact ⟨rest, rfl, (leftmost_push.mp h).2, rfl⟩
  · rw [← same] at none
    exact absurd (h.2.1.begins rest.text) none

/-- A text is in pieces in one way only. -/
theorem Leftmost.unique {p q : Pieces} {text : List Char} (hp : p.Leftmost) (hq : q.Leftmost)
    (textp : p.text = text) (textq : q.text = text) : p = q := by
  induction text using strip.induct generalizing p q with
  | case1 text behind found _ ih =>
      obtain ⟨tag, isTag, rfl⟩ := behindTag?_eq_some_iff_isTag.mp found
      obtain ⟨p, rfl, hp, textp⟩ := hp.of_tag isTag textp
      obtain ⟨q, rfl, hq, textq⟩ := hq.of_tag isTag textq
      rw [ih hp hq textp textq]
  | case2 =>
      rw [hp.of_nil textp, hq.of_nil textq]
  | case3 c rest none ih =>
      obtain ⟨p, rfl, hp, textp⟩ := hp.of_char (not_begins_iff.mpr none) textp
      obtain ⟨q, rfl, hq, textq⟩ := hq.of_char (not_begins_iff.mpr none) textq
      rw [ih hp hq textp textq]

end Pieces

/-- Every text is in pieces, and the pass leaves what is kept of them. -/
theorem exists_leftmost (text : List Char) :
    ∃ p : Pieces, p.text = text ∧ p.Leftmost ∧ strip text = p.kept := by
  induction text using strip.induct with
  | case1 text behind found _ ih =>
      obtain ⟨p, rfl, leftmost, stripped⟩ := ih
      rw [strip_of_tag found]
      obtain ⟨tag, isTag, rfl⟩ := behindTag?_eq_some_iff_isTag.mp found
      exact ⟨.cut [] tag p, rfl, ⟨untouched_nil _, isTag, leftmost⟩, stripped⟩
  | case2 => exact ⟨.last [], rfl, untouched_nil [], strip_nil⟩
  | case3 c rest none ih =>
      obtain ⟨p, rfl, leftmost, stripped⟩ := ih
      exact ⟨p.push c, p.text_push c, Pieces.leftmost_push.mpr ⟨not_begins_iff.mpr none, leftmost⟩,
        by rw [strip_of_none none, stripped, p.kept_push]⟩

/-! ### Steps of the pass -/

/-- A step of the pass takes a tag out, or goes over a character that no tag begins with. -/
theorem strip_cases (c : Char) (rest : List Char) :
    (∃ tag behind, IsTag tag ∧ c :: rest = tag ++ behind ∧ behind.length ≤ rest.length ∧
        strip (c :: rest) = strip behind) ∨
      ¬ Begins (c :: rest) ∧ strip (c :: rest) = c :: strip rest := by
  cases found : behindTag? (c :: rest) with
  | none => exact .inr ⟨not_begins_iff.mpr found, strip_of_none found⟩
  | some behind =>
      obtain ⟨tag, isTag, text⟩ := behindTag?_eq_some_iff_isTag.mp found
      exact .inl ⟨tag, behind, isTag, text, Nat.le_of_lt_succ (behindTag?_length found),
        strip_of_tag found⟩

/-- Without a `>` there is no tag. -/
theorem HasTag.mem_close {text : List Char} (h : HasTag text) : '>' ∈ text := by
  obtain ⟨before, body, behind, rfl, -⟩ := h
  simp

/-- Of a run of `<` all but the last are passed over: they are not closed. -/
theorem strip_run (n : Nat) (rest : List Char) :
    strip (List.replicate n '<' ++ '<' :: rest) =
      List.replicate n '<' ++ strip ('<' :: rest) := by
  have unclosed : ¬ HasTag (List.replicate n '<') :=
    fun tagged => absurd (List.eq_of_mem_replicate tagged.mem_close) (by decide)
  rw [strip_append_open, strip_eq_self_iff.mpr unclosed]

/-! ### Texts without their tags -/

theorem toList_stripText (text : String) : (stripText text).toList = strip text.toList :=
  String.toList_ofList

/-- **The pass takes out exactly the leftmost tags, each as short as it can be.**

* There are pieces of the text, tags and what is kept between them, such that each tag is `<`,
  at least one character and `>`, without another `<`, and without a `>` behind the first of
  these characters; no tag of any length begins at a position in what is kept; and the text that
  the pass leaves is what is kept. There are no other such pieces of it.
* So `<>` is no tag, and `<>x>` is one.
* A text without `<` or without `>` comes through unchanged.
* A step takes a tag out, or goes over a character that no tag begins with: what is left to do
  is shorter.
* Of a run of `<` all but the last are gone over. -/
theorem stripText_takes_leftmost (text : String) :
    (∃ pieces : Pieces,
        (pieces.text = text.toList ∧ pieces.Leftmost ∧
          (stripText text).toList = pieces.kept) ∧
        ∀ others : Pieces, others.text = text.toList → others.Leftmost → others = pieces) ∧
      (¬ IsTag ['<', '>'] ∧ IsTag ['<', '>', 'x', '>']) ∧
      ('<' ∉ text.toList ∨ '>' ∉ text.toList → stripText text = text) ∧
      (∀ c rest, text.toList = c :: rest →
        (∃ tag behind, IsTag tag ∧ text.toList = tag ++ behind ∧ behind.length ≤ rest.length ∧
          strip text.toList = strip behind) ∨
        ¬ Begins text.toList ∧ strip text.toList = c :: strip rest) ∧
      ∀ n, strip (List.replicate n '<' ++ '<' :: text.toList) =
        List.replicate n '<' ++ strip ('<' :: text.toList) := by
  refine ⟨?_, ⟨?_, ?_⟩, ?_, ?_, fun n => strip_run n text.toList⟩
  · obtain ⟨pieces, same, leftmost, stripped⟩ := exists_leftmost text.toList
    exact ⟨pieces, ⟨same, leftmost, (toList_stripText text).trans stripped⟩,
      fun others same' leftmost' => leftmost'.unique leftmost same' same⟩
  · rintro ⟨body, same, short⟩
    -- Between the brackets there is nothing.
    have none : body = [] := by simpa using (List.cons.inj same).2
    exact short.1.1 none
  · exact ⟨['>', 'x'], rfl, ⟨by decide, by decide⟩, by decide⟩
  · intro absent
    have untagged : ¬ HasTag text.toList := fun tagged =>
      absent.elim (fun no => no tagged.mem) fun no => no tagged.mem_close
    rw [stripText, strip_eq_self_iff.mpr untagged, String.ofList_toList]
  · intro c rest same
    rw [same]
    exact strip_cases c rest

/-- A `>` right behind a `<` is part of a tag, and a `<` that is not closed stays. -/
example : stripText "a<>x>b<<c>d<>" = "ab<d<>" := by decide +kernel

end Deposit.Tags
