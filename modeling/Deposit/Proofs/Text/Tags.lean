import Deposit.Text.Tags
import Mathlib.Data.List.Basic
import Mathlib.Logic.Function.Iterate

/-!
What is left of a text without its tags.

A text holds a tag if somewhere in it `<` and `>` stand around at least one character, none of
them `<` (`HasTag`). Tags are taken out in one pass from the left, and to take one out joins
what stands around it.

* `strip_eq_self_iff`: a text comes through unchanged exactly if it holds no tag.
* `hasTag_strip_iff`: a tag is left exactly if brackets stand around tags and around the body of
  a tag mixed with them (`Encloses`).
* `strip_iterate`: each pass takes out a `<` at least, so as many passes as there are leave no
  tag.
-/

namespace Deposit.Tags

/-! ### Tags in a text -/

/-- What stands between the brackets of a tag: something, but no `<`. -/
def IsBody (body : List Char) : Prop := body ≠ [] ∧ '<' ∉ body

/-- What stands between the brackets of a tag that is as short as it can be. -/
def IsShortBody (body : List Char) : Prop := IsBody body ∧ '>' ∉ body.tail

/-- Whether a tag stands somewhere in a text. -/
def HasTag (text : List Char) : Prop :=
  ∃ before body behind, text = before ++ '<' :: (body ++ '>' :: behind) ∧ IsBody body

/-- A text of tags and of characters other than `<`, and these characters alone. -/
inductive Mixes : List Char → List Char → Prop where
  | nil : Mixes [] []
  | tag {body text left : List Char} (short : IsShortBody body) (rest : Mixes text left) :
    Mixes ('<' :: (body ++ '>' :: text)) left
  | char {c : Char} {text left : List Char} (differs : c ≠ '<') (rest : Mixes text left) :
    Mixes (c :: text) (c :: left)

/-- Whether brackets in a text stand around tags, and around the body of a tag mixed with
them. -/
def Encloses (text : List Char) : Prop :=
  ∃ before inside body behind, text = before ++ '<' :: (inside ++ '>' :: behind) ∧
    Mixes inside body ∧ inside ≠ body ∧ IsShortBody body

theorem not_hasTag_nil : ¬ HasTag [] := by
  rintro ⟨before, body, behind, text, -⟩
  simp at text

theorem HasTag.mem {text : List Char} (h : HasTag text) : '<' ∈ text := by
  obtain ⟨before, body, behind, rfl, -⟩ := h
  simp

theorem HasTag.cons {text : List Char} (h : HasTag text) (c : Char) : HasTag (c :: text) := by
  obtain ⟨before, body, behind, rfl, isBody⟩ := h
  exact ⟨c :: before, body, behind, rfl, isBody⟩

theorem Encloses.mem {text : List Char} (h : Encloses text) : '<' ∈ text := by
  obtain ⟨before, inside, body, behind, rfl, -⟩ := h
  simp

theorem Encloses.append {text : List Char} (h : Encloses text) (front : List Char) :
    Encloses (front ++ text) := by
  obtain ⟨before, inside, body, behind, rfl, mixes⟩ := h
  exact ⟨front ++ before, inside, body, behind, (List.append_assoc ..).symm, mixes⟩

/-- Any body is cut off at a `>` to the shortest one. -/
theorem IsBody.shorten {body : List Char} (h : IsBody body) (behind : List Char) :
    ∃ short behind', body ++ '>' :: behind = short ++ '>' :: behind' ∧ IsShortBody short := by
  obtain ⟨ne, absent⟩ := h
  obtain ⟨c, rest, rfl⟩ := List.exists_cons_of_ne_nil ne
  by_cases close : '>' ∈ rest
  · obtain ⟨front, back, rfl, first⟩ := List.eq_append_cons_of_mem close
    refine ⟨c :: front, back ++ '>' :: behind, by simp, ⟨by simp, ?_⟩, first⟩
    intro mem
    exact absent (by
      rw [← List.cons_append]
      exact List.mem_append_left _ mem)
  · exact ⟨c :: rest, behind, rfl, ⟨ne, absent⟩, close⟩

/-! ### One step -/

theorem behindClose?_append {body : List Char} (open_ : '<' ∉ body) (close : '>' ∉ body)
    (behind : List Char) : behindClose? (body ++ '>' :: behind) = some behind := by
  induction body with
  | nil => rfl
  | cons c body ih =>
      obtain ⟨noOpen, open_⟩ := List.ne_and_not_mem_of_not_mem_cons open_
      obtain ⟨noClose, close⟩ := List.ne_and_not_mem_of_not_mem_cons close
      simp [behindClose?, noOpen.symm, noClose.symm, ih open_ close]

theorem exists_of_behindClose? {text behind : List Char} (h : behindClose? text = some behind) :
    ∃ body, text = body ++ '>' :: behind ∧ '<' ∉ body ∧ '>' ∉ body := by
  induction text with
  | nil => cases h
  | cons c rest ih =>
      rw [behindClose?] at h
      by_cases close : c = '>'
      · subst close
        cases h
        exact ⟨[], rfl, by simp, by simp⟩
      · by_cases open_ : c = '<'
        · simp [open_] at h
        · simp only [beq_iff_eq, close, open_, if_false] at h
          obtain ⟨body, rfl, noOpen, noClose⟩ := ih h
          exact ⟨c :: body, rfl, by simp [noOpen, Ne.symm open_], by simp [noClose, Ne.symm close]⟩

/-- A text begins with a tag exactly if it begins with the shortest one. -/
theorem behindTag?_eq_some_iff {text behind : List Char} :
    behindTag? text = some behind ↔
      ∃ body, text = '<' :: (body ++ '>' :: behind) ∧ IsShortBody body := by
  constructor
  · intro h
    rw [behindTag?.eq_def] at h
    split at h
    · next c rest =>
      split at h
      · cases h
      · next open_ =>
        obtain ⟨body, rfl, noOpen, noClose⟩ := exists_of_behindClose? h
        have differs : '<' ≠ c := by simpa using Ne.symm (by simpa using open_)
        exact ⟨c :: body, rfl, ⟨by simp, by simp [noOpen, differs]⟩, noClose⟩
    · cases h
  · rintro ⟨body, rfl, ⟨ne, absent⟩, first⟩
    obtain ⟨c, rest, rfl⟩ := List.exists_cons_of_ne_nil ne
    obtain ⟨differs, absent⟩ := List.ne_and_not_mem_of_not_mem_cons absent
    simp [behindTag?, differs.symm, behindClose?_append absent first]

theorem behindTag?_of_ne {c : Char} (h : c ≠ '<') (rest : List Char) :
    behindTag? (c :: rest) = none := by
  rw [behindTag?.eq_def]
  split
  · next same => exact absurd (List.cons.inj same).1 h
  · rfl

/-- A tag is found whatever follows it. -/
theorem behindTag?_append {text behind : List Char} (h : behindTag? text = some behind)
    (more : List Char) : behindTag? (text ++ more) = some (behind ++ more) := by
  obtain ⟨body, rfl, short⟩ := behindTag?_eq_some_iff.mp h
  exact behindTag?_eq_some_iff.mpr ⟨body, by simp, short⟩

/-- No tag that begins in front of a `<` ends behind it. -/
theorem behindTag?_append_open {c : Char} {text : List Char} (h : behindTag? (c :: text) = none)
    (more : List Char) : behindTag? (c :: (text ++ '<' :: more)) = none := by
  rw [Option.eq_none_iff_forall_ne_some] at h ⊢
  intro behind found
  obtain ⟨body, same, short⟩ := behindTag?_eq_some_iff.mp found
  obtain ⟨rfl, parts⟩ := List.cons.inj same
  rcases List.append_eq_append_iff.mp parts with ⟨extra, rfl, right⟩ | ⟨extra, rfl, right⟩
  · -- The body reaches the `<`, or ends right in front of it, where a `>` has to be.
    cases extra with
    | nil => simp at right
    | cons d extra =>
        obtain ⟨rfl, -⟩ := List.cons.inj right
        exact short.1.2 (by simp)
  · cases extra with
    | nil => simp at right
    | cons d extra =>
        obtain ⟨rfl, -⟩ := List.cons.inj right
        exact h extra (behindTag?_eq_some_iff.mpr ⟨body, rfl, short⟩)

/-! ### One pass -/

@[simp] theorem strip_nil : strip [] = [] := by
  rw [strip]
  rfl

/-- A tag in front is taken out. -/
theorem strip_of_tag {text behind : List Char} (h : behindTag? text = some behind) :
    strip text = strip behind := by
  rw [strip]
  split
  · next found =>
    cases h.symm.trans found
    rfl
  · next found => cases h.symm.trans found

/-- A character that no tag begins with stays. -/
theorem strip_of_none {c : Char} {rest : List Char} (h : behindTag? (c :: rest) = none) :
    strip (c :: rest) = c :: strip rest := by
  rw [strip]
  split
  · next found => cases h.symm.trans found
  · rfl

/-- The pass takes out characters and moves none. -/
theorem strip_sublist (text : List Char) : (strip text).Sublist text := by
  induction text using strip.induct with
  | case1 text behind found _ ih =>
      obtain ⟨body, rfl, -⟩ := behindTag?_eq_some_iff.mp found
      rw [strip_of_tag found]
      exact ih.trans (by simpa using List.sublist_append_right ('<' :: (body ++ ['>'])) behind)
  | case2 => simp
  | case3 c rest none ih =>
      rw [strip_of_none none]
      exact ih.cons_cons c

theorem hasTag_cons_iff {c : Char} {rest : List Char} :
    HasTag (c :: rest) ↔ (∃ behind, behindTag? (c :: rest) = some behind) ∨ HasTag rest := by
  constructor
  · rintro ⟨before, body, behind, text, isBody⟩
    cases before with
    | nil =>
        obtain ⟨short, behind', same, isShort⟩ := isBody.shorten behind
        rw [List.nil_append, same] at text
        exact .inl ⟨behind', behindTag?_eq_some_iff.mpr ⟨short, text, isShort⟩⟩
    | cons d before =>
        obtain ⟨-, rest⟩ := List.cons.inj text
        exact .inr ⟨before, body, behind, rest, isBody⟩
  · rintro (⟨behind, found⟩ | tagged)
    · obtain ⟨body, text, short⟩ := behindTag?_eq_some_iff.mp found
      exact ⟨[], body, behind, text, short.1⟩
    · exact tagged.cons c

/-- A text comes through unchanged exactly if it holds no tag. -/
theorem strip_eq_self_iff {text : List Char} : strip text = text ↔ ¬ HasTag text := by
  induction text using strip.induct with
  | case1 text behind found _ ih =>
      have shorter : strip text ≠ text := by
        intro same
        have le := (strip_sublist behind).length_le
        rw [← strip_of_tag found, same] at le
        exact absurd (behindTag?_length found) (Nat.not_lt.mpr le)
      obtain ⟨body, rfl, short⟩ := behindTag?_eq_some_iff.mp found
      exact iff_of_false shorter (not_not_intro ⟨[], body, behind, rfl, short.1⟩)
  | case2 => simp [not_hasTag_nil]
  | case3 c rest none ih =>
      rw [strip_of_none none, hasTag_cons_iff, List.cons.injEq, ih]
      simp [none]

/-- Whether a text holds a tag is decided by one pass. -/
instance (text : List Char) : Decidable (HasTag text) :=
  decidable_of_iff (strip text ≠ text) (by rw [ne_eq, strip_eq_self_iff, not_not])

/-- Nothing is taken out of a text in which no tag begins. -/
theorem strip_eq_self {s : List Char} (h : '<' ∉ s) : strip s = s :=
  strip_eq_self_iff.mpr fun tagged => h tagged.mem

theorem stripText_eq_self {text : String} (h : '<' ∉ text.toList) : stripText text = text := by
  rw [stripText, strip_eq_self h, String.ofList_toList]

/-! ### What the pass leaves -/

/-- Each `<` is a fresh start: no tag reaches over it. -/
theorem strip_append_open (text more : List Char) :
    strip (text ++ '<' :: more) = strip text ++ strip ('<' :: more) := by
  induction text using strip.induct with
  | case1 text behind found _ ih =>
      rw [strip_of_tag found, strip_of_tag (behindTag?_append found _), ih]
  | case2 => simp
  | case3 c rest none ih =>
      rw [strip_of_none none, List.cons_append, strip_of_none (behindTag?_append_open none more),
        ih, List.cons_append]

/-- If no `<` is left of a text, then all its tags are taken out of it, whatever follows. -/
theorem strip_append_of_closed {text : List Char} (closed : '<' ∉ strip text)
    (more : List Char) : strip (text ++ more) = strip text ++ strip more := by
  induction text using strip.induct with
  | case1 text behind found _ ih =>
      rw [strip_of_tag found] at closed ⊢
      rw [strip_of_tag (behindTag?_append found _), ih closed]
  | case2 => simp
  | case3 c rest none ih =>
      rw [strip_of_none none] at closed ⊢
      obtain ⟨differs, closed⟩ := List.ne_and_not_mem_of_not_mem_cons closed
      rw [List.cons_append, strip_of_none (behindTag?_of_ne differs.symm _), ih closed,
        List.cons_append]

/-- The characters of a mixture are what is left of it, and all mixtures are such texts. -/
theorem mixes_iff {text left : List Char} : Mixes text left ↔ strip text = left ∧ '<' ∉ left := by
  constructor
  · intro mixes
    induction mixes with
    | nil => simp
    | tag short rest ih =>
        rw [strip_of_tag (behindTag?_eq_some_iff.mpr ⟨_, rfl, short⟩)]
        exact ih
    | char differs rest ih =>
        rw [strip_of_none (behindTag?_of_ne differs _), ih.1]
        exact ⟨rfl, List.not_mem_cons_of_ne_of_not_mem differs.symm ih.2⟩
  · rintro ⟨rfl, closed⟩
    induction text using strip.induct with
    | case1 text behind found _ ih =>
        rw [strip_of_tag found] at closed ⊢
        obtain ⟨body, rfl, short⟩ := behindTag?_eq_some_iff.mp found
        exact .tag short (ih closed)
    | case2 =>
        rw [strip_nil]
        exact .nil
    | case3 c rest none ih =>
        rw [strip_of_none none] at closed ⊢
        obtain ⟨differs, closed⟩ := List.ne_and_not_mem_of_not_mem_cons closed
        exact .char differs.symm (ih closed)

/-- If what is left is divided behind its first part, which has no `<`, then so is the text. -/
theorem exists_of_strip_eq_append {text body left : List Char}
    (h : strip text = body ++ '>' :: left) (absent : '<' ∉ body) :
    ∃ inside behind, text = inside ++ '>' :: behind ∧ strip inside = body := by
  induction text using strip.induct generalizing body with
  | case1 text rest found _ ih =>
      rw [strip_of_tag found] at h
      obtain ⟨inside, behind, rfl, stripped⟩ := ih h absent
      obtain ⟨tag, rfl, short⟩ := behindTag?_eq_some_iff.mp found
      have taken : behindTag? ('<' :: (tag ++ '>' :: inside)) = some inside :=
        behindTag?_eq_some_iff.mpr ⟨tag, rfl, short⟩
      exact ⟨'<' :: (tag ++ '>' :: inside), behind, by simp, by rw [strip_of_tag taken, stripped]⟩
  | case2 => simp at h
  | case3 c rest none ih =>
      rw [strip_of_none none] at h
      cases body with
      | nil =>
          obtain ⟨rfl, -⟩ := List.cons.inj h
          exact ⟨[], rest, rfl, strip_nil⟩
      | cons d body =>
          obtain ⟨rfl, later⟩ := List.cons.inj h
          obtain ⟨differs, absent⟩ := List.ne_and_not_mem_of_not_mem_cons absent
          obtain ⟨inside, behind, rfl, stripped⟩ := ih later absent
          exact ⟨c :: inside, behind, rfl,
            by rw [strip_of_none (behindTag?_of_ne differs.symm _), stripped]⟩

/-- Brackets around tags are no tag themselves: the first `<` between them is in the way. -/
theorem behindTag?_enclosing {inside behind : List Char} (tagged : HasTag inside)
    (short : IsShortBody (strip inside)) :
    behindTag? ('<' :: (inside ++ '>' :: behind)) = none := by
  rw [Option.eq_none_iff_forall_ne_some]
  intro rest found
  obtain ⟨body, same, isShort⟩ := behindTag?_eq_some_iff.mp found
  rcases List.append_eq_append_iff.mp (List.cons.inj same).2 with
    ⟨extra, rfl, -⟩ | ⟨extra, rfl, right⟩
  · exact isShort.1.2 (List.mem_append_left _ tagged.mem)
  · cases extra with
    | nil => exact isShort.1.2 (by simpa using tagged.mem)
    | cons c extra =>
        obtain ⟨rfl, -⟩ := List.cons.inj right
        -- The body ends at a `>` that is left between the brackets.
        have unchanged := strip_eq_self isShort.1.2
        have kept := strip_append_of_closed (unchanged.symm ▸ isShort.1.2) ('>' :: extra)
        rw [unchanged, strip_of_none (behindTag?_of_ne (by decide) _)] at kept
        obtain ⟨c, rest, rfl⟩ := List.exists_cons_of_ne_nil isShort.1.1
        exact short.2 (by rw [kept]; simp)

/-- A tag is left exactly if brackets stand around tags and a body mixed with them. -/
theorem hasTag_strip_iff {text : List Char} : HasTag (strip text) ↔ Encloses text := by
  constructor
  · induction text using strip.induct with
    | case1 text behind found _ ih =>
        intro left
        rw [strip_of_tag found] at left
        obtain ⟨body, rfl, -⟩ := behindTag?_eq_some_iff.mp found
        simpa using (ih left).append ('<' :: (body ++ ['>']))
    | case2 => simp [not_hasTag_nil]
    | case3 c rest none ih =>
        intro left
        rw [strip_of_none none, hasTag_cons_iff] at left
        rcases left with ⟨left, found⟩ | left
        · obtain ⟨body, same, short⟩ := behindTag?_eq_some_iff.mp found
          obtain ⟨rfl, parts⟩ := List.cons.inj same
          obtain ⟨inside, behind, rfl, rfl⟩ := exists_of_strip_eq_append parts short.1.2
          refine ⟨[], inside, strip inside, behind, rfl, mixes_iff.mpr ⟨rfl, short.1.2⟩, ?_, short⟩
          -- Without tags between the brackets, they would be a tag.
          intro plain
          rw [← plain] at short
          cases none.symm.trans (behindTag?_eq_some_iff.mpr ⟨inside, rfl, short⟩)
        · exact (ih left).append [c]
  · rintro ⟨before, inside, body, behind, rfl, mixes, differs, short⟩
    obtain ⟨rfl, -⟩ := mixes_iff.mp mixes
    have tagged : HasTag inside := by
      by_contra plain
      exact differs (strip_eq_self_iff.mpr plain).symm
    refine ⟨strip before, strip inside, strip behind, ?_, short.1⟩
    rw [strip_append_open, strip_of_none (behindTag?_enclosing tagged short),
      strip_append_of_closed short.1.2, strip_of_none (behindTag?_of_ne (by decide) _)]

/-! ### Several passes -/

/-- A pass takes out at least one `<` of a text that holds a tag. -/
theorem count_strip_lt {text : List Char} (h : HasTag text) :
    (strip text).count '<' < text.count '<' := by
  induction text using strip.induct with
  | case1 text behind found _ ih =>
      rw [strip_of_tag found]
      have le := (strip_sublist behind).count_le '<'
      obtain ⟨body, rfl, -⟩ := behindTag?_eq_some_iff.mp found
      simp only [List.count_cons_self, List.count_append]
      have more := List.count_le_count_cons (a := '<') (b := '>') (l := behind)
      omega
  | case2 => exact absurd h not_hasTag_nil
  | case3 c rest none ih =>
      have later : HasTag rest := by
        rcases hasTag_cons_iff.mp h with ⟨behind, found⟩ | later
        · cases none.symm.trans found
        · exact later
      rw [strip_of_none none, List.count_cons, List.count_cons]
      have := ih later
      omega

/-- As many passes as there are `<` leave no tag. -/
theorem strip_iterate {n : Nat} {text : List Char} (enough : text.count '<' ≤ n) :
    ¬ HasTag (strip^[n] text) := by
  induction n generalizing text with
  | zero =>
      intro tagged
      exact absurd tagged.mem (List.count_eq_zero.mp (Nat.le_zero.mp enough))
  | succ n ih =>
      rw [Function.iterate_succ_apply]
      by_cases tagged : HasTag text
      · have := count_strip_lt tagged
        exact ih (by omega)
      · have none := strip_eq_self_iff.mpr tagged
        rw [none, Function.iterate_fixed none]
        exact tagged

end Deposit.Tags
