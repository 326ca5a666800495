import Deposit.Proofs.Xml.Values

/-!
Elements in any layout.

An element need not be written the way it is rendered here: it may stand behind any blanks, with
blanks and quotes of its own in its tags, and with any raw content that holds no tag
(`WrittenElement`). It is read as its events all the same (`readsAs_element`), whatever stands
behind it. What is read this way can be put together (`ReadsAs.append`), up to a whole document
(`events_of_readsAs`).
-/

namespace Deposit.Xml

/-! ### Reading what is put together -/

/-- Bytes that are read as some events, whatever stands behind them; the tags that are open
before and behind them are given. -/
structure ReadsAs (opened : List Bytes) (s : Bytes) (events : List Event)
    (opened' : List Bytes) : Prop where
  length_le : events.length ≤ s.length
  read : ∀ rest fuel, eventsFrom (fuel + events.length) opened (s ++ rest) =
    prepend events (eventsFrom fuel opened' rest)

theorem readsAs_nil (opened : List Bytes) : ReadsAs opened [] [] opened :=
  ⟨Nat.le_refl _, fun _ _ => rfl⟩

theorem ReadsAs.append {opened opened' opened'' : List Bytes} {s t : Bytes}
    {events later : List Event} (h : ReadsAs opened s events opened')
    (h' : ReadsAs opened' t later opened'') :
    ReadsAs opened (s ++ t) (events ++ later) opened'' := by
  have lengths := h.length_le
  have lengths' := h'.length_le
  refine ⟨by simp only [List.length_append]; omega, fun rest fuel => ?_⟩
  have fuels : fuel + (events ++ later).length = fuel + later.length + events.length := by
    simp only [List.length_append]
    omega
  rw [fuels, List.append_assoc, h.read, h'.read, prepend_prepend]

/-- Markup behind blanks. -/
theorem readsAs_markup (blanks : Blanks) {s : Bytes} {opened opened' : List Bytes} {event : Event}
    (read : ∀ rest, readMarkup opened (s ++ rest) = .ok (event, opened', rest)) :
    ReadsAs opened (Utf8.encode blanks.chars ++ 0x3C :: s) [event] opened' := by
  refine ⟨?_, fun rest fuel => ?_⟩
  · simp only [List.length_append, List.length_cons, List.length_nil]
    omega
  · rw [List.append_assoc]
    exact eventsFrom_markup blanks.bytes_blank (read rest) fuel

/-- Raw content in front of markup. -/
theorem readsAs_content {content s : Bytes} (plain : ∀ b ∈ content, b ≠ 0x3C)
    {opened opened' : List Bytes} {event : Event}
    (read : ∀ rest, readMarkup opened (s ++ rest) = .ok (event, opened', rest)) :
    ReadsAs opened (content ++ 0x3C :: s) (contentEvents content ++ [event]) opened' := by
  refine ⟨?_, fun rest fuel => ?_⟩
  · rw [contentEvents]
    split
    · simp only [List.nil_append, List.length_append, List.length_cons, List.length_nil]
      omega
    · -- Content that makes an event is not empty.
      rename_i filled
      have some : content ≠ [] := by
        rintro rfl
        exact filled rfl
      have := List.length_pos_iff.mpr some
      simp only [List.length_append, List.length_cons, List.length_nil]
      omega
  · rw [List.append_assoc]
    exact eventsFrom_content plain (read rest) fuel

/-- Each list of pieces is read as the events of the pieces. -/
theorem readsAs_flatMap {α : Type} {opened : List Bytes} {text : α → Bytes}
    {events : α → List Event} {pieces : List α}
    (each : ∀ a ∈ pieces, ReadsAs opened (text a) (events a) opened) :
    ReadsAs opened (pieces.flatMap text) (pieces.flatMap events) opened := by
  induction pieces with
  | nil => exact readsAs_nil opened
  | cons a rest ih =>
      rw [List.flatMap_cons, List.flatMap_cons]
      exact (each a List.mem_cons_self).append
        (ih fun a' mem => each a' (List.mem_cons_of_mem a mem))

/-- A document is read as the events of its text, if blanks alone stand behind it and no byte
order mark in front. -/
theorem events_of_readsAs {text : List Char} {events : List Event} {opened : List Bytes}
    (h : ReadsAs [] (Utf8.encode text) events opened) (trail : Blanks)
    (low : ∀ c ∈ (text ++ trail.chars).head?, c.toNat < 0x80) :
    Xml.events (Utf8.encode (text ++ trail.chars)) = (events, none) := by
  obtain ⟨fuel, enough⟩ : ∃ fuel, (Utf8.encode (text ++ trail.chars)).length =
      fuel + events.length := by
    have := h.length_le
    refine ⟨(Utf8.encode (text ++ trail.chars)).length - events.length, ?_⟩
    rw [Utf8.encode_append, List.length_append]
    omega
  have ended : eventsFrom fuel opened (Utf8.encode trail.chars) = ([], none) := by
    have blank := List.dropWhile_eq_nil_iff.mpr trail.bytes_blank
    cases fuel with
    | zero => rfl
    | succ fuel => simp [eventsFrom, blank]
  rw [Xml.events, Utf8.behind?_mark low, Option.getD_none]
  simp only [enough]
  rw [Utf8.encode_append, h.read, ended]
  simp [prepend]

/-! ### Elements -/

theorem WrittenAttribute.balanced (a : WrittenAttribute) : Balanced (Utf8.encode a.text) := by
  have parts := a.encode_text []
  have plain : isPlainName a.name = true := (Bool.and_eq_true_iff.mp a.key).1
  have value := balanced_quoted a.quote.byte_eq (value_plain a.quote a.value)
  have sign : Balanced [0x3D] := balanced_byte (by decide)
  have whole := ((((balanced_blanks a.before.bytes_blank).append (balanced_name plain)).append
    (balanced_blanks a.beforeSign.bytes_blank)).append
      (sign.append (balanced_blanks a.behindSign.bytes_blank))).append value
  rw [List.append_nil] at parts
  rw [parts]
  simpa only [List.append_assoc, List.cons_append, List.nil_append] using whole

/-- What is written in a tag can stand there. -/
theorem WrittenTag.isInside (tag : WrittenTag) : IsInside (Utf8.encode tag.text) := by
  obtain ⟨attributes, behind⟩ := tag
  have blank_ne : ∀ b, isBlank b = true → b ≠ 0x2F := by
    rintro b blank rfl
    exact absurd blank (by decide)
  induction attributes with
  | nil =>
      refine ⟨by simpa [WrittenTag.text] using balanced_blanks behind.bytes_blank, ?_, ?_⟩
      · intro b first
        exact behind.bytes_blank b (by simpa [WrittenTag.text] using List.mem_of_head? first)
      · intro last
        have mem := List.mem_of_getLast? last
        exact blank_ne _ (behind.bytes_blank _ (by simpa [WrittenTag.text] using mem)) rfl
  | cons a rest ih =>
      have parts : Utf8.encode (WrittenTag.mk (a :: rest) behind).text =
          Utf8.encode a.text ++ Utf8.encode (WrittenTag.mk rest behind).text := by
        simp [WrittenTag.text]
      have filled := a.encode_text (Utf8.encode (WrittenTag.mk rest behind).text)
      rw [parts]
      refine ⟨a.balanced.append ih.balanced, ?_, ?_⟩
      · obtain ⟨c, more, chars⟩ := List.exists_cons_of_ne_nil a.parted
        obtain ⟨b, more', bytes⟩ := List.exists_cons_of_ne_nil (Utf8.encodes_encodeChar c).ne_nil
        intro b' first
        have front : Utf8.encode a.before.chars = b :: (more' ++ Utf8.encode more) := by
          rw [chars, Utf8.encode_cons, bytes, List.cons_append]
        rw [filled, front, List.cons_append, List.head?_cons] at first
        cases first
        exact a.before.bytes_blank b (by simp [front])
      · -- Either something follows, or the quote of the value comes last.
        rcases List.eq_nil_or_concat (Utf8.encode (WrittenTag.mk rest behind).text) with
          none | ⟨middle, last, some⟩
        · have quote : a.quote.byte ≠ 0x2F := by cases a.quote <;> decide
          rw [filled, none, ← List.concat_eq_append]
          simp only [List.concat_eq_append, ← List.cons_append, ← List.append_assoc,
            List.getLast?_concat]
          simpa using quote
        · have unclosed := ih.unclosed
          rw [List.concat_eq_append] at some
          rw [some, List.getLast?_concat] at unclosed
          rwa [some, ← List.append_assoc, List.getLast?_concat]

/-- Raw content with the end tag behind it. -/
structure Content where
  text : List Char
  plain : ∀ c ∈ text, c ≠ '<' := by decide
  /-- Behind the name in the end tag. -/
  gap : Blanks

/-- The bytes of a content. -/
def Content.bytes (content : Content) : Bytes := Utf8.encode content.text

/-- An element of some name as it is written; without content if it is closed at once. -/
structure WrittenElement where
  lead : Blanks
  tag : WrittenTag
  content : Option Content

namespace WrittenElement

/-- The text of an element of a name. -/
def text (name : String) (e : WrittenElement) : List Char :=
  e.lead.chars ++ '<' :: name.toList ++ e.tag.text ++
    match e.content with
    | none => ['/', '>']
    | some content =>
      '>' :: content.text ++ ['<', '/'] ++ name.toList ++ content.gap.chars ++ ['>']

/-- The events of an element of a name. -/
def events (name : String) (e : WrittenElement) : List Event :=
  match e.content with
  | none => [.empty (Utf8.bytes name) (Utf8.encode e.tag.text)]
  | some content =>
    .start (Utf8.bytes name) (Utf8.encode e.tag.text) ::
      (contentEvents content.bytes ++ [.close (Utf8.bytes name)])

end WrittenElement

theorem Content.bytes_plain (content : Content) : ∀ b ∈ content.bytes, b ≠ 0x3C := by
  intro b mem
  have absent := (Utf8.isClass_beq '<' (by decide)).not_mem
    (fun c mem => by simp [content.plain c mem]) b mem
  simpa using absent

/-- The tag in front of what an element holds. -/
theorem readsAs_opening {name : String} (plain : isPlainName name = true) (lead : Blanks)
    (tag : WrittenTag) (opened : List Bytes) :
    ReadsAs opened (Utf8.encode (lead.chars ++ '<' :: name.toList ++ tag.text ++ ['>']))
      [.start (Utf8.bytes name) (Utf8.encode tag.text)] (Utf8.bytes name :: opened) := by
  have open_ : String.utf8EncodeChar '<' = [0x3C] := by decide
  have close_ : String.utf8EncodeChar '>' = [0x3E] := by decide
  have parts : Utf8.encode (lead.chars ++ '<' :: name.toList ++ tag.text ++ ['>']) =
      Utf8.encode lead.chars ++
        0x3C :: (Utf8.bytes name ++ Utf8.encode tag.text ++ [0x3E]) := by
    simp [Utf8.bytes, open_, close_]
  rw [parts]
  refine readsAs_markup lead fun rest => ?_
  rw [List.append_assoc]
  exact readMarkup_opening plain tag.isInside opened rest

/-- The tag behind what an element holds. -/
theorem readMarkup_written {name : String} (plain : isPlainName name = true) (gap : Blanks)
    (opened : List Bytes) (rest : Bytes) :
    readMarkup (Utf8.bytes name :: opened)
        (0x2F :: (Utf8.bytes name ++ Utf8.encode gap.chars ++ [0x3E]) ++ rest) =
      .ok (.close (Utf8.bytes name), opened, rest) := by
  have read := readMarkup_ending plain gap.bytes_blank opened rest
  rwa [← List.singleton_append (l := rest), ← List.append_assoc, List.cons_append] at read

/-- An element is read as its events. -/
theorem readsAs_element {name : String} (plain : isPlainName name = true) (e : WrittenElement)
    (opened : List Bytes) :
    ReadsAs opened (Utf8.encode (e.text name)) (e.events name) opened := by
  have open_ : String.utf8EncodeChar '<' = [0x3C] := by decide
  have close_ : String.utf8EncodeChar '>' = [0x3E] := by decide
  have slash : String.utf8EncodeChar '/' = [0x2F] := by decide
  obtain ⟨lead, tag, content⟩ := e
  cases content with
  | none =>
      have parts : Utf8.encode ((WrittenElement.mk lead tag none).text name) =
          Utf8.encode lead.chars ++
            0x3C :: (Utf8.bytes name ++ Utf8.encode tag.text ++ [0x2F, 0x3E]) := by
        simp [WrittenElement.text, Utf8.bytes, open_, close_, slash]
      rw [parts]
      refine readsAs_markup lead fun rest => ?_
      rw [List.append_assoc]
      exact readMarkup_closed plain tag.isInside opened rest
  | some content =>
      have parts : Utf8.encode ((WrittenElement.mk lead tag (some content)).text name) =
          Utf8.encode (lead.chars ++ '<' :: name.toList ++ tag.text ++ ['>']) ++
            (content.bytes ++ 0x3C :: (0x2F ::
              (Utf8.bytes name ++ Utf8.encode content.gap.chars ++ [0x3E]))) := by
        simp [WrittenElement.text, Content.bytes, Utf8.bytes, open_, close_, slash]
      rw [parts]
      exact (readsAs_opening plain lead tag opened).append
        (readsAs_content content.bytes_plain (readMarkup_written plain content.gap opened))

end Deposit.Xml
