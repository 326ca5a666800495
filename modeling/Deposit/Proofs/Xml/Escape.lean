import Deposit.Proofs.Text.Utf8
import Deposit.Xml.Reader

/-!
Escaping: what is escaped is read back (`unescape_escape`), also after its blanks are
trimmed (`readText_trimmed`), and holds no character that markup is made of
(`escape_plain`).
-/

namespace Deposit.Xml

/-! ### Entities -/

/-- A character with an entity: the entity stands for it, and its name ends where the
`;` is. -/
theorem entity_read {c : Char} {name : String} (h : entityOf c = some name) (offset : Nat) :
    readEntity offset name.toList = .ok c ∧ name.toList.all (!endsEntity ·) = true := by
  unfold entityOf at h
  split at h <;> cases h
  all_goals exact ⟨by rfl, by decide⟩

/-- A character without an entity is none that markup is made of. -/
theorem ne_of_no_entity {c : Char} (h : entityOf c = none) :
    c ≠ '<' ∧ c ≠ '>' ∧ c ≠ '&' ∧ c ≠ '\'' ∧ c ≠ '"' := by
  refine ⟨?_, ?_, ?_, ?_, ?_⟩
  all_goals
    rintro rfl
    simp [entityOf] at h

theorem unescapeFrom_cons {c : Char} (h : c ≠ '&') (offset : Nat) (rest : List Char) :
    unescapeFrom offset (c :: rest) = (unescapeFrom (offset + c.utf8Size) rest).map (c :: ·) := by
  rw [unescapeFrom, if_neg h]
  cases unescapeFrom (offset + c.utf8Size) rest <;> rfl

/-- An entity is read as its character. -/
theorem unescapeFrom_entity {c : Char} {name : String} (h : entityOf c = some name)
    (offset : Nat) (rest : List Char) :
    unescapeFrom offset ('&' :: name.toList ++ ';' :: rest) =
      (unescapeFrom (offset + 2 + (Utf8.encode name.toList).length) rest).map (c :: ·) := by
  obtain ⟨read, inside⟩ := entity_read h (offset + 1)
  have taken : (name.toList ++ ';' :: rest).takeWhile (!endsEntity ·) = name.toList := by
    rw [List.takeWhile_append_of_pos fun d mem => List.all_eq_true.mp inside d mem]
    simp [endsEntity]
  rw [List.cons_append, unescapeFrom, if_pos rfl]
  simp only [taken, List.drop_left, read]
  have behind : (name.toList ++ ';' :: rest).drop (name.toList.length + 1) = rest := by
    rw [← List.drop_drop, List.drop_left]
    rfl
  rw [behind, if_neg (by decide)]
  cases unescapeFrom (offset + 2 + (Utf8.encode name.toList).length) rest <;> rfl

theorem unescapeFrom_escape (text : List Char) :
    ∀ offset, unescapeFrom offset (escape text) = .ok text := by
  induction text with
  | nil =>
      intro offset
      rw [escape, List.flatMap_nil, unescapeFrom]
  | cons c text ih =>
      intro offset
      rw [escape, List.flatMap_cons, escapeChar]
      cases entity : entityOf c with
      | some name =>
          have written : '&' :: name.toList ++ [';'] ++ escape text =
              '&' :: name.toList ++ ';' :: escape text := by simp
          rw [← escape]
          show unescapeFrom offset ('&' :: name.toList ++ [';'] ++ escape text) = _
          rw [written, unescapeFrom_entity entity, ih]
          rfl
      | none =>
          rw [← escape]
          show unescapeFrom offset (c :: escape text) = _
          rw [unescapeFrom_cons (ne_of_no_entity entity).2.2.1, ih]
          rfl

/-- What is escaped is read back. -/
@[simp] theorem unescape_escape (text : List Char) : unescape (escape text) = .ok text :=
  unescapeFrom_escape text 0

/-- Nothing is read from an empty text alone. -/
theorem unescape_eq_nil_iff {text : List Char} : unescape text = .ok [] ↔ text = [] := by
  constructor
  · intro read
    cases text with
    | nil => rfl
    | cons c rest =>
        rw [unescape, unescapeFrom] at read
        dsimp only at read
        repeat' split at read
        all_goals simp at read
  · rintro rfl
    exact unescape_escape []

/-! ### Plain characters -/

/-- The characters with entities. -/
def marked : List Char := ['<', '>', '&', '\'', '"']

/-- A character is one with an entity, or stays as it is. -/
theorem marked_or_plain (c : Char) :
    c ∈ marked ∨ (entityOf c = none ∧ escapeChar c = [c]) := by
  cases entity : entityOf c with
  | some name =>
      unfold entityOf at entity
      split at entity <;> cases entity
      all_goals exact .inl (by decide)
  | none =>
      refine .inr ⟨rfl, ?_⟩
      rw [escapeChar, entity]

theorem escapeChar_plain (c : Char) :
    ∀ d ∈ escapeChar c, d ≠ '<' ∧ d ≠ '>' ∧ d ≠ '\'' ∧ d ≠ '"' := by
  intro d mem
  rcases marked_or_plain c with mark | ⟨entity, plain⟩
  · have all : (marked.all fun c => (escapeChar c).all fun d =>
        d != '<' && d != '>' && d != '\'' && d != '"') = true := by decide
    simpa [and_assoc] using List.all_eq_true.mp (List.all_eq_true.mp all c mark) d mem
  · rw [plain, List.mem_singleton] at mem
    rw [mem]
    obtain ⟨lt, gt, -, apos, quot⟩ := ne_of_no_entity entity
    exact ⟨lt, gt, apos, quot⟩

/-- No tag and no end of a value begins in an escaped text. -/
theorem escape_plain (text : List Char) :
    ∀ d ∈ escape text, d ≠ '<' ∧ d ≠ '>' ∧ d ≠ '\'' ∧ d ≠ '"' := by
  intro d mem
  obtain ⟨c, -, mem⟩ := List.mem_flatMap.mp mem
  exact escapeChar_plain c d mem

/-! ### Blanks -/

/-- The blanks of documents, as characters. -/
def isBlankChar (c : Char) : Bool := c == ' ' || c == '\t' || c == '\n' || c == '\r'

theorem isBlank_class : Utf8.IsClass isBlank isBlankChar :=
  (((Utf8.isClass_beq ' ' (by decide)).or (Utf8.isClass_beq '\t' (by decide))).or
    (Utf8.isClass_beq '\n' (by decide))).or (Utf8.isClass_beq '\r' (by decide))

/-- A text without the blanks around it. -/
def trimmed (text : String) : String := String.ofList (Blank.trimBy isBlankChar text.toList)

/-- Blanks have no entity, and entities have no blanks. -/
theorem isBlankChar_escapeChar (c : Char) :
    ∀ d ∈ escapeChar c, isBlankChar d = isBlankChar c := by
  intro d mem
  rcases marked_or_plain c with mark | ⟨-, plain⟩
  · have all : (marked.all fun c => (escapeChar c).all fun d =>
        isBlankChar d == isBlankChar c) = true := by decide
    simpa using List.all_eq_true.mp (List.all_eq_true.mp all c mark) d mem
  · rw [plain, List.mem_singleton] at mem
    rw [mem]

theorem escapeChar_ne_nil (c : Char) : escapeChar c ≠ [] := by
  rw [escapeChar]
  cases entityOf c with
  | some name => exact List.append_ne_nil_of_right_ne_nil _ (List.cons_ne_nil _ _)
  | none => exact List.cons_ne_nil _ _

/-- The bytes of an escaped text, without the blanks around them. -/
theorem trimBy_encode_escape (text : List Char) :
    Blank.trimBy isBlank (Utf8.encode (escape text)) =
      Utf8.encode (escape (Blank.trimBy isBlankChar text)) := by
  rw [Utf8.trimBy_encode isBlank_class, escape, escape,
    Blank.trimBy_flatMap isBlankChar_escapeChar escapeChar_ne_nil]

/-- An escaped text is read back without the blanks around it. -/
theorem readText_trimmed (text : String) :
    readText (Blank.trimBy isBlank (Utf8.encode (escape text.toList))) = .ok (trimmed text) := by
  rw [trimBy_encode_escape, readText, Utf8.decode_encode]
  simp only [unescape_escape]
  rfl

end Deposit.Xml
