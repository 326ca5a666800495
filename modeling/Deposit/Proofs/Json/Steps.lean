import Deposit.Proofs.Json.Numbers
import Deposit.Proofs.Json.Strings

/-!
What a step of the reader does, said once: for a value by its first byte (`value_eq_ok_iff`), and
for what stands between brackets by the next thing there (`Goes`), which is the same for arrays and
for objects.
-/

namespace Deposit.Json

/-! ### White space -/

/-- The bytes of white space. -/
def isSpace (b : UInt8) : Bool := b == 0x20 || b == 0x0A || b == 0x09 || b == 0x0D

theorem skipBlank_eq (s : Bytes) : skipBlank s = s.dropWhile isSpace := rfl

theorem encode_spaces {c : Char} (space : c ∈ [' ', '\n', '\t', '\r']) :
    ∃ b, String.utf8EncodeChar c = [b] ∧ isSpace b = true := by
  simp only [List.mem_cons, List.not_mem_nil, or_false] at space
  rcases space with rfl | rfl | rfl | rfl
  all_goals exact ⟨_, rfl, rfl⟩

theorem skipBlank_spaces {spaces : List Char} (blank : Spaces spaces) (s : Bytes) :
    skipBlank (Utf8.encode spaces ++ s) = skipBlank s := by
  induction spaces with
  | nil => rfl
  | cons c spaces ih =>
      obtain ⟨space, blank⟩ := List.forall_mem_cons.mp blank
      obtain ⟨b, bytes, space⟩ := encode_spaces space
      rw [Utf8.encode_cons, bytes, List.append_assoc, List.singleton_append, skipBlank_eq,
        List.dropWhile_cons_of_pos space, ← skipBlank_eq]
      exact ih blank

theorem exists_spaces (s : Bytes) :
    ∃ spaces, Spaces spaces ∧ s = Utf8.encode spaces ++ skipBlank s := by
  induction s with
  | nil => exact ⟨[], by simp [Spaces], rfl⟩
  | cons b rest ih =>
      rw [skipBlank_eq, List.dropWhile_cons]
      split_ifs with space
      · obtain ⟨spaces, blank, split⟩ := ih
        have char : ∃ c, c ∈ [' ', '\n', '\t', '\r'] ∧ String.utf8EncodeChar c = [b] := by
          simp only [isSpace, Bool.or_eq_true, beq_iff_eq] at space
          rcases space with ((rfl | rfl) | rfl) | rfl
          · exact ⟨' ', by decide, rfl⟩
          · exact ⟨'\n', by decide, rfl⟩
          · exact ⟨'\t', by decide, rfl⟩
          · exact ⟨'\r', by decide, rfl⟩
        obtain ⟨c, mem, bytes⟩ := char
        refine ⟨c :: spaces, List.forall_mem_cons.mpr ⟨mem, blank⟩, ?_⟩
        rw [Utf8.encode_cons, bytes, List.append_assoc]
        exact congrArg (b :: ·) split
      · exact ⟨[], by simp [Spaces], rfl⟩

theorem skipBlank_cons {b : UInt8} (solid : isSpace b = false) (rest : Bytes) :
    skipBlank (b :: rest) = b :: rest := by
  rw [skipBlank_eq, List.dropWhile_cons_of_neg (by rw [solid]; decide)]

/-- Bytes that a value may stand in front of. -/
def Ends (rest : Bytes) : Prop :=
  ∀ b ∈ rest.head?, b ∈ ([0x20, 0x0A, 0x09, 0x0D, 0x2C, 0x5D, 0x7D] : List UInt8)

theorem Ends.apart {rest : Bytes} (ends : Ends rest) : Apart rest := by
  intro b mem
  have none : ([0x20, 0x0A, 0x09, 0x0D, 0x2C, 0x5D, 0x7D] : List UInt8).any isNumeric = false := by
    decide
  exact eq_false_of_ne_true (List.any_eq_false.mp none b (ends b mem))

/-- White space may stand behind a value, and what ends one behind it. -/
theorem ends_of_skipBlank {rest : Bytes} (ends : Ends (skipBlank rest)) : Ends rest := by
  cases rest with
  | nil => exact ends
  | cons b more =>
      by_cases space : isSpace b = true
      · rintro _ ⟨⟩
        simp only [isSpace, Bool.or_eq_true, beq_iff_eq] at space
        rcases space with ((rfl | rfl) | rfl) | rfl <;> decide
      · rwa [skipBlank_cons (by simpa using space)] at ends

/-! ### Words -/

theorem word_eq_ok_iff {v v' : Json} {letters : List Char}
    (low : letters.all (·.toNat < 0x80) = true) : ∀ {s rest : Bytes},
      word v letters s = .ok (v', rest) ↔ v' = v ∧ s = Utf8.encode letters ++ rest := by
  induction letters with
  | nil =>
      intro s rest
      simp only [word, Except.ok.injEq, Prod.mk.injEq, Utf8.encode_nil, List.nil_append]
      exact and_congr_left fun _ => eq_comm
  | cons c letters ih =>
      rw [List.all_cons, Bool.and_eq_true, decide_eq_true_eq] at low
      obtain ⟨ascii, low⟩ := low
      intro s rest
      rw [Utf8.encode_cons, Utf8.encodeChar_ascii ascii, List.append_assoc, List.singleton_append]
      cases s with
      | nil => simp [word, stop]
      | cons b s =>
          have same : b.toNat == c.toNat ↔ b = UInt8.ofNat c.toNat := by
            rw [beq_iff_eq, ← UInt8.toNat_inj, Utf8.toNat_ofNat_lt (by omega)]
          rw [word, List.cons.injEq, ← same]
          by_cases here : (b.toNat == c.toNat) = true
          · rw [if_pos here, ih low]
            exact and_congr_right fun _ => ⟨fun rest => ⟨here, rest⟩, And.right⟩
          · rw [if_neg here]
            exact ⟨fun read => (by cases read), fun read => absurd read.2.1 here⟩

/-! ### Values -/

/-- What the first bytes of a value tell the reader to do. -/
inductive Opens (fuel depth : Nat) : Bytes → Json → Bytes → Prop where
  | word {text : List Char} {v : Json} {rest : Bytes} (mem : (text, v) ∈ words) :
    Opens fuel depth (Utf8.encode text ++ rest) v rest
  | negative {s rest : Bytes} {n : Number} (read : number true s = .ok (n, rest)) :
    Opens fuel depth (0x2D :: s) (.num n) rest
  | positive {s rest : Bytes} {n : Number} (read : number false s = .ok (n, rest)) :
    Opens fuel depth s (.num n) rest
  | string {s rest : Bytes} {t : String} (read : text [] s = .ok (t, rest)) :
    Opens fuel depth (0x22 :: s) (.str t) rest
  | array {s rest : Bytes} {vs : List Json} (room : 1 < depth)
    (read : items fuel (depth - 1) .first s = .ok (vs, rest)) :
    Opens fuel depth (0x5B :: s) (.arr vs) rest
  | object {s rest : Bytes} {ms : List (String × Json)} (room : 1 < depth)
    (read : members fuel (depth - 1) .first s = .ok (ms, rest)) :
    Opens fuel depth (0x7B :: s) (object ms) rest

theorem numeral_eq_ok_iff {negative : Bool} {s rest : Bytes} {v : Json} :
    numeral negative s = .ok (v, rest) ↔ ∃ n, v = .num n ∧ number negative s = .ok (n, rest) := by
  unfold numeral
  split
  · next n rest' read =>
    simp only [read, Except.ok.injEq, Prod.mk.injEq]
    constructor
    · rintro ⟨rfl, rfl⟩
      exact ⟨n, rfl, rfl, rfl⟩
    · rintro ⟨n', rfl, rfl, rfl⟩
      exact ⟨rfl, rfl⟩
  · next f read => simp [read]

/-- A number without sign begins with a digit. -/
theorem isDigit_of_number {negative : Bool} {s rest : Bytes} {n : Number}
    (read : number negative s = .ok (n, rest)) : ∃ b more, s = b :: more ∧ isDigit b = true := by
  cases s with
  | nil => cases read
  | cons b more =>
      refine ⟨b, more, rfl, ?_⟩
      by_contra none
      have zero : ¬ (b == 0x30) = true := fun zero => none (by rw [beq_iff_eq.mp zero]; rfl)
      rw [number, if_neg zero, if_neg none] at read
      cases read

theorem opens_of_value {fuel depth : Nat} {s rest : Bytes} {v : Json}
    (read : value (fuel + 1) depth s = .ok (v, rest)) : Opens fuel depth (skipBlank s) v rest := by
  rw [value] at read
  cases skipped : skipBlank s with
  | nil =>
      rw [skipped] at read
      cases read
  | cons b more =>
      rw [skipped] at read
      simp only [beq_iff_eq] at read
      split_ifs at read with n t f minus digit quote bracket deep brace deep
      · obtain ⟨rfl, rfl⟩ := (word_eq_ok_iff (by decide)).mp read
        exact n ▸ @Opens.word _ _ "null".toList _ _ (.head _)
      · obtain ⟨rfl, rfl⟩ := (word_eq_ok_iff (by decide)).mp read
        exact t ▸ @Opens.word _ _ "true".toList _ _ (.tail _ (.head _))
      · obtain ⟨rfl, rfl⟩ := (word_eq_ok_iff (by decide)).mp read
        exact f ▸ @Opens.word _ _ "false".toList _ _ (.tail _ (.tail _ (.head _)))
      · obtain ⟨n, rfl, read'⟩ := numeral_eq_ok_iff.mp read
        exact minus ▸ .negative read'
      · obtain ⟨n, rfl, read'⟩ := numeral_eq_ok_iff.mp read
        exact .positive read'
      · split at read
        · next t' rest' read' =>
          obtain ⟨rfl, rfl⟩ := Prod.mk.inj (Except.ok.inj read)
          exact quote ▸ .string read'
        · cases read
      · cases read
      · split at read
        · next vs rest' read' =>
          obtain ⟨rfl, rfl⟩ := Prod.mk.inj (Except.ok.inj read)
          exact bracket ▸ .array (by omega) read'
        · cases read
      · cases read
      · split at read
        · next ms rest' read' =>
          obtain ⟨rfl, rfl⟩ := Prod.mk.inj (Except.ok.inj read)
          exact brace ▸ .object (by omega) read'
        · cases read
      · cases read

theorem value_of_opens {fuel depth : Nat} {s rest : Bytes} {v : Json}
    (opens : Opens fuel depth (skipBlank s) v rest) : value (fuel + 1) depth s = .ok (v, rest) := by
  generalize skipped : skipBlank s = s' at opens
  rw [value, skipped]
  cases opens with
  | word mem =>
      simp only [words, List.mem_cons, Prod.mk.injEq, List.not_mem_nil, or_false] at mem
      rcases mem with ⟨rfl, rfl⟩ | ⟨rfl, rfl⟩ | ⟨rfl, rfl⟩
      · exact (word_eq_ok_iff (by decide)).mpr ⟨rfl, rfl⟩
      · exact (word_eq_ok_iff (by decide)).mpr ⟨rfl, rfl⟩
      · exact (word_eq_ok_iff (by decide)).mpr ⟨rfl, rfl⟩
  | negative read => exact numeral_eq_ok_iff.mpr ⟨_, rfl, read⟩
  | positive read =>
      obtain ⟨b, more, rfl, digit⟩ := isDigit_of_number read
      have other {k : UInt8} (none : isDigit k = false) : (b == k) = false := by
        refine beq_eq_false_iff_ne.mpr ?_
        rintro rfl
        rw [digit] at none
        cases none
      simp only [other (k := 0x6E) rfl, other (k := 0x74) rfl, other (k := 0x66) rfl,
        other (k := 0x2D) rfl, digit, if_true, if_false, Bool.false_eq_true]
      exact numeral_eq_ok_iff.mpr ⟨_, rfl, read⟩
  | string read =>
      simp only [read]
      rfl
  | array room read =>
      simp only [read, if_neg (Nat.not_le.mpr room)]
      rfl
  | object room read =>
      simp only [read, if_neg (Nat.not_le.mpr room)]
      rfl

/-- What a value's reader does is told by the bytes that it finds behind the white space. -/
theorem value_eq_ok_iff {fuel depth : Nat} {s rest : Bytes} {v : Json} :
    value (fuel + 1) depth s = .ok (v, rest) ↔ Opens fuel depth (skipBlank s) v rest :=
  ⟨opens_of_value, value_of_opens⟩

/-! ### What stands between brackets -/

section

variable {α : Type}

/-- One step between brackets: the end, or an item and what follows it. -/
inductive Goes (closing : UInt8) (one : Bytes → α → Bytes → Prop)
    (others : Bytes → List α → Bytes → Prop) : Position → Bytes → List α → Bytes → Prop where
  | ends {position : Position} {s rest : Bytes} (here : skipBlank s = closing :: rest) :
    Goes closing one others position s [] rest
  | first {s more behind rest : Bytes} {b : UInt8} {a : α} {as : List α}
    (here : skipBlank s = b :: more) (goes : b ≠ closing) (item : one (b :: more) a behind)
    (further : others behind as rest) : Goes closing one others .first s (a :: as) rest
  | later {s s' more behind rest : Bytes} {b : UInt8} {a : α} {as : List α}
    (comma : skipBlank s = 0x2C :: s') (here : skipBlank s' = b :: more) (goes : b ≠ closing)
    (item : one (b :: more) a behind) (further : others behind as rest) :
    Goes closing one others .later s (a :: as) rest

end

variable {fuel depth : Nat} {position : Position} {s rest : Bytes}

theorem goes_of_items {vs : List Json} (read : items (fuel + 1) depth position s = .ok (vs, rest)) :
    Goes 0x5D (fun s v rest => value fuel depth s = .ok (v, rest))
      (fun s vs rest => items fuel depth .later s = .ok (vs, rest)) position s vs rest := by
  rw [items] at read
  cases skipped : skipBlank s with
  | nil =>
      rw [skipped] at read
      cases read
  | cons b more =>
      rw [skipped] at read
      simp only [beq_iff_eq] at read
      by_cases closes : b = 0x5D
      · rw [if_pos closes] at read
        cases read
        exact .ends (closes ▸ skipped)
      rw [if_neg closes] at read
      cases position with
      | first =>
          rw [if_pos rfl] at read
          split at read
          · cases read
          next v behind item =>
          split at read
          · cases read
          next vs behind' further =>
          cases read
          exact .first skipped closes item further
      | later =>
          rw [if_neg (by decide)] at read
          by_cases comma : b = 0x2C
          · rw [if_pos comma] at read
            split at read
            · cases read
            next c more' skipped' =>
            by_cases closes' : c = 0x5D
            · rw [if_pos closes'] at read
              cases read
            · rw [if_neg closes'] at read
              split at read
              · cases read
              next v behind item =>
              split at read
              · cases read
              next vs behind' further =>
              cases read
              exact .later (comma ▸ skipped) skipped' closes' item further
          · rw [if_neg comma] at read
            cases read

theorem items_of_goes {vs : List Json}
    (goes : Goes 0x5D (fun s v rest => value fuel depth s = .ok (v, rest))
      (fun s vs rest => items fuel depth .later s = .ok (vs, rest)) position s vs rest) :
    items (fuel + 1) depth position s = .ok (vs, rest) := by
  rw [items]
  cases goes with
  | ends here =>
      rw [here]
      rfl
  | first here goes item further =>
      simp only [here, beq_iff_eq, goes, if_false, if_true, item, further]
  | later comma here goes item further =>
      simp only [comma, here, beq_iff_eq, goes, if_false, item, further]
      rfl

/-- Reads the key of a member, the colon and the value. -/
def ReadsMember (fuel depth : Nat) (s : Bytes) (m : String × Json) (rest : Bytes) : Prop :=
  ∃ s' behind behind', s = 0x22 :: s' ∧ text [] s' = .ok (m.1, behind) ∧
    skipBlank behind = 0x3A :: behind' ∧ value fuel depth behind' = .ok (m.2, rest)

/-- Reads a member behind its first quote, and the members behind it. -/
def memberThen (fuel depth : Nat) (s : Bytes) : Reading (List (String × Json)) :=
  match text [] s with
  | .error f => .error f
  | .ok (key, rest) =>
    match skipBlank rest with
    | [] => stopBehind .endInObject []
    | c :: rest =>
      if c != 0x3A then stopBehind .expectedColon (c :: rest)
      else
        match value fuel depth rest with
        | .error f => .error f
        | .ok (v, rest) =>
          match members fuel depth .later rest with
          | .error f => .error f
          | .ok (ms, rest) => .ok ((key, v) :: ms, rest)

theorem exists_of_memberThen {ms : List (String × Json)}
    (read : memberThen fuel depth s = .ok (ms, rest)) :
    ∃ m ms' behind, ms = m :: ms' ∧ ReadsMember fuel depth (0x22 :: s) m behind ∧
      members fuel depth .later behind = .ok (ms', rest) := by
  unfold memberThen at read
  split at read
  · cases read
  next key behind key_read =>
  split at read
  · cases read
  next c behind' skipped =>
  by_cases colon : c = 0x3A
  · rw [if_neg (by simp [colon])] at read
    split at read
    · cases read
    next v behind'' value_read =>
    split at read
    · cases read
    next ms' rest' further =>
    obtain ⟨rfl, rfl⟩ := Prod.mk.inj (Except.ok.inj read)
    exact ⟨_, _, _, rfl, ⟨_, _, _, rfl, key_read, colon ▸ skipped, value_read⟩, further⟩
  · rw [if_pos (by simp [colon])] at read
    cases read

theorem goes_of_members {ms : List (String × Json)}
    (read : members (fuel + 1) depth position s = .ok (ms, rest)) :
    Goes 0x7D (ReadsMember fuel depth)
      (fun s ms rest => members fuel depth .later s = .ok (ms, rest)) position s ms rest := by
  rw [members] at read
  cases skipped : skipBlank s with
  | nil =>
      rw [skipped] at read
      cases read
  | cons b more =>
      rw [skipped] at read
      simp only [beq_iff_eq] at read
      by_cases closes : b = 0x7D
      · rw [if_pos closes] at read
        cases read
        exact .ends (closes ▸ skipped)
      rw [if_neg closes] at read
      cases position with
      | first =>
          rw [if_pos rfl] at read
          by_cases quote : b = 0x22
          · rw [if_pos quote] at read
            obtain ⟨m, ms', behind, rfl, item, further⟩ := exists_of_memberThen read
            exact .first skipped closes (quote ▸ item) further
          · rw [if_neg quote] at read
            cases read
      | later =>
          rw [if_neg (by decide)] at read
          by_cases comma : b = 0x2C
          · rw [if_pos comma] at read
            split at read
            · cases read
            next c more' skipped' =>
            by_cases quote : c = 0x22
            · rw [if_pos quote] at read
              obtain ⟨m, ms', behind, rfl, item, further⟩ := exists_of_memberThen read
              exact .later (comma ▸ skipped) skipped' (quote ▸ by decide) (quote ▸ item) further
            · rw [if_neg quote] at read
              split at read <;> cases read
          · rw [if_neg comma] at read
            cases read

theorem members_of_goes {ms : List (String × Json)}
    (goes : Goes 0x7D (ReadsMember fuel depth)
      (fun s ms rest => members fuel depth .later s = .ok (ms, rest)) position s ms rest) :
    members (fuel + 1) depth position s = .ok (ms, rest) := by
  rw [members]
  cases goes with
  | ends here =>
      rw [here]
      rfl
  | first here goes item further =>
      next more behind b a as =>
      obtain ⟨s', behind, behind', here', key, colon, read⟩ := item
      obtain ⟨rfl, rfl⟩ := List.cons.inj here'
      simp only [here, beq_iff_eq, goes, if_false, if_true, key, colon, read, further]
      rfl
  | later comma here goes item further =>
      obtain ⟨s', behind, behind', here', key, colon, read⟩ := item
      obtain ⟨rfl, rfl⟩ := List.cons.inj here'
      simp only [comma, here, beq_iff_eq, goes, if_false, if_true, key, colon, read, further]
      rfl

end Deposit.Json
