import Deposit.Proofs.Json.Grammar
import Deposit.Proofs.Text.Utf8

/-!
Reading a string: up to its closing quote, and as the text that its body spells
(`text_eq_ok_iff`).

The reader goes over bytes and asks at the end whether they are text. That the body is text by
itself, character for character, comes from UTF-8: the bytes of an escaped character begin with one
that continues none (`Raw.behind_tails`), so no raw character can be cut off by an escape.
-/

namespace Deposit.Json

/-! ### Escapes -/

theorem hex_lt {c : Char} {x : Nat} (digit : Hex.value? c = some x) : c.toNat < 0x80 ∧ x < 16 := by
  simp only [Hex.value?, Bool.and_eq_true, decide_eq_true_eq] at digit
  split_ifs at digit <;> simp only [Option.some.injEq] at digit <;> omega

/-- A digit among the bytes is one among the characters. -/
theorem encodeChar_hex {b : UInt8} {x : Nat} (digit : Hex.value? (Char.ofNat b.toNat) = some x) :
    String.utf8EncodeChar (Char.ofNat b.toNat) = [b] := by
  have valid : b.toNat.isValidChar := .inl (Nat.lt_trans b.toNat_lt (by decide))
  have low := (hex_lt digit).1
  rw [Utf8.encodeChar_ascii low, Utf8.toNat_ofNat_valid valid, UInt8.ofNat_toNat]

theorem hexValue?_eq_some_iff {a b c d : UInt8} {n : Nat} :
    hexValue? a b c d = some n ↔ ∃ x y z w, Hex.value? (Char.ofNat a.toNat) = some x ∧
      Hex.value? (Char.ofNat b.toNat) = some y ∧ Hex.value? (Char.ofNat c.toNat) = some z ∧
      Hex.value? (Char.ofNat d.toNat) = some w ∧ n = (x * 16 + y) * 256 + (z * 16 + w) := by
  simp only [hexValue?, bind, Option.bind_eq_some_iff, pure, Option.some.injEq]
  constructor
  · rintro ⟨x, hx, y, hy, z, hz, w, hw, rfl⟩
    exact ⟨x, y, z, w, hx, hy, hz, hw, rfl⟩
  · rintro ⟨x, y, z, w, hx, hy, hz, hw, rfl⟩
    exact ⟨x, hx, y, hy, z, hz, w, hw, rfl⟩

theorem fourDigits_of_hexFour {s : Bytes} {n : Nat}
    {rest : { rest : Bytes // rest.length ≤ s.length }}
    (read : hexFour s = .ok (n, rest)) :
    ∃ digits, FourDigits digits n ∧ s = Utf8.encode digits ++ rest.1 := by
  unfold hexFour at read
  split at read
  · next a b c d behind =>
    split at read
    · next m value =>
      cases read
      obtain ⟨x, y, z, w, hx, hy, hz, hw, rfl⟩ := hexValue?_eq_some_iff.mp value
      refine ⟨_, ⟨hx, hy, hz, hw⟩, ?_⟩
      simp only [Utf8.encode_cons, Utf8.encode_nil, encodeChar_hex hx, encodeChar_hex hy,
        encodeChar_hex hz, encodeChar_hex hw]
      rfl
    · cases read
  · cases read

theorem hexFour_of_fourDigits {s rest : Bytes} {digits : List Char} {n : Nat}
    (spelled : FourDigits digits n) (source : s = Utf8.encode digits ++ rest) :
    ∃ shorter, hexFour s = .ok (n, ⟨rest, shorter⟩) := by
  obtain ⟨hx, hy, hz, hw⟩ := spelled
  next a b c d x y z w =>
  have byte {c : Char} {x : Nat} (digit : Hex.value? c = some x) :
      ∃ b, String.utf8EncodeChar c = [b] ∧ Char.ofNat b.toNat = c := by
    have low := (hex_lt digit).1
    refine ⟨_, Utf8.encodeChar_ascii low, ?_⟩
    rw [Utf8.toNat_ofNat_lt (by omega), Char.ofNat_toNat]
  obtain ⟨a', ea, rfl⟩ := byte hx
  obtain ⟨b', eb, rfl⟩ := byte hy
  obtain ⟨c', ec, rfl⟩ := byte hz
  obtain ⟨d', ed, rfl⟩ := byte hw
  have value := hexValue?_eq_some_iff.mpr ⟨x, y, z, w, hx, hy, hz, hw, rfl⟩
  simp only [Utf8.encode_cons, ea, eb, ec, ed, Utf8.encode_nil, List.cons_append,
    List.nil_append] at source
  subst source
  refine ⟨Nat.le_add_right rest.length 4, ?_⟩
  rw [hexFour, value]

theorem escape_of_unicodeEscape {s : Bytes} {c : Char}
    {rest : { rest : Bytes // rest.length ≤ s.length }}
    (read : unicodeEscape s = .ok (c, rest)) :
    ∃ behind, Escape ('u' :: behind) c ∧ s = Utf8.encode behind ++ rest.1 := by
  unfold unicodeEscape at read
  split at read
  · cases read
  next n behind shorter four =>
  obtain ⟨digits, spelled, source⟩ := fourDigits_of_hexFour four
  by_cases second : 0xDC00 ≤ n ∧ n ≤ 0xDFFF
  · rw [if_pos second] at read
    cases read
  rw [if_neg second] at read
  by_cases unit : n < 0xD800 ∨ 0xDBFF < n
  · rw [if_pos unit] at read
    cases read
    exact ⟨digits, .unit spelled (by omega), source⟩
  rw [if_neg unit] at read
  -- Half a character: an escape for the other half has to follow.
  split at read
  · cases read
  · split at read <;> cases read
  next _ _ b u behind shorter' =>
  by_cases other : b ≠ 0x5C ∨ u ≠ 0x75
  · by_cases backslash : b = 0x5C
    · have letter := other.resolve_left (not_not.mpr backslash)
      rw [if_neg (by simp [backslash]), if_pos (by simp [letter])] at read
      cases read
    · rw [if_pos (by simp [backslash])] at read
      cases read
  obtain ⟨rfl, rfl⟩ : b = 0x5C ∧ u = 0x75 := by simpa only [not_or, not_not] using other
  rw [if_neg (by decide), if_neg (by decide)] at read
  split at read
  · cases read
  next low rest' shorter'' four' =>
  obtain ⟨digits', spelled', source'⟩ := fourDigits_of_hexFour four'
  by_cases range : low < 0xDC00 ∨ 0xDFFF < low
  · rw [if_pos range] at read
    cases read
  · rw [if_neg range] at read
    obtain ⟨rfl, rfl⟩ := Prod.mk.inj (Except.ok.inj read)
    refine ⟨_, .pair spelled spelled' (by omega) (by omega), ?_⟩
    simp only [source, source', Utf8.encode_append, Utf8.encode_cons, List.append_assoc]
    rfl

theorem unicodeEscape_of_escape {s rest : Bytes} {behind : List Char} {c : Char}
    (escaped : Escape ('u' :: behind) c) (source : s = Utf8.encode behind ++ rest) :
    ∃ shorter, unicodeEscape s = .ok (c, ⟨rest, shorter⟩) := by
  generalize text_eq : 'u' :: behind = text at escaped
  cases escaped with
  | letter mem =>
      cases text_eq
      simp [letters] at mem
  | unit spelled valid =>
      cases text_eq
      obtain ⟨shorter, four⟩ := hexFour_of_fourDigits spelled source
      refine ⟨shorter, ?_⟩
      rw [unicodeEscape, four]
      simp only
      rw [if_neg (by omega), if_pos (by omega)]
  | pair spelled spelled' first second =>
      cases text_eq
      next digits digits' high low =>
      have source' : s = Utf8.encode digits ++ 0x5C :: 0x75 :: (Utf8.encode digits' ++ rest) := by
        simp only [source, Utf8.encode_append, Utf8.encode_cons, List.append_assoc]
        rfl
      obtain ⟨shorter, four⟩ := hexFour_of_fourDigits spelled source'
      obtain ⟨shorter', four'⟩ := hexFour_of_fourDigits spelled' (Eq.refl (_ ++ rest))
      rw [unicodeEscape, four]
      simp only
      rw [if_neg (by omega), if_neg (by omega), if_neg (by decide), if_neg (by decide), four']
      simp only
      rw [if_neg (by omega)]
      have bound : rest.length ≤ s.length := by
        simp only [source, List.length_append]
        omega
      exact ⟨bound, rfl⟩

/-- What the reader of an escape takes is one. -/
theorem escape_of_read {s : Bytes} {c : Char} {rest : { rest : Bytes // rest.length ≤ s.length }}
    (read : escape s = .ok (c, rest)) :
    ∃ behind, Escape behind c ∧ s = Utf8.encode behind ++ rest.1 := by
  unfold escape at read
  split at read
  · cases read
  next b behind =>
  simp only [Bool.or_eq_true, beq_iff_eq] at read
  split_ifs at read with same b' f n r t u
  · cases read
    rcases same with (rfl | rfl) | rfl
    · exact ⟨['"'], .letter (by decide), rfl⟩
    · exact ⟨['\\'], .letter (by decide), rfl⟩
    · exact ⟨['/'], .letter (by decide), rfl⟩
  · cases read
    exact ⟨['b'], .letter (by decide), by rw [b']; rfl⟩
  · cases read
    exact ⟨['f'], .letter (by decide), by rw [f]; rfl⟩
  · cases read
    exact ⟨['n'], .letter (by decide), by rw [n]; rfl⟩
  · cases read
    exact ⟨['r'], .letter (by decide), by rw [r]; rfl⟩
  · cases read
    exact ⟨['t'], .letter (by decide), by rw [t]; rfl⟩
  · split at read
    · cases read
    next c' behind' shorter unit =>
    cases read
    obtain ⟨more, escaped, source⟩ := escape_of_unicodeEscape unit
    subst u
    exact ⟨_, escaped, congrArg (0x75 :: ·) source⟩
  · cases read

/-- Every escape is read. -/
theorem escape_read {s rest : Bytes} {behind : List Char} {c : Char} (escaped : Escape behind c)
    (source : s = Utf8.encode behind ++ rest) : ∃ shorter, escape s = .ok (c, ⟨rest, shorter⟩) := by
  have unicode {more : List Char} (escaped : Escape ('u' :: more) c)
      (source : s = Utf8.encode ('u' :: more) ++ rest) :
      ∃ shorter, escape s = .ok (c, ⟨rest, shorter⟩) := by
    obtain ⟨shorter, read⟩ := unicodeEscape_of_escape escaped (Eq.refl (_ ++ rest))
    have source' : s = 0x75 :: (Utf8.encode more ++ rest) := by
      rw [source, Utf8.encode_cons, List.append_assoc]
      rfl
    subst source'
    refine ⟨Nat.le_succ_of_le shorter, ?_⟩
    simp only [escape, read]
    rfl
  cases escaped with
  | letter mem =>
      simp only [letters, List.mem_cons, Prod.mk.injEq, List.not_mem_nil, or_false] at mem
      subst source
      rcases mem with ⟨rfl, rfl⟩ | ⟨rfl, rfl⟩ | ⟨rfl, rfl⟩ | ⟨rfl, rfl⟩ | ⟨rfl, rfl⟩ | ⟨rfl, rfl⟩ |
        ⟨rfl, rfl⟩ | ⟨rfl, rfl⟩
      all_goals exact ⟨_, rfl⟩
  | unit spelled valid => exact unicode (.unit spelled valid) source
  | pair spelled spelled' first second => exact unicode (.pair spelled spelled' first second) source

/-! ### Bytes of strings -/

/-- The bytes between the quotes of a string, and the bytes of the string. -/
inductive Raw : Bytes → Bytes → Prop where
  | nil : Raw [] []
  | plain {b : UInt8} {body content : Bytes} (quote : b ≠ 0x22) (backslash : b ≠ 0x5C)
    (printed : ¬ b < 0x20) (rest : Raw body content) : Raw (b :: body) (b :: content)
  | escape {behind : List Char} {c : Char} {body content : Bytes} (escape : Escape behind c)
    (rest : Raw body content) :
    Raw (0x5C :: (Utf8.encode behind ++ body)) (String.utf8EncodeChar c ++ content)

theorem raw_of_text {done s : Bytes} : ∀ {t : String} {rest : Bytes},
    text done s = .ok (t, rest) → ∃ body content, s = body ++ 0x22 :: rest ∧ Raw body content ∧
      Utf8.bytes t = done.reverse ++ content := by
  fun_induction text done s with
  | case1 => rintro _ _ ⟨⟩
  | case2 done b behind quote chars decoded =>
      intro _ _ read
      rw [List.unattach_reverse, List.unattach_attach] at decoded
      rw [decoded] at read
      cases read
      refine ⟨[], [], by rw [beq_iff_eq.mp quote]; rfl, .nil, ?_⟩
      rw [Utf8.bytes, String.toList_ofList, List.append_nil, Utf8.decode_eq_ok_iff.mp decoded]
  | case3 done b behind quote fault decoded =>
      intro _ _ read
      rw [List.unattach_reverse, List.unattach_attach] at decoded
      rw [decoded] at read
      cases read
  | case4 => rintro _ _ ⟨⟩
  | case5 done b behind quote backslash c behind' shorter read ih =>
      intro t rest rest_read
      obtain ⟨more, escaped, source⟩ := escape_of_read read
      have source : behind = Utf8.encode more ++ behind' := source
      obtain ⟨body, content, split, raw, bytes⟩ := ih rest_read
      refine ⟨_, _, ?_, .escape escaped raw, ?_⟩
      · rw [beq_iff_eq.mp backslash, source, split]
        simp only [List.cons_append, List.append_assoc]
      · rw [bytes, List.reverse_append, List.reverse_reverse, List.append_assoc]
  | case6 => rintro _ _ ⟨⟩
  | case7 done b behind quote backslash printed ih =>
      intro t rest rest_read
      obtain ⟨body, content, split, raw, bytes⟩ := ih rest_read
      refine ⟨b :: body, b :: content, by rw [split]; rfl, ?_, ?_⟩
      · exact .plain (by simpa using quote) (by simpa using backslash) printed raw
      · rw [bytes, List.reverse_cons, List.append_assoc]
        rfl

theorem text_of_raw {body content : Bytes} (raw : Raw body content) (t : String) (rest : Bytes) :
    ∀ done : Bytes, Utf8.bytes t = done.reverse ++ content →
      text done (body ++ 0x22 :: rest) = .ok (t, rest) := by
  induction raw with
  | nil =>
      intro done bytes
      rw [List.append_nil] at bytes
      rw [List.nil_append, text, if_pos (by decide), ← bytes, Utf8.bytes, Utf8.decode_encode]
      simp only [String.ofList_toList]
  | @plain b body content quote backslash printed raw ih =>
      intro done bytes
      rw [List.cons_append, text, if_neg (by simpa using quote), if_neg (by simpa using backslash),
        if_neg printed]
      refine ih _ ?_
      rw [bytes, List.reverse_cons, List.append_assoc]
      rfl
  | @escape behind c body content escaped raw ih =>
      intro done bytes
      obtain ⟨shorter, read⟩ := escape_read escaped (Eq.refl (_ ++ (body ++ 0x22 :: rest)))
      rw [List.cons_append, List.append_assoc, text, if_neg (by decide), if_pos (by decide), read]
      refine ih _ ?_
      rw [bytes, List.reverse_append, List.reverse_reverse, List.append_assoc]


/-! ### Strings as texts -/

theorem Raw.append {body body' content content' : Bytes} (raw : Raw body content)
    (raw' : Raw body' content') : Raw (body ++ body') (content ++ content') := by
  induction raw with
  | nil => exact raw'
  | plain quote backslash printed _ ih => exact .plain quote backslash printed ih
  | escape escaped _ ih =>
      rw [List.append_assoc, List.cons_append, List.append_assoc]
      exact .escape escaped ih

/-- Bytes that neither end a string nor escape anything are bytes of the string. -/
theorem raw_self {bytes : Bytes} (plain : ∀ b ∈ bytes, b ≠ 0x22 ∧ b ≠ 0x5C ∧ ¬ b < 0x20) :
    Raw bytes bytes := by
  induction bytes with
  | nil => exact .nil
  | cons b rest ih =>
      obtain ⟨⟨quote, backslash, printed⟩, others⟩ := List.forall_mem_cons.mp plain
      exact .plain quote backslash printed (ih others)

/-- The bytes of a plain character. -/
theorem raw_encodeChar {c : Char} (quote : c ≠ '"') (backslash : c ≠ '\\')
    (printed : 0x20 ≤ c.toNat) : Raw (String.utf8EncodeChar c) (String.utf8EncodeChar c) := by
  refine raw_self fun b mem => ?_
  have quote' : c.toNat ≠ 0x22 := fun same => quote (Char.toNat_inj.mp same)
  have backslash' : c.toNat ≠ 0x5C := fun same => backslash (Char.toNat_inj.mp same)
  simp only [ne_eq, ← UInt8.toNat_inj, UInt8.lt_iff_toNat_lt, UInt8.reduceToNat]
  rcases (Utf8.encodes_encodeChar c).ascii_or_high with ⟨low, bytes⟩ | ⟨-, high⟩
  · rw [bytes, List.mem_singleton] at mem
    rw [mem, Utf8.toNat_ofNat_lt (by omega)]
    omega
  · have := high b mem
    omega

theorem raw_of_body {body string : List Char} (spelled : Body body string) :
    Raw (Utf8.encode body) (Utf8.encode string) := by
  induction spelled with
  | nil => exact .nil
  | plain quote backslash printed _ ih => exact (raw_encodeChar quote backslash printed).append ih
  | escape escaped _ ih =>
      rw [Utf8.encode_cons, Utf8.encode_append, Utf8.encode_cons]
      exact .escape escaped ih

/-- Continuation bytes stand for themselves: the bytes of an escaped character begin with none. -/
theorem Raw.behind_tails {body content : Bytes} {tails : Bytes}
    (all : ∀ b ∈ tails, Utf8.isTail b = true) (raw : Raw body (tails ++ content)) :
    ∃ body', body = tails ++ body' ∧ Raw body' content := by
  induction tails generalizing body with
  | nil => exact ⟨body, rfl, raw⟩
  | cons b tails ih =>
      obtain ⟨tail, all⟩ := List.forall_mem_cons.mp all
      generalize content_eq : b :: tails ++ content = whole at raw
      cases raw with
      | nil => cases content_eq
      | plain quote backslash printed raw =>
          cases content_eq
          obtain ⟨body', rfl, behind⟩ := ih all raw
          exact ⟨body', rfl, behind⟩
      | escape escaped raw =>
          next behind c body content' =>
          obtain ⟨lead, more, bytes, start, -⟩ := (Utf8.encodes_encodeChar c).tails
          rw [bytes] at content_eq
          obtain ⟨rfl, -⟩ := List.cons.inj content_eq
          rw [tail] at start
          cases start

/-- A character whose first byte is plain is plain. -/
theorem plain_of_lead {c : Char} {b : UInt8} {more : Bytes}
    (bytes : String.utf8EncodeChar c = b :: more) (quote : b ≠ 0x22) (backslash : b ≠ 0x5C)
    (printed : ¬ b < 0x20) : c ≠ '"' ∧ c ≠ '\\' ∧ 0x20 ≤ c.toNat := by
  refine ⟨?_, ?_, Nat.le_of_not_lt fun control => printed ?_⟩
  · rintro rfl
    exact quote (List.cons.inj bytes).1.symm
  · rintro rfl
    exact backslash (List.cons.inj bytes).1.symm
  · rw [Utf8.encodeChar_ascii (by omega)] at bytes
    rw [← (List.cons.inj bytes).1, UInt8.lt_iff_toNat_lt, Utf8.toNat_ofNat_lt (by omega)]
    exact control

/-- The body of a string is a text: an escape begins no character's bytes in the middle. -/
theorem body_of_raw {string : List Char} : ∀ {body : Bytes}, Raw body (Utf8.encode string) →
    ∃ text, body = Utf8.encode text ∧ Body text string := by
  induction string with
  | nil =>
      intro body raw
      generalize content_eq : Utf8.encode [] = content at raw
      cases raw with
      | nil => exact ⟨[], rfl, .nil⟩
      | plain => cases content_eq
      | escape escaped raw =>
          next behind c _ _ =>
          obtain ⟨none, -⟩ := List.append_eq_nil_iff.mp content_eq.symm
          exact absurd none (Utf8.encodes_encodeChar c).ne_nil
  | cons c string ih =>
      intro body raw
      generalize content_eq : Utf8.encode (c :: string) = content at raw
      cases raw with
      | nil => exact absurd (Utf8.encode_eq_nil_iff.mp content_eq) (List.cons_ne_nil _ _)
      | plain quote backslash printed raw =>
          next b body content =>
          obtain ⟨lead, more, bytes, -, tails⟩ := (Utf8.encodes_encodeChar c).tails
          rw [Utf8.encode_cons, bytes] at content_eq
          obtain ⟨rfl, rfl⟩ := List.cons.inj content_eq
          obtain ⟨body', rfl, behind⟩ := raw.behind_tails tails
          obtain ⟨text, rfl, spelled⟩ := ih behind
          obtain ⟨quote', backslash', printed'⟩ := plain_of_lead bytes quote backslash printed
          exact ⟨c :: text, by rw [Utf8.encode_cons, bytes]; rfl,
            .plain quote' backslash' printed' spelled⟩
      | escape escaped raw =>
          obtain ⟨rfl, rfl⟩ := Utf8.encode_cons_eq_append content_eq
          obtain ⟨text, rfl, spelled⟩ := ih raw
          next behind =>
          refine ⟨'\\' :: (behind ++ text), ?_, .escape escaped spelled⟩
          rw [Utf8.encode_cons, Utf8.encode_append]
          rfl

/-- A string is read up to the first quote that is not escaped, and the reader gives the text
that its body spells. -/
theorem text_eq_ok_iff {s rest : Bytes} {t : String} :
    text [] s = .ok (t, rest) ↔
      ∃ body, Body body t.toList ∧ s = Utf8.encode body ++ 0x22 :: rest := by
  constructor
  · intro read
    obtain ⟨source, content, rfl, raw, bytes⟩ := raw_of_text read
    rw [List.reverse_nil, List.nil_append] at bytes
    subst bytes
    obtain ⟨body, rfl, spelled⟩ := @body_of_raw t.toList _ raw
    exact ⟨body, spelled, rfl⟩
  · rintro ⟨body, spelled, rfl⟩
    exact text_of_raw (raw_of_body spelled) t rest [] rfl

end Deposit.Json
