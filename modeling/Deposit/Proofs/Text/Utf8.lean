import Deposit.Proofs.Text.Blank
import Deposit.Text.Split
import Deposit.Text.Utf8

/-!
UTF-8: what is written is read back, and nothing else is read (`decode_eq_ok_iff`).

A character below 0x80 is one byte, and all bytes of any other character are 0x80 and
more (`Encodes`). So a class of bytes below 0x80 is the class of their characters
(`IsClass`), and to trim bytes by the one is to trim the text by the other
(`trimBy_encode`).
-/

namespace Deposit.Utf8

@[simp] theorem encode_nil : encode [] = [] := rfl

@[simp] theorem encode_cons (c : Char) (text : List Char) :
    encode (c :: text) = String.utf8EncodeChar c ++ encode text := rfl

@[simp] theorem encode_append (before after : List Char) :
    encode (before ++ after) = encode before ++ encode after :=
  List.flatMap_append

/-! ### The bytes of one character -/

/-- The bytes of a code point, by the length of the sequence. -/
inductive Encodes (n : Nat) : Bytes → Prop where
  | one (high : n < 0x80) : Encodes n [UInt8.ofNat n]
  | two (low : 0x80 ≤ n) (high : n < 0x800) :
    Encodes n [UInt8.ofNat (n / 0x40 + 0xC0), UInt8.ofNat (n % 0x40 + 0x80)]
  | three (low : 0x800 ≤ n) (high : n < 0x10000) (valid : n < 0xD800 ∨ 0xDFFF < n) :
    Encodes n [UInt8.ofNat (n / 0x1000 + 0xE0), UInt8.ofNat (n / 0x40 % 0x40 + 0x80),
      UInt8.ofNat (n % 0x40 + 0x80)]
  | four (low : 0x10000 ≤ n) (high : n < 0x110000) :
    Encodes n [UInt8.ofNat (n / 0x40000 + 0xF0), UInt8.ofNat (n / 0x1000 % 0x40 + 0x80),
      UInt8.ofNat (n / 0x40 % 0x40 + 0x80), UInt8.ofNat (n % 0x40 + 0x80)]

theorem encodes_encodeChar (c : Char) : Encodes c.toNat (String.utf8EncodeChar c) := by
  have valid : c.toNat < 0xD800 ∨ 0xDFFF < c.toNat ∧ c.toNat < 0x110000 := c.valid
  have value : c.val.toNat = c.toNat := rfl
  by_cases one : c.toNat ≤ 0x7F
  · simp only [String.utf8EncodeChar, value, if_pos one]
    exact .one (by omega)
  · by_cases two : c.toNat ≤ 0x7FF
    · simp only [String.utf8EncodeChar, value, if_neg one, if_pos two]
      rw [Nat.mod_eq_of_lt (a := c.toNat / 64) (by omega)]
      exact .two (by omega) (by omega)
    · by_cases three : c.toNat ≤ 0xFFFF
      · simp only [String.utf8EncodeChar, value, if_neg one, if_neg two, if_pos three]
        rw [Nat.mod_eq_of_lt (a := c.toNat / 4096) (by omega)]
        exact .three (by omega) (by omega) (by omega)
      · simp only [String.utf8EncodeChar, value, if_neg one, if_neg two, if_neg three]
        rw [Nat.mod_eq_of_lt (a := c.toNat / 262144) (by omega)]
        exact .four (by omega) (by omega)

theorem toNat_ofNat_lt {n : Nat} (h : n < 0x100) : (UInt8.ofNat n).toNat = n := by
  rw [UInt8.toNat_ofNat', Nat.mod_eq_of_lt h]

/-- A continuation byte and its payload. -/
theorem tail_ofNat {n : Nat} (h : n < 0x40) :
    isTail (UInt8.ofNat (n + 0x80)) = true ∧ tailBits (UInt8.ofNat (n + 0x80)) = n := by
  have value := toNat_ofNat_lt (n := n + 0x80) (by omega)
  constructor
  · simp only [isTail, Bool.and_eq_true, decide_eq_true_eq, UInt8.le_iff_toNat_le, value,
      UInt8.reduceToNat]
    omega
  · rw [tailBits, value]
    omega

theorem step_one {n : Nat} (h : n < 0x80) (rest : Bytes) :
    step (UInt8.ofNat n) rest = .char (Char.ofNat n) rest := by
  have value := toNat_ofNat_lt (n := n) (by omega)
  simp only [step, UInt8.lt_iff_toNat_lt, value, UInt8.reduceToNat]
  rw [if_pos h]

theorem step_two {n : Nat} (low : 0x80 ≤ n) (high : n < 0x800) (rest : Bytes) :
    step (UInt8.ofNat (n / 0x40 + 0xC0)) (UInt8.ofNat (n % 0x40 + 0x80) :: rest) =
      .char (Char.ofNat n) rest := by
  have value := toNat_ofNat_lt (n := n / 0x40 + 0xC0) (by omega)
  obtain ⟨tail, bits⟩ := tail_ofNat (n := n % 0x40) (by omega)
  simp only [step, UInt8.lt_iff_toNat_lt, value, UInt8.reduceToNat, tail, bits, if_true]
  rw [if_neg (by omega), if_neg (by omega), if_pos (by omega)]
  congr 2
  omega

theorem step_three {n : Nat} (low : 0x800 ≤ n) (high : n < 0x10000)
    (valid : n < 0xD800 ∨ 0xDFFF < n) (rest : Bytes) :
    step (UInt8.ofNat (n / 0x1000 + 0xE0))
        (UInt8.ofNat (n / 0x40 % 0x40 + 0x80) :: UInt8.ofNat (n % 0x40 + 0x80) :: rest) =
      .char (Char.ofNat n) rest := by
  have value := toNat_ofNat_lt (n := n / 0x1000 + 0xE0) (by omega)
  have value' := toNat_ofNat_lt (n := n / 0x40 % 0x40 + 0x80) (by omega)
  obtain ⟨tail, bits⟩ := tail_ofNat (n := n / 0x40 % 0x40) (by omega)
  obtain ⟨tail', bits'⟩ := tail_ofNat (n := n % 0x40) (by omega)
  -- Neither an overlong form nor a surrogate.
  have second : secondOfThree (UInt8.ofNat (n / 0x1000 + 0xE0))
      (UInt8.ofNat (n / 0x40 % 0x40 + 0x80)) = true := by
    simp only [secondOfThree, tail, Bool.true_and, Bool.and_eq_true, Bool.or_eq_true,
      bne_iff_ne, ne_eq, ← UInt8.toNat_inj, decide_eq_true_eq, UInt8.le_iff_toNat_le, value,
      value', UInt8.reduceToNat]
    omega
  simp only [step, UInt8.lt_iff_toNat_lt, value, UInt8.reduceToNat, second, tail', bits, bits',
    if_true]
  rw [if_neg (by omega), if_neg (by omega), if_neg (by omega), if_pos (by omega)]
  congr 2
  omega

theorem step_four {n : Nat} (low : 0x10000 ≤ n) (high : n < 0x110000) (rest : Bytes) :
    step (UInt8.ofNat (n / 0x40000 + 0xF0))
        (UInt8.ofNat (n / 0x1000 % 0x40 + 0x80) :: UInt8.ofNat (n / 0x40 % 0x40 + 0x80) ::
          UInt8.ofNat (n % 0x40 + 0x80) :: rest) =
      .char (Char.ofNat n) rest := by
  have value := toNat_ofNat_lt (n := n / 0x40000 + 0xF0) (by omega)
  have value' := toNat_ofNat_lt (n := n / 0x1000 % 0x40 + 0x80) (by omega)
  obtain ⟨tail, bits⟩ := tail_ofNat (n := n / 0x1000 % 0x40) (by omega)
  obtain ⟨tail', bits'⟩ := tail_ofNat (n := n / 0x40 % 0x40) (by omega)
  obtain ⟨tail'', bits''⟩ := tail_ofNat (n := n % 0x40) (by omega)
  -- Neither an overlong form nor above the last code point.
  have second : secondOfFour (UInt8.ofNat (n / 0x40000 + 0xF0))
      (UInt8.ofNat (n / 0x1000 % 0x40 + 0x80)) = true := by
    simp only [secondOfFour, tail, Bool.true_and, Bool.and_eq_true, Bool.or_eq_true,
      bne_iff_ne, ne_eq, ← UInt8.toNat_inj, decide_eq_true_eq, UInt8.le_iff_toNat_le, value,
      value', UInt8.reduceToNat]
    omega
  simp only [step, UInt8.lt_iff_toNat_lt, value, UInt8.reduceToNat, second, tail', tail'', bits,
    bits', bits'', if_true]
  rw [if_neg (by omega), if_neg (by omega), if_neg (by omega), if_neg (by omega),
    if_pos (by omega)]
  congr 2
  omega

/-- The bytes of a code point are read as its character. -/
theorem Encodes.read {n : Nat} {bytes : Bytes} (h : Encodes n bytes) :
    ∃ lead more, bytes = lead :: more ∧
      ∀ rest, step lead (more ++ rest) = .char (Char.ofNat n) rest := by
  cases h with
  | one high => exact ⟨_, _, rfl, step_one high⟩
  | two low high => exact ⟨_, _, rfl, step_two low high⟩
  | three low high valid => exact ⟨_, _, rfl, step_three low high valid⟩
  | four low high => exact ⟨_, _, rfl, step_four low high⟩

theorem Encodes.ne_nil {n : Nat} {bytes : Bytes} (h : Encodes n bytes) : bytes ≠ [] := by
  cases h <;> exact List.cons_ne_nil _ _

/-- Either the one byte of a code point below 0x80, or bytes that are no such. -/
theorem Encodes.ascii_or_high {n : Nat} {bytes : Bytes} (h : Encodes n bytes) :
    (n < 0x80 ∧ bytes = [UInt8.ofNat n]) ∨ (0x80 ≤ n ∧ ∀ b ∈ bytes, 0x80 ≤ b.toNat) := by
  cases h with
  | one high => exact .inl ⟨high, rfl⟩
  | two low high =>
      refine .inr ⟨low, ?_⟩
      simp only [List.forall_mem_cons, UInt8.toNat_ofNat']
      exact ⟨by omega, by omega, by simp⟩
  | three low high valid =>
      refine .inr ⟨by omega, ?_⟩
      simp only [List.forall_mem_cons, UInt8.toNat_ofNat']
      exact ⟨by omega, by omega, by omega, by simp⟩
  | four low high =>
      refine .inr ⟨by omega, ?_⟩
      simp only [List.forall_mem_cons, UInt8.toNat_ofNat']
      exact ⟨by omega, by omega, by omega, by omega, by simp⟩

theorem encodeChar_ascii {c : Char} (low : c.toNat < 0x80) :
    String.utf8EncodeChar c = [UInt8.ofNat c.toNat] := by
  rcases (encodes_encodeChar c).ascii_or_high with ⟨-, bytes⟩ | ⟨high, -⟩
  · exact bytes
  · omega

/-- A character begins with a byte that continues none, and goes on with bytes that do. -/
theorem Encodes.tails {n : Nat} {bytes : Bytes} (h : Encodes n bytes) :
    ∃ lead more, bytes = lead :: more ∧ isTail lead = false ∧ ∀ b ∈ more, isTail b = true := by
  have start {m : Nat} (small : m < 0x100) (none : m < 0x80 ∨ 0xBF < m) :
      isTail (UInt8.ofNat m) = false := by
    rw [isTail, Bool.and_eq_false_iff, decide_eq_false_iff_not, decide_eq_false_iff_not,
      UInt8.le_iff_toNat_le, UInt8.le_iff_toNat_le, toNat_ofNat_lt small]
    simp only [UInt8.reduceToNat]
    omega
  have tail {m : Nat} (small : m < 0x40) : isTail (UInt8.ofNat (m + 0x80)) = true :=
    (tail_ofNat small).1
  cases h with
  | one high => exact ⟨_, _, rfl, start (by omega) (by omega), by simp⟩
  | two low high =>
      refine ⟨_, _, rfl, start (by omega) (by omega), ?_⟩
      exact List.forall_mem_cons.mpr ⟨tail (by omega), by simp⟩
  | three low high valid =>
      refine ⟨_, _, rfl, start (by omega) (by omega), ?_⟩
      simp only [List.forall_mem_cons]
      exact ⟨tail (by omega), tail (by omega), by simp⟩
  | four low high =>
      refine ⟨_, _, rfl, start (by omega) (by omega), ?_⟩
      simp only [List.forall_mem_cons]
      exact ⟨tail (by omega), tail (by omega), tail (by omega), by simp⟩

/-- A code point has one sequence of bytes. -/
theorem Encodes.unique {n : Nat} {bytes bytes' : Bytes} (h : Encodes n bytes)
    (h' : Encodes n bytes') : bytes = bytes' := by
  cases h <;> cases h' <;> first | rfl | omega

theorem toNat_ofNat_valid {n : Nat} (h : n.isValidChar) : (Char.ofNat n).toNat = n := by
  rw [Char.ofNat, dif_pos h]
  rfl

theorem Encodes.encodeChar {n : Nat} {bytes : Bytes} (h : Encodes n bytes) :
    String.utf8EncodeChar (Char.ofNat n) = bytes := by
  have valid : n.isValidChar := by
    cases h with
    | one high => exact .inl (by omega)
    | two low high => exact .inl (by omega)
    | three low high valid => exact valid.imp_right fun above => ⟨above, by omega⟩
    | four low high => exact .inr ⟨by omega, high⟩
  have encodes := encodes_encodeChar (Char.ofNat n)
  rw [toNat_ofNat_valid valid] at encodes
  exact encodes.unique h


/-! ### What a step takes -/

/-- A byte by its value. -/
theorem ofNat_eq {n : Nat} {b : UInt8} (h : n = b.toNat) : UInt8.ofNat n = b := by
  rw [h, UInt8.ofNat_toNat]

theorem toNat_tail {b : UInt8} (h : isTail b = true) :
    b.toNat = tailBits b + 0x80 ∧ tailBits b < 0x40 := by
  rw [isTail, Bool.and_eq_true, decide_eq_true_eq, decide_eq_true_eq, UInt8.le_iff_toNat_le,
    UInt8.le_iff_toNat_le] at h
  simp only [UInt8.reduceToNat] at h
  rw [tailBits]
  omega

theorem encodes_two {lead b : UInt8} (low : 0xC2 ≤ lead.toNat) (high : lead.toNat < 0xE0)
    (tail : isTail b = true) : Encodes ((lead.toNat - 0xC0) * 0x40 + tailBits b) [lead, b] := by
  obtain ⟨value, bits⟩ := toNat_tail tail
  have encodes := Encodes.two (n := (lead.toNat - 0xC0) * 0x40 + tailBits b) (by omega) (by omega)
  rwa [ofNat_eq (b := lead) (by omega), ofNat_eq (b := b) (by omega)] at encodes

theorem encodes_three {lead b c : UInt8} (low : 0xE0 ≤ lead.toNat) (high : lead.toNat < 0xF0)
    (second : secondOfThree lead b = true) (tail : isTail c = true) :
    Encodes (((lead.toNat - 0xE0) * 0x40 + tailBits b) * 0x40 + tailBits c) [lead, b, c] := by
  simp only [secondOfThree, Bool.and_eq_true, Bool.or_eq_true, bne_iff_ne, ne_eq,
    ← UInt8.toNat_inj, decide_eq_true_eq, UInt8.le_iff_toNat_le, UInt8.reduceToNat] at second
  obtain ⟨⟨tail', overlong⟩, surrogate⟩ := second
  obtain ⟨value, bits⟩ := toNat_tail tail
  obtain ⟨value', bits'⟩ := toNat_tail tail'
  have encodes := Encodes.three
    (n := ((lead.toNat - 0xE0) * 0x40 + tailBits b) * 0x40 + tailBits c)
    (by omega) (by omega) (by omega)
  rwa [ofNat_eq (b := lead) (by omega), ofNat_eq (b := b) (by omega),
    ofNat_eq (b := c) (by omega)] at encodes

theorem encodes_four {lead b c d : UInt8} (low : 0xF0 ≤ lead.toNat) (high : lead.toNat < 0xF5)
    (second : secondOfFour lead b = true) (tail : isTail c = true) (tail' : isTail d = true) :
    Encodes ((((lead.toNat - 0xF0) * 0x40 + tailBits b) * 0x40 + tailBits c) * 0x40 + tailBits d)
      [lead, b, c, d] := by
  simp only [secondOfFour, Bool.and_eq_true, Bool.or_eq_true, bne_iff_ne, ne_eq,
    ← UInt8.toNat_inj, decide_eq_true_eq, UInt8.le_iff_toNat_le, UInt8.reduceToNat] at second
  obtain ⟨⟨tail'', overlong⟩, last⟩ := second
  obtain ⟨value, bits⟩ := toNat_tail tail
  obtain ⟨value', bits'⟩ := toNat_tail tail'
  obtain ⟨value'', bits''⟩ := toNat_tail tail''
  have encodes := Encodes.four
    (n := (((lead.toNat - 0xF0) * 0x40 + tailBits b) * 0x40 + tailBits c) * 0x40 + tailBits d)
    (by omega) (by omega)
  rwa [ofNat_eq (b := lead) (by omega), ofNat_eq (b := b) (by omega),
    ofNat_eq (b := c) (by omega), ofNat_eq (b := d) (by omega)] at encodes

/-- The bytes that one step takes are the ones of the character it reads. -/
theorem encodeChar_of_step {lead : UInt8} {rest rest' : Bytes} {c : Char}
    (h : step lead rest = .char c rest') : lead :: rest = String.utf8EncodeChar c ++ rest' := by
  simp only [step, UInt8.lt_iff_toNat_lt, UInt8.reduceToNat] at h
  repeat' split at h
  all_goals
    first
    | (cases h; done)
    | skip
  · cases h
    next low =>
    rw [(Encodes.one low).encodeChar, UInt8.ofNat_toNat]
    rfl
  · cases h
    next low' low high b rest' tail =>
    rw [(encodes_two (by omega) high tail).encodeChar]
    rfl
  · cases h
    next low high b rest' second c rest'' tail =>
    rw [(encodes_three (by omega) high second tail).encodeChar]
    rfl
  · cases h
    next low high b rest' second c rest'' tail d rest'' tail' =>
    rw [(encodes_four (by omega) high second tail tail').encodeChar]
    rfl

/-! ### Reading back -/

theorem decodeFrom_cons (start : Nat) {lead : UInt8} {rest rest' : Bytes} {c : Char}
    (h : step lead rest = .char c rest') :
    decodeFrom start (lead :: rest) =
      (decodeFrom (start + c.utf8Size) rest').map (c :: ·) := by
  rw [decodeFrom]
  split
  · rename_i bad
    cases h.symm.trans bad
  · rename_i read
    cases h.symm.trans read
    cases decodeFrom (start + c.utf8Size) rest' <;> rfl

theorem decodeFrom_encode (text : List Char) :
    ∀ start, decodeFrom start (encode text) = .ok text := by
  induction text with
  | nil =>
      intro start
      rw [encode_nil, decodeFrom]
  | cons c text ih =>
      intro start
      obtain ⟨lead, more, bytes, read⟩ := (encodes_encodeChar c).read
      rw [Char.ofNat_toNat] at read
      rw [encode_cons, bytes, List.cons_append, decodeFrom_cons start (read _), ih]
      rfl

/-- What is written is read back. -/
@[simp] theorem decode_encode (text : List Char) : decode (encode text) = .ok text :=
  decodeFrom_encode text 0

theorem encode_of_decodeFrom {start : Nat} {bytes : Bytes} : ∀ {text : List Char},
    decodeFrom start bytes = .ok text → bytes = encode text := by
  fun_induction decodeFrom start bytes with
  | case1 =>
      rintro _ ⟨⟩
      rfl
  | case2 => rintro _ ⟨⟩
  | case3 start lead rest c rest' step _ cs read ih =>
      rintro _ ⟨⟩
      rw [encodeChar_of_step step, ih read, encode_cons]
  | case4 => rintro _ ⟨⟩

/-- Bytes are read as the text that they are the bytes of. -/
theorem decode_eq_ok_iff {bytes : Bytes} {text : List Char} :
    decode bytes = .ok text ↔ bytes = encode text := by
  refine ⟨encode_of_decodeFrom, ?_⟩
  rintro rfl
  exact decode_encode text

theorem encode_inj {text text' : List Char} : encode text = encode text' ↔ text = text' := by
  refine ⟨fun same => ?_, fun same => same ▸ rfl⟩
  have decoded := congrArg decode same
  rw [decode_encode, decode_encode] at decoded
  exact Except.ok.inj decoded

/-- A text that begins with the bytes of a character begins with the character. -/
theorem encode_cons_eq_append {c k : Char} {text : List Char} {behind : Bytes}
    (h : encode (c :: text) = String.utf8EncodeChar k ++ behind) :
    c = k ∧ behind = encode text := by
  obtain ⟨lead, more, bytes, read⟩ := (encodes_encodeChar c).read
  obtain ⟨lead', more', bytes', read'⟩ := (encodes_encodeChar k).read
  rw [Char.ofNat_toNat] at read read'
  rw [encode_cons, bytes, bytes', List.cons_append, List.cons_append] at h
  obtain ⟨rfl, rest⟩ := List.cons.inj h
  have same := read (encode text)
  rw [rest, read'] at same
  cases same
  exact ⟨rfl, rfl⟩

/-- A text whose bytes begin with the ones of another begins with it. -/
theorem exists_of_encode_eq_append {front : List Char} : ∀ {text : List Char} {behind : Bytes},
    encode text = encode front ++ behind → ∃ rest, text = front ++ rest ∧ behind = encode rest := by
  induction front with
  | nil => exact fun same => ⟨_, rfl, same.symm⟩
  | cons c front ih =>
      intro text behind same
      rw [encode_cons, List.append_assoc] at same
      cases text with
      | nil => exact absurd (List.append_eq_nil_iff.mp same.symm).1 (encodes_encodeChar c).ne_nil
      | cons d text =>
          obtain ⟨rfl, further⟩ := encode_cons_eq_append same
          obtain ⟨rest, rfl, behind⟩ := ih further.symm
          exact ⟨rest, rfl, behind⟩

/-- No byte below 0x80 stands inside a character. -/
theorem exists_of_encode_eq {c : Char} (low : c.toNat < 0x80) : ∀ {text : List Char}
    {front behind : Bytes}, encode text = front ++ UInt8.ofNat c.toNat :: behind →
      ∃ before after, text = before ++ after ∧ front = encode before ∧
        encode after = UInt8.ofNat c.toNat :: behind := by
  intro text
  induction text with
  | nil =>
      intro front behind same
      exact absurd same.symm (List.append_ne_nil_of_right_ne_nil _ (List.cons_ne_nil _ _))
  | cons d text ih =>
      intro front behind same
      cases front with
      | nil => exact ⟨[], d :: text, rfl, rfl, same⟩
      | cons b front =>
          obtain ⟨lead, more, bytes, -, tails⟩ := (encodes_encodeChar d).tails
          rw [encode_cons, bytes, List.cons_append, List.cons_append] at same
          obtain ⟨rfl, further⟩ := List.cons.inj same
          have inside : ∃ front', front = more ++ front' ∧
              encode text = front' ++ UInt8.ofNat c.toNat :: behind := by
            rcases List.append_eq_append_iff.mp further with
              ⟨front', rfl, later⟩ | ⟨more', rfl, later⟩
            · exact ⟨front', rfl, later⟩
            · cases more' with
              | nil => exact ⟨[], by simp, by simpa using later.symm⟩
              | cons b more' =>
                  obtain ⟨rfl, -⟩ := List.cons.inj later
                  have tail := toNat_tail (tails (UInt8.ofNat c.toNat) (by simp))
                  rw [toNat_ofNat_lt (by omega)] at tail
                  omega
          obtain ⟨front', rfl, later⟩ := inside
          obtain ⟨before, after, rfl, rfl, start⟩ := ih later
          exact ⟨d :: before, after, rfl, by rw [encode_cons, bytes]; rfl, start⟩

/-- Bytes below 0x80 are a text, a character each. -/
theorem encode_map_ofNat {bytes : Bytes} (low : ∀ b ∈ bytes, b.toNat < 0x80) :
    encode (bytes.map fun b => Char.ofNat b.toNat) = bytes := by
  induction bytes with
  | nil => rfl
  | cons b rest ih =>
      obtain ⟨low, others⟩ := List.forall_mem_cons.mp low
      rw [List.map_cons, encode_cons, ih others, (Encodes.one low).encodeChar, UInt8.ofNat_toNat]
      rfl

theorem length_le_length_encode (text : List Char) : text.length ≤ (encode text).length := by
  induction text with
  | nil => exact Nat.le_refl 0
  | cons c rest ih =>
      have some := List.length_pos_iff.mpr (encodes_encodeChar c).ne_nil
      rw [encode_cons, List.length_append, List.length_cons]
      omega

/-- What is written is shown as it is. -/
theorem decodeLossy_encode (text : List Char) : decodeLossy (encode text) = text := by
  induction text with
  | nil => rw [encode_nil, decodeLossy]
  | cons c text ih =>
      obtain ⟨lead, more, bytes, read⟩ := (encodes_encodeChar c).read
      rw [Char.ofNat_toNat] at read
      rw [encode_cons, bytes, List.cons_append, decodeLossy]
      split
      · next step =>
        cases (read _).symm.trans step
        rw [ih]
      · next step => cases (read _).symm.trans step
      · next step => cases (read _).symm.trans step

theorem encode_eq_nil_iff {text : List Char} : encode text = [] ↔ text = [] := by
  refine ⟨fun none => ?_, fun none => none ▸ encode_nil⟩
  cases text with
  | nil => rfl
  | cons c rest =>
      rw [encode_cons] at none
      exact absurd (List.append_eq_nil_iff.mp none).1 (encodes_encodeChar c).ne_nil

/-- A text that begins below 0x80 has no byte order mark. -/
theorem behind?_mark {text : List Char} (low : ∀ c ∈ text.head?, c.toNat < 0x80) :
    Split.behind? [0xEF, 0xBB, 0xBF] (encode text) = none := by
  cases text with
  | nil => rfl
  | cons c rest =>
      have ascii := low c rfl
      have bytes : String.utf8EncodeChar c = [UInt8.ofNat c.toNat] := encodeChar_ascii ascii
      have other : ((0xEF : UInt8) == UInt8.ofNat c.toNat) = false := by
        refine beq_eq_false_iff_ne.mpr fun same => ?_
        have value : 0xEF = (UInt8.ofNat c.toNat).toNat := congrArg UInt8.toNat same
        rw [toNat_ofNat_lt (by omega)] at value
        omega
      rw [encode_cons, bytes, List.singleton_append, Split.behind?, other]
      rfl

/-- Texts with the same bytes are the same. -/
theorem bytes_inj {s t : String} : bytes s = bytes t ↔ s = t := by
  refine ⟨fun same => ?_, fun same => same ▸ rfl⟩
  exact String.toList_inj.mp (encode_inj.mp same)

/-! ### Classes of bytes and of characters -/

/-- A class of characters, with the class of the bytes that they are made of. -/
def IsClass (p : UInt8 → Bool) (q : Char → Bool) : Prop :=
  ∀ c, ∀ b ∈ String.utf8EncodeChar c, p b = q c

/-- One character below 0x80. -/
theorem isClass_beq (k : Char) (low : k.toNat < 0x80) :
    IsClass (· == UInt8.ofNat k.toNat) (· == k) := by
  intro c b mem
  have byte : (UInt8.ofNat k.toNat).toNat = k.toNat := toNat_ofNat_lt (by omega)
  show (b == UInt8.ofNat k.toNat) = (c == k)
  rcases (encodes_encodeChar c).ascii_or_high with ⟨ascii, bytes⟩ | ⟨high, bytes⟩
  · rw [bytes, List.mem_singleton] at mem
    have byte' : (UInt8.ofNat c.toNat).toNat = c.toNat := toNat_ofNat_lt (by omega)
    rw [mem, Bool.eq_iff_iff, beq_iff_eq, beq_iff_eq, ← UInt8.toNat_inj, byte, byte']
    exact Char.toNat_inj
  · have above := bytes b mem
    have no : b ≠ UInt8.ofNat k.toNat := by
      intro same
      rw [same, byte] at above
      omega
    have no' : c ≠ k := by
      intro same
      rw [same] at high
      omega
    rw [beq_eq_false_iff_ne.mpr no, beq_eq_false_iff_ne.mpr no']

theorem IsClass.or {p p' : UInt8 → Bool} {q q' : Char → Bool} (h : IsClass p q)
    (h' : IsClass p' q') : IsClass (fun b => p b || p' b) (fun c => q c || q' c) := by
  intro c b mem
  show (p b || p' b) = (q c || q' c)
  rw [h c b mem, h' c b mem]

/-- No byte of a text is in a class, if no character is. -/
theorem IsClass.not_mem {p : UInt8 → Bool} {q : Char → Bool} (h : IsClass p q)
    {text : List Char} (none : ∀ c ∈ text, q c = false) : ∀ b ∈ encode text, p b = false := by
  intro b mem
  obtain ⟨c, mem, mem'⟩ := List.mem_flatMap.mp mem
  rw [h c b mem', none c mem]

/-- Trimming the bytes is trimming the text. -/
theorem trimBy_encode {p : UInt8 → Bool} {q : Char → Bool} (h : IsClass p q)
    (text : List Char) : Blank.trimBy p (encode text) = encode (Blank.trimBy q text) :=
  Blank.trimBy_flatMap h (fun c => (encodes_encodeChar c).ne_nil) text

end Deposit.Utf8
