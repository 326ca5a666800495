import Deposit.Text.Base64Url
import Deposit.Proofs.Text.Utf8

/-!
Base64 on URLs' alphabet: symbols hold bytes if and only if they are the bytes' own
(`decode_eq_ok_iff`). So bytes have one text, and it is read back as them (`decode_encode_text`).
-/

namespace Deposit.Base64Url

/-! ### Symbols -/

theorem toNat_symbol (n : Nat) :
    (symbol n).toNat = (if n < 26 then 0x41 + n else if n < 52 then 0x61 + (n - 26)
      else if n < 62 then 0x30 + (n - 52) else if n = 62 then 0x2D else 0x5F) := by
  rw [symbol, Utf8.toNat_ofNat_lt]
  split_ifs <;> omega

/-- The six bits of a byte are `n` exactly if it is the symbol of `n`. -/
theorem value?_eq_some_iff {b : UInt8} {n : Nat} :
    value? b = some n ↔ n < 64 ∧ b = symbol n := by
  rw [← UInt8.toNat_inj, toNat_symbol]
  have small : b.toNat < 256 := b.toNat_lt
  simp only [value?, Bool.and_eq_true, decide_eq_true_eq, beq_iff_eq]
  split_ifs <;> simp only [Option.some.injEq, false_iff] <;> omega

theorem bits_eq_ok_iff {b : UInt8} {offset n : Nat} :
    bits b offset = .ok n ↔ n < 64 ∧ b = symbol n := by
  rw [bits, ← value?_eq_some_iff]
  cases value? b <;> simp

theorem bits_symbol {n : Nat} (h : n < 64) (offset : Nat) : bits (symbol n) offset = .ok n :=
  bits_eq_ok_iff.mpr ⟨h, rfl⟩

theorem bind_eq_ok {ε α β : Type} {x : Except ε α} {f : α → Except ε β} {b : β} :
    x >>= f = .ok b ↔ ∃ a, x = .ok a ∧ f a = .ok b := by
  cases x <;> simp [bind, Except.bind]

theorem bits_bind_eq_ok {b : UInt8} {offset : Nat} {α : Type} {f : Nat → Except Fault α} {a : α} :
    bits b offset >>= f = .ok a ↔ ∃ n < 64, b = symbol n ∧ f n = .ok a := by
  simp only [bind_eq_ok, bits_eq_ok_iff, and_assoc]

/-! ### Reading and writing -/

theorem decodeFrom_encode (bytes : Bytes) :
    ∀ offset, decodeFrom offset (encode bytes) = .ok bytes := by
  fun_induction encode bytes with
  | case1 => exact fun _ => rfl
  | case2 a =>
      intro offset
      have := a.toNat_lt
      rw [decodeFrom, bits_symbol (by omega), bits_symbol (by omega)]
      simp only [bind, Except.bind]
      rw [if_neg (by omega), Utf8.ofNat_eq (b := a) (by omega)]
  | case3 a b =>
      intro offset
      have := a.toNat_lt
      have := b.toNat_lt
      rw [decodeFrom, bits_symbol (by omega), bits_symbol (by omega), bits_symbol (by omega)]
      simp only [bind, Except.bind]
      rw [if_neg (by omega), Utf8.ofNat_eq (b := a) (by omega), Utf8.ofNat_eq (b := b) (by omega)]
  | case4 a b c rest ih =>
      intro offset
      have := a.toNat_lt
      have := b.toNat_lt
      have := c.toNat_lt
      rw [decodeFrom, bits_symbol (by omega), bits_symbol (by omega), bits_symbol (by omega),
        bits_symbol (by omega), ih]
      simp only [bind, Except.bind]
      rw [Utf8.ofNat_eq (b := a) (by omega), Utf8.ofNat_eq (b := b) (by omega),
        Utf8.ofNat_eq (b := c) (by omega)]

/-- Symbols that are read are the ones of the bytes that were read. -/
theorem encode_of_decodeFrom {symbols : Bytes} : ∀ {offset : Nat} {bytes : Bytes},
    decodeFrom offset symbols = .ok bytes → symbols = encode bytes := by
  intro offset
  fun_induction decodeFrom offset symbols with
  | case1 offset =>
      rintro _ ⟨⟩
      rfl
  | case2 offset a =>
      intro _ read
      obtain ⟨_, _, rfl, none⟩ := bits_bind_eq_ok.mp read
      cases none
  | case3 offset a b =>
      intro _ read
      obtain ⟨x, _, rfl, read₁⟩ := bits_bind_eq_ok.mp read
      obtain ⟨y, _, rfl, read₂⟩ := bits_bind_eq_ok.mp read₁
      by_cases beyond : y % 16 ≠ 0
      · rw [if_pos beyond] at read₂
        cases read₂
      · rw [if_neg beyond] at read₂
        cases read₂
        rw [encode, Utf8.toNat_ofNat_lt (by omega)]
        congr <;> omega
  | case4 offset a b c =>
      intro _ read
      obtain ⟨x, _, rfl, read₁⟩ := bits_bind_eq_ok.mp read
      obtain ⟨y, _, rfl, read₂⟩ := bits_bind_eq_ok.mp read₁
      obtain ⟨z, _, rfl, read₃⟩ := bits_bind_eq_ok.mp read₂
      by_cases beyond : z % 4 ≠ 0
      · rw [if_pos beyond] at read₃
        cases read₃
      · rw [if_neg beyond] at read₃
        cases read₃
        rw [encode, Utf8.toNat_ofNat_lt (by omega), Utf8.toNat_ofNat_lt (by omega)]
        congr <;> omega
  | case5 offset a b c d rest ih =>
      intro _ read
      obtain ⟨x, _, rfl, read₁⟩ := bits_bind_eq_ok.mp read
      obtain ⟨y, _, rfl, read₂⟩ := bits_bind_eq_ok.mp read₁
      obtain ⟨z, _, rfl, read₃⟩ := bits_bind_eq_ok.mp read₂
      obtain ⟨w, _, rfl, read₄⟩ := bits_bind_eq_ok.mp read₃
      obtain ⟨more, others, read₅⟩ := bind_eq_ok.mp read₄
      cases read₅
      rw [encode, Utf8.toNat_ofNat_lt (by omega), Utf8.toNat_ofNat_lt (by omega),
        Utf8.toNat_ofNat_lt (by omega), ih others]
      congr <;> omega

/-- No text of symbols ends with one that is left over. -/
theorem length_encode (bytes : Bytes) : (encode bytes).length % 4 ≠ 1 := by
  fun_induction encode bytes with
  | case1 => decide
  | case2 | case3 => simp
  | case4 a b c rest ih =>
      simp only [List.length_cons]
      omega

/-- Symbols hold bytes exactly if they are the ones of the bytes. -/
theorem decode_eq_ok_iff {symbols bytes : Bytes} :
    decode symbols = .ok bytes ↔ symbols = encode bytes := by
  constructor
  · intro read
    rw [decode] at read
    split at read
    · split at read
      · cases read
      · exact encode_of_decodeFrom read
    · next last =>
      cases read
      exact List.getLast?_eq_none_iff.mp last
  · rintro rfl
    rw [decode]
    split
    · rw [if_neg fun left => length_encode bytes left.1]
      exact decodeFrom_encode bytes 0
    · next last =>
      have none := List.getLast?_eq_none_iff.mp last
      have read := decodeFrom_encode bytes 0
      rw [none] at read
      exact read

/-! ### Texts of symbols -/

theorem mem_encode {bytes : Bytes} {b : UInt8} (mem : b ∈ encode bytes) :
    ∃ n < 64, b = symbol n := by
  fun_induction encode bytes with
  | case1 => cases mem
  | case2 a =>
      have := a.toNat_lt
      simp only [List.mem_cons, List.not_mem_nil, or_false] at mem
      rcases mem with rfl | rfl
      · exact ⟨_, by omega, rfl⟩
      · exact ⟨_, by omega, rfl⟩
  | case3 a b =>
      have := a.toNat_lt
      have := b.toNat_lt
      simp only [List.mem_cons, List.not_mem_nil, or_false] at mem
      rcases mem with rfl | rfl | rfl
      · exact ⟨_, by omega, rfl⟩
      · exact ⟨_, by omega, rfl⟩
      · exact ⟨_, by omega, rfl⟩
  | case4 a b c rest ih =>
      have := a.toNat_lt
      have := b.toNat_lt
      have := c.toNat_lt
      simp only [List.mem_cons] at mem
      rcases mem with rfl | rfl | rfl | rfl | mem
      · exact ⟨_, by omega, rfl⟩
      · exact ⟨_, by omega, rfl⟩
      · exact ⟨_, by omega, rfl⟩
      · exact ⟨_, by omega, rfl⟩
      · exact ih mem

/-- The symbols of bytes as a text. -/
def written (bytes : Bytes) : List Char := (encode bytes).map fun b => Char.ofNat b.toNat

/-- A symbol is a letter, a digit, a hyphen or an underscore. -/
theorem toNat_symbol_lt {n : Nat} (small : n < 64) :
    (symbol n).toNat < 0x80 ∧ (symbol n).toNat ≠ 0x2E ∧ (symbol n).toNat ≠ 0x3D := by
  rw [toNat_symbol]
  split_ifs <;> omega

theorem encode_written (bytes : Bytes) : Utf8.encode (written bytes) = encode bytes := by
  refine Utf8.encode_map_ofNat fun b mem => ?_
  obtain ⟨n, small, rfl⟩ := mem_encode mem
  exact (toNat_symbol_lt small).1

/-- Neither of the two characters that stand around symbols is one. -/
theorem mem_written {bytes : Bytes} {c : Char} (mem : c ∈ written bytes) : c ≠ '.' ∧ c ≠ '=' := by
  obtain ⟨b, held, rfl⟩ := List.mem_map.mp mem
  obtain ⟨n, small, rfl⟩ := mem_encode held
  obtain ⟨low, dot, pad⟩ := toNat_symbol_lt small
  have value : (Char.ofNat (symbol n).toNat).toNat = (symbol n).toNat :=
    Utf8.toNat_ofNat_valid (.inl (by omega))
  exact ⟨fun same => dot (value ▸ congrArg Char.toNat same),
    fun same => pad (value ▸ congrArg Char.toNat same)⟩

/-- What a text of symbols holds: the bytes that it is the text of. -/
theorem decode_encode_text {text : List Char} {bytes : Bytes} :
    decode (Utf8.encode text) = .ok bytes ↔ text = written bytes := by
  rw [decode_eq_ok_iff, ← encode_written, Utf8.encode_inj]

end Deposit.Base64Url
