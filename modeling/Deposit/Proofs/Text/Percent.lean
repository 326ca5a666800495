import Deposit.Proofs.Text.Utf8
import Deposit.Text.Percent
import Mathlib.Data.List.Basic

/-!
Percent-encoding of one segment: the bytes of the text are read back (`decode_segment`), so
different texts have different segments, and a segment has none of the characters that divide a
URI (`segment_plain`).
-/

namespace Deposit.Percent

/-! ### Letters and digits -/

theorem toNat_of_isAlphanum {c : Char} (h : c.isAlphanum = true) :
    48 ≤ c.toNat ∧ c.toNat ≤ 122 := by
  have spelled : c.isAlphanum =
      (decide (c.val ≥ 65 ∧ c.val ≤ 90) || (c.val ≥ 97 && c.val ≤ 122) ||
        (c.val ≥ 48 && c.val ≤ 57)) :=
    rfl
  simp only [spelled, Bool.or_eq_true, Bool.and_eq_true, decide_eq_true_eq, ge_iff_le,
    UInt32.le_iff_toNat_le] at h
  rcases h with (⟨low, high⟩ | ⟨low, high⟩) | ⟨low, high⟩
  all_goals exact ⟨le_trans (by decide) low, le_trans high (by decide)⟩

/-! ### Triples -/

theorem value?_upperDigit {n : Nat} (h : n < 16) : Hex.value? (Hex.upperDigit n) = some n := by
  have all : ∀ n : Fin 16, Hex.value? (Hex.upperDigit n) = some n.val := by decide
  exact all ⟨n, h⟩

/-- A triple is read as its byte. -/
theorem decode_triple (b : UInt8) (rest : List Char) :
    decode (triple b ++ rest) = b :: decode rest := by
  have high : b.toNat / 16 < 16 := by
    have := b.toNat_lt
    omega
  have low : b.toNat % 16 < 16 := Nat.mod_lt _ (by decide)
  have byte : UInt8.ofNat (16 * (b.toNat / 16) + b.toNat % 16) = b := by
    rw [Nat.div_add_mod, UInt8.ofNat_toNat]
  rw [triple]
  simp only [List.cons_append, List.nil_append, decode, value?_upperDigit high,
    value?_upperDigit low, byte]

theorem decode_triples (bytes : Bytes) (rest : List Char) :
    decode (bytes.flatMap triple ++ rest) = bytes ++ decode rest := by
  induction bytes with
  | nil => rfl
  | cons b bytes ih =>
      rw [List.flatMap_cons, List.append_assoc, decode_triple, ih, List.cons_append]

/-- A character other than `%` is read as its own bytes. -/
theorem decode_cons {c : Char} (h : c ≠ '%') (rest : List Char) :
    decode (c :: rest) = String.utf8EncodeChar c ++ decode rest := by
  rw [decode.eq_def]
  split
  · next nothing => cases nothing
  · next same => exact absurd (List.cons.inj same).1 h
  · next same =>
    obtain ⟨rfl, rfl⟩ := List.cons.inj same
    rfl

/-! ### Reading what stands for itself -/

/-- A percent sign stands for itself, or for a byte with two digits. -/
theorem decode_percent (rest : List Char) :
    decode ('%' :: rest) = 0x25 :: decode rest ∨
      ∃ a b more x y, rest = a :: b :: more ∧ Hex.value? a = some x ∧ Hex.value? b = some y ∧
        decode ('%' :: rest) = UInt8.ofNat (16 * x + y) :: decode more := by
  match rest with
  | [] => exact .inl rfl
  | [a] => exact .inl rfl
  | a :: b :: more =>
      rw [decode]
      split
      · next x y first second => exact .inr ⟨a, b, more, x, y, rfl, first, second, rfl⟩
      · exact .inl rfl

/-- A character that is no digit begins anew, whatever stands in front of it. -/
theorem exists_decode_append {c : Char} (none : Hex.value? c = none) (rest : List Char) :
    ∀ front, ∃ bytes, decode (front ++ c :: rest) = bytes ++ decode (c :: rest) := by
  intro front
  induction n : front.length using Nat.strong_induction_on generalizing front with
  | _ n ih =>
      cases front with
      | nil => exact ⟨[], rfl⟩
      | cons d front =>
          simp only [List.length_cons] at n
          obtain ⟨bytes, later⟩ := ih front.length (by omega) front rfl
          by_cases percent : d = '%'
          · subst percent
            rcases decode_percent (front ++ c :: rest) with
              plain | ⟨a, b, more, x, y, same, first, second, taken⟩
            · exact ⟨0x25 :: bytes, by rw [List.cons_append, plain, later]; rfl⟩
            · match front, same with
              | [], same =>
                  obtain ⟨rfl, -⟩ := List.cons.inj same
                  rw [none] at first
                  cases first
              | [_], same =>
                  obtain ⟨-, same⟩ := List.cons.inj same
                  obtain ⟨rfl, -⟩ := List.cons.inj same
                  rw [none] at second
                  cases second
              | _ :: _ :: front, same =>
                  have same : front ++ c :: rest = more :=
                    (List.cons.inj (List.cons.inj same).2).2
                  simp only [List.length_cons] at n
                  obtain ⟨bytes, later⟩ := ih front.length (by omega) front rfl
                  exact ⟨_ :: bytes, by rw [List.cons_append, taken, ← same, later]; rfl⟩
          · refine ⟨String.utf8EncodeChar d ++ bytes, ?_⟩
            rw [List.cons_append, decode_cons percent, later, List.append_assoc]

theorem decode_append_plain {text : List Char} (plain : '%' ∉ text) (rest : List Char) :
    decode (text ++ rest) = Utf8.encode text ++ decode rest := by
  induction text with
  | nil => rfl
  | cons c text ih =>
      obtain ⟨other, plain⟩ : '%' ≠ c ∧ '%' ∉ text := by simpa using plain
      rw [List.cons_append, decode_cons other.symm, ih plain, Utf8.encode_cons, List.append_assoc]

/-! ### Segments -/

theorem encode_append (keep : Char → Bool) (a b : List Char) :
    encode keep (a ++ b) = encode keep a ++ encode keep b :=
  List.flatMap_append

theorem encode_eq_self {keep : Char → Bool} {text : List Char}
    (kept : ∀ c ∈ text, keep c = true) : encode keep text = text := by
  induction text with
  | nil => rfl
  | cons c text ih =>
      obtain ⟨here, kept⟩ := List.forall_mem_cons.mp kept
      have later := ih kept
      rw [encode] at later ⊢
      rw [List.flatMap_cons, if_pos here, later, List.singleton_append]

/-- What is encoded is read back, if no `%` stands for itself. -/
theorem decode_encode {keep : Char → Bool} (h : keep '%' = false) (text : List Char) :
    decode (encode keep text) = Utf8.encode text := by
  rw [encode]
  induction text with
  | nil => rfl
  | cons c text ih =>
      rw [List.flatMap_cons, Utf8.encode_cons]
      cases kept : keep c with
      | true =>
          have differs : c ≠ '%' := by
            rintro rfl
            exact absurd kept (by simp [h])
          rw [if_pos rfl, List.singleton_append, decode_cons differs, ih]
      | false => rw [if_neg Bool.false_ne_true, decode_triples, ih]

theorem decode_segment (text : String) : decode (segment text).toList = Utf8.bytes text := by
  rw [segment, String.toList_ofList, decode_encode (by decide), Utf8.bytes]

/-- Different texts have different segments. -/
theorem segment_inj {text other : String} : segment text = segment other ↔ text = other := by
  refine ⟨fun same => ?_, fun same => same ▸ rfl⟩
  have decoded := congrArg (fun s => decode s.toList) same
  simp only [decode_segment] at decoded
  exact Utf8.bytes_inj.mp decoded

theorem upperDigit_unreserved {n : Nat} (h : n < 16) :
    isUnreserved (Hex.upperDigit n) = true := by
  have all : ∀ n : Fin 16, isUnreserved (Hex.upperDigit n) = true := by decide
  exact all ⟨n, h⟩

/-- A segment is made of characters that stand for themselves, and of `%`. -/
theorem segment_plain (text : String) :
    ∀ c ∈ (segment text).toList, isUnreserved c = true ∨ c = '%' := by
  intro c mem
  rw [segment, String.toList_ofList, encode] at mem
  obtain ⟨d, -, mem⟩ := List.mem_flatMap.mp mem
  cases kept : isUnreserved d with
  | true =>
      rw [if_pos kept, List.mem_singleton] at mem
      exact .inl (mem ▸ kept)
  | false =>
      rw [kept, if_neg Bool.false_ne_true] at mem
      obtain ⟨b, -, mem⟩ := List.mem_flatMap.mp mem
      have high : b.toNat / 16 < 16 := by
        have := b.toNat_lt
        omega
      simp only [triple, List.mem_cons, List.not_mem_nil, or_false] at mem
      rcases mem with rfl | rfl | rfl
      · exact .inr rfl
      · exact .inl (upperDigit_unreserved high)
      · exact .inl (upperDigit_unreserved (Nat.mod_lt _ (by decide)))

end Deposit.Percent
