import Deposit.Json.Parse
import Deposit.Proofs.Text.Utf8
import Mathlib.Data.List.Basic

/-!
Reading a number: what stands behind it makes no difference, unless the number goes on into it
(`number_eq_ok_iff`).

Each part of the reader gives the same with more bytes behind (`number_append`), and takes no bytes
but the ones that numbers are made of (`takes_number`).
-/

namespace Deposit.Json

/-! ### What numbers are made of -/

/-- The bytes of numbers: digits, the point, the mark of an exponent and the signs. -/
def isNumeric (b : UInt8) : Bool :=
  isDigit b || b == 0x2E || isExponentMark b || b == 0x2B || b == 0x2D

/-- A rest that no number goes on into. -/
def Apart (rest : Bytes) : Prop := ∀ b ∈ rest.head?, isNumeric b = false

theorem Apart.cases {rest : Bytes} (apart : Apart rest) :
    rest = [] ∨ ∃ b more, rest = b :: more ∧ isDigit b = false ∧ (b == 0x2E) = false ∧
      isExponentMark b = false ∧ (b == 0x2B) = false ∧ (b == 0x2D) = false := by
  cases rest with
  | nil => exact .inl rfl
  | cons b more =>
      have none := apart b rfl
      simp only [isNumeric, Bool.or_eq_false_iff] at none
      obtain ⟨⟨⟨⟨digit, point⟩, mark⟩, plus⟩, minus⟩ := none
      exact .inr ⟨b, more, rfl, digit, point, mark, plus, minus⟩

theorem Apart.nextIs {rest : Bytes} (apart : Apart rest) : nextIs isDigit rest = false := by
  rcases apart.cases with rfl | ⟨b, more, rfl, digit, -⟩
  · rfl
  · exact digit

/-- A reading with more bytes behind its rest. -/
def behind {α : Type} (more : Bytes) (reading : Reading α) : Option (α × Bytes) :=
  reading.toOption.map fun (a, rest) => (a, rest ++ more)

variable {more : Bytes}

theorem toOption_eq_some_iff {ε α : Type} {reading : Except ε α} {a : α} :
    reading.toOption = some a ↔ reading = .ok a := by
  cases reading <;> simp [Except.toOption]

/-! ### More bytes behind -/

theorem digits_append (apart : Apart more) (s : Bytes) : ∀ n count : Nat,
    digits n count (s ++ more) =
      ((digits n count s).1, (digits n count s).2.1, (digits n count s).2.2 ++ more) := by
  induction s with
  | nil =>
      intro n count
      rcases apart.cases with rfl | ⟨b, more, rfl, digit, -⟩
      · rfl
      · simp [digits, digit]
  | cons b rest ih =>
      intro n count
      simp only [List.cons_append, digits]
      split
      · split
        · exact ih _ _
        · rfl
      · rfl

theorem dropWhile_append (apart : Apart more) (s : Bytes) :
    (s ++ more).dropWhile isDigit = s.dropWhile isDigit ++ more := by
  induction s with
  | nil =>
      rcases apart.cases with rfl | ⟨b, more, rfl, digit, -⟩
      · rfl
      · simp [digit]
  | cons b rest ih =>
      rw [List.cons_append, List.dropWhile_cons, List.dropWhile_cons]
      split
      · exact ih
      · rfl

theorem nextIs_append (apart : Apart more) (s : Bytes) :
    nextIs isDigit (s ++ more) = nextIs isDigit s := by
  cases s with
  | nil => exact apart.nextIs
  | cons b rest => rfl

theorem exponentDigits_append (apart : Apart more) (s : Bytes) : ∀ n : Nat,
    exponentDigits n (s ++ more) =
      ((exponentDigits n s).1.mapError (· ++ more), (exponentDigits n s).2 ++ more) := by
  induction s with
  | nil =>
      intro n
      rcases apart.cases with rfl | ⟨b, more, rfl, digit, -⟩
      · rfl
      · simp [exponentDigits, digit, Except.mapError]
  | cons b rest ih =>
      intro n
      simp only [List.cons_append, exponentDigits]
      split
      · split
        · exact ih _
        · rw [dropWhile_append apart]
          rfl
      · rfl

theorem fraction_append (negative : Bool) (n : Nat) (exponent : Int) (s : Bytes) :
    (fraction negative n exponent (s ++ more)).toOption =
      behind more (fraction negative n exponent s) := by
  unfold fraction
  split <;> rfl

/-- Reads an exponent behind its sign. -/
def exponentValue (negative : Bool) (n : Nat) (start : Int) (down : Bool) :
    Bytes → Reading Number
  | [] => stop .endInValue []
  | b :: rest =>
    if isDigit b then
      match exponentDigits (b.toNat - 0x30) rest with
      | (.ok e, rest) => fraction negative n (if down then start - e else start + e) rest
      | (.error behind, rest) =>
        if n != 0 && !down then stop .numberOutOfRange behind
        else .ok (.float (if negative then Binary64.zero.neg else .zero), rest)
    else stop .invalidNumber rest

theorem exponentPart_eq (negative : Bool) (n : Nat) (start : Int) (s : Bytes) :
    exponentPart negative n start s =
      match s with
      | [] => exponentValue negative n start false []
      | b :: rest =>
        if b == 0x2B then exponentValue negative n start false rest
        else if b == 0x2D then exponentValue negative n start true rest
        else exponentValue negative n start false (b :: rest) := by
  unfold exponentPart
  cases s with
  | nil => rfl
  | cons b rest =>
      by_cases plus : b == 0x2B
      · simp only [plus, if_true]
        cases rest <;> rfl
      · by_cases minus : b == 0x2D
        · simp only [plus, minus, if_true, if_false, Bool.false_eq_true]
          cases rest <;> rfl
        · simp only [plus, minus, if_false, Bool.false_eq_true]
          rfl

theorem exponentValue_append (apart : Apart more) (negative : Bool) (n : Nat) (start : Int)
    (down : Bool) (s : Bytes) :
    (exponentValue negative n start down (s ++ more)).toOption =
      behind more (exponentValue negative n start down s) := by
  cases s with
  | nil =>
      rcases apart.cases with rfl | ⟨b, more, rfl, digit, -⟩
      · rfl
      · simp only [List.nil_append, exponentValue, digit, Bool.false_eq_true, if_false]
        rfl
  | cons b rest =>
      simp only [List.cons_append, exponentValue, exponentDigits_append apart]
      split
      · cases read : exponentDigits (b.toNat - 0x30) rest with
        | mk value rest =>
            cases value with
            | ok e => exact fraction_append _ _ _ _
            | error behind =>
                simp only [Except.mapError]
                split <;> rfl
      · rfl

theorem exponentPart_append (apart : Apart more) (negative : Bool) (n : Nat) (start : Int)
    (s : Bytes) :
    (exponentPart negative n start (s ++ more)).toOption =
      behind more (exponentPart negative n start s) := by
  rw [exponentPart_eq, exponentPart_eq]
  cases s with
  | nil =>
      have none := exponentValue_append apart negative n start false []
      rcases apart.cases with rfl | ⟨b, more, rfl, digit, -, -, plus, minus⟩
      · exact none
      · simpa [plus, minus] using none
  | cons b rest =>
      simp only [List.cons_append]
      split_ifs
      · exact exponentValue_append apart _ _ _ _ _
      · exact exponentValue_append apart _ _ _ _ _
      · exact exponentValue_append apart negative n start false (b :: rest)

theorem afterFraction_append (apart : Apart more) (negative : Bool) (n : Nat) (exponent : Int)
    (s : Bytes) :
    (afterFraction negative n exponent (s ++ more)).toOption =
      behind more (afterFraction negative n exponent s) := by
  cases s with
  | nil =>
      have whole := @fraction_append more negative n exponent []
      rcases apart.cases with rfl | ⟨b, more, rfl, -, -, mark, -⟩
      · exact whole
      · simpa [afterFraction, mark] using whole
  | cons b rest =>
      simp only [List.cons_append, afterFraction]
      split_ifs
      · exact exponentPart_append apart _ _ _ _
      · exact fraction_append negative n exponent (b :: rest)

theorem fractionPart_append (apart : Apart more) (negative : Bool) (n : Nat) (start : Int)
    (s : Bytes) :
    (fractionPart negative n start (s ++ more)).toOption =
      behind more (fractionPart negative n start s) := by
  simp only [fractionPart, digits_append apart, nextIs_append apart, dropWhile_append apart]
  split_ifs
  · exact afterFraction_append apart _ _ _ _
  all_goals first | rfl | exact afterFraction_append apart _ _ _ _

/-- A number that has neither a fraction nor an exponent. -/
def plain (negative : Bool) (n start : Nat) (s : Bytes) : Reading Number :=
  if start ≠ 0 then fraction negative n start s
  else if negative then
    if n = 0 ∨ Nat.pow 2 63 < n then fraction true n 0 s else .ok (.int (-n), s)
  else .ok (.int n, s)

theorem afterWhole_eq (negative : Bool) (n start : Nat) (s : Bytes) :
    afterWhole negative n start s =
      match s with
      | [] => plain negative n start []
      | b :: rest =>
        if b == 0x2E then fractionPart negative n start rest
        else if isExponentMark b then exponentPart negative n start rest
        else plain negative n start (b :: rest) := by
  cases s <;> rfl

theorem plain_append (negative : Bool) (n start : Nat) (s : Bytes) :
    (plain negative n start (s ++ more)).toOption = behind more (plain negative n start s) := by
  unfold plain
  split_ifs
  · exact fraction_append _ _ _ _
  · exact fraction_append _ _ _ _
  · rfl
  · rfl

theorem afterWhole_append (apart : Apart more) (negative : Bool) (n start : Nat) (s : Bytes) :
    (afterWhole negative n start (s ++ more)).toOption =
      behind more (afterWhole negative n start s) := by
  rw [afterWhole_eq, afterWhole_eq]
  cases s with
  | nil =>
      have whole := @plain_append more negative n start []
      rcases apart.cases with rfl | ⟨b, more, rfl, -, point, mark, -⟩
      · exact whole
      · simpa [point, mark] using whole
  | cons b rest =>
      simp only [List.cons_append]
      split_ifs
      · exact fractionPart_append apart _ _ _ _
      · exact exponentPart_append apart _ _ _ _
      · exact plain_append negative n start (b :: rest)

/-- A number is read the same whatever stands behind it. -/
theorem number_append (apart : Apart more) (negative : Bool) (s : Bytes) :
    (number negative (s ++ more)).toOption = behind more (number negative s) := by
  cases s with
  | nil =>
      rcases apart.cases with rfl | ⟨b, more, rfl, digit, -⟩
      · rfl
      · have zero : (b == 0x30) = false := by
          refine beq_eq_false_iff_ne.mpr ?_
          rintro rfl
          cases digit
        simp only [List.nil_append, number, zero, digit, Bool.false_eq_true, if_false]
        rfl
  | cons b rest =>
      simp only [List.cons_append, number, digits_append apart, nextIs_append apart,
        dropWhile_append apart, List.length_append, Nat.add_sub_add_right]
      split_ifs
      · rfl
      · exact afterWhole_append apart _ _ _ _
      · exact afterWhole_append apart _ _ _ _
      · exact afterWhole_append apart _ _ _ _
      · rfl

/-! ### What a number takes -/

/-- The bytes in front of a rest, if they are the ones of numbers. -/
def Takes (s rest : Bytes) : Prop := ∃ taken, s = taken ++ rest ∧ ∀ b ∈ taken, isNumeric b = true

theorem Takes.refl (s : Bytes) : Takes s s := ⟨[], rfl, by simp⟩

theorem Takes.cons {b : UInt8} {s rest : Bytes} (numeric : isNumeric b = true)
    (takes : Takes s rest) : Takes (b :: s) rest := by
  obtain ⟨taken, rfl, all⟩ := takes
  exact ⟨b :: taken, rfl, List.forall_mem_cons.mpr ⟨numeric, all⟩⟩

theorem Takes.trans {s mid rest : Bytes} (first : Takes s mid) (second : Takes mid rest) :
    Takes s rest := by
  obtain ⟨taken, rfl, all⟩ := first
  obtain ⟨taken', rfl, all'⟩ := second
  refine ⟨taken ++ taken', by rw [List.append_assoc], fun b mem => ?_⟩
  exact (List.mem_append.mp mem).elim (all b) (all' b)

theorem isNumeric_of_isDigit {b : UInt8} (digit : isDigit b = true) : isNumeric b = true := by
  simp [isNumeric, digit]

theorem takes_digits (s : Bytes) : ∀ n count : Nat, Takes s (digits n count s).2.2 := by
  induction s with
  | nil => exact fun _ _ => .refl []
  | cons b rest ih =>
      intro n count
      simp only [digits]
      split_ifs with digit
      · exact (ih _ _).cons (isNumeric_of_isDigit digit)
      · exact .refl _
      · exact .refl _

theorem takes_dropWhile (s : Bytes) : Takes s (s.dropWhile isDigit) := by
  induction s with
  | nil => exact .refl []
  | cons b rest ih =>
      rw [List.dropWhile_cons]
      split_ifs with digit
      · exact ih.cons (isNumeric_of_isDigit digit)
      · exact .refl _

theorem takes_exponentDigits (s : Bytes) : ∀ n : Nat, Takes s (exponentDigits n s).2 := by
  induction s with
  | nil => exact fun _ => .refl []
  | cons b rest ih =>
      intro n
      simp only [exponentDigits]
      split_ifs with digit
      · exact (ih _).cons (isNumeric_of_isDigit digit)
      · exact (takes_dropWhile rest).cons (isNumeric_of_isDigit digit)
      · exact .refl _

variable {negative : Bool} {n : Nat} {s rest : Bytes} {x : Number}

theorem fraction_rest {exponent : Int} (read : fraction negative n exponent s = .ok (x, rest)) :
    s = rest := by
  unfold fraction at read
  split at read
  · exact (Prod.mk.inj (Except.ok.inj read)).2
  · cases read

theorem takes_exponentValue {start : Int} {down : Bool}
    (read : exponentValue negative n start down s = .ok (x, rest)) : Takes s rest := by
  cases s with
  | nil => cases read
  | cons b more =>
      rw [exponentValue] at read
      by_cases digit : isDigit b = true
      · rw [if_pos digit] at read
        have takes := takes_exponentDigits more (b.toNat - 0x30)
        refine .cons (isNumeric_of_isDigit digit) ?_
        split at read
        · next e behind value =>
          rw [value] at takes
          exact fraction_rest read ▸ takes
        · next problem behind value =>
          rw [value] at takes
          by_cases range : (n != 0 && !down) = true
          · rw [if_pos range] at read
            cases read
          · rw [if_neg range] at read
            exact (Prod.mk.inj (Except.ok.inj read)).2 ▸ takes
      · rw [if_neg digit] at read
        cases read

theorem takes_exponentPart {start : Int}
    (read : exponentPart negative n start s = .ok (x, rest)) : Takes s rest := by
  rw [exponentPart_eq] at read
  cases s with
  | nil => cases read
  | cons b more =>
      simp only at read
      split_ifs at read with plus minus
      · exact (takes_exponentValue read).cons (by simp [isNumeric, plus])
      · exact (takes_exponentValue read).cons (by simp [isNumeric, minus])
      · exact takes_exponentValue read

theorem takes_afterFraction {exponent : Int}
    (read : afterFraction negative n exponent s = .ok (x, rest)) : Takes s rest := by
  cases s with
  | nil => exact fraction_rest read ▸ .refl _
  | cons b more =>
      simp only [afterFraction] at read
      split_ifs at read with mark
      · exact (takes_exponentPart read).cons (by simp [isNumeric, mark])
      · exact fraction_rest read ▸ .refl _

theorem takes_fractionPart {start : Int}
    (read : fractionPart negative n start s = .ok (x, rest)) : Takes s rest := by
  simp only [fractionPart] at read
  have takes := takes_digits s n 0
  split_ifs at read
  · exact (takes.trans (takes_dropWhile _)).trans (takes_afterFraction read)
  · cases read
  · cases read
  · exact takes.trans (takes_afterFraction read)

theorem plain_rest {start : Nat} (read : plain negative n start s = .ok (x, rest)) : s = rest := by
  unfold plain at read
  split_ifs at read
  · exact fraction_rest read
  · exact fraction_rest read
  · exact (Prod.mk.inj (Except.ok.inj read)).2
  · exact (Prod.mk.inj (Except.ok.inj read)).2

theorem takes_afterWhole {start : Nat} (read : afterWhole negative n start s = .ok (x, rest)) :
    Takes s rest := by
  rw [afterWhole_eq] at read
  cases s with
  | nil => exact plain_rest read ▸ .refl _
  | cons b more =>
      simp only at read
      split_ifs at read with point mark
      · exact (takes_fractionPart read).cons (by simp [isNumeric, point])
      · exact (takes_exponentPart read).cons (by simp [isNumeric, mark])
      · exact plain_rest read ▸ .refl _

theorem takes_number (read : number negative s = .ok (x, rest)) : Takes s rest := by
  cases s with
  | nil => cases read
  | cons b more =>
      simp only [number] at read
      have takes := takes_digits more (b.toNat - 0x30) 0
      split_ifs at read with zero digit digit
      · cases read
      · exact (takes_afterWhole read).cons (by rw [beq_iff_eq.mp zero]; rfl)
      · have digits := takes.trans (takes_dropWhile _)
        exact (digits.trans (takes_afterWhole read)).cons (isNumeric_of_isDigit digit)
      · exact (takes.trans (takes_afterWhole read)).cons (isNumeric_of_isDigit digit)
      · cases read

theorem isNumeric_lt {b : UInt8} (numeric : isNumeric b = true) : b.toNat < 0x80 := by
  simp only [isNumeric, isDigit, isExponentMark, Bool.or_eq_true, Bool.and_eq_true,
    decide_eq_true_eq, beq_iff_eq, UInt8.le_iff_toNat_le, ← UInt8.toNat_inj,
    UInt8.reduceToNat] at numeric
  omega

/-- A number in front of bytes that no number goes on into is read as it is read alone. -/
theorem number_eq_ok_iff (apart : Apart rest) :
    number negative s = .ok (x, rest) ↔
      ∃ text, number negative (Utf8.encode text) = .ok (x, []) ∧ s = Utf8.encode text ++ rest := by
  constructor
  · intro read
    obtain ⟨taken, rfl, all⟩ := takes_number read
    have append := number_append apart negative taken
    rw [read] at append
    obtain ⟨⟨x', rest'⟩, alone, same⟩ := Option.map_eq_some_iff.mp append.symm
    obtain ⟨rfl, none⟩ := Prod.mk.inj same
    obtain rfl : rest' = [] := List.append_left_eq_self.mp none
    refine ⟨_, ?_, by rw [Utf8.encode_map_ofNat fun b mem => isNumeric_lt (all b mem)]⟩
    rw [Utf8.encode_map_ofNat fun b mem => isNumeric_lt (all b mem)]
    exact toOption_eq_some_iff.mp alone
  · rintro ⟨text, read, rfl⟩
    have append := number_append apart negative (Utf8.encode text)
    rw [read] at append
    exact toOption_eq_some_iff.mp append

end Deposit.Json
