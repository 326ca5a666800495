import Deposit.Proofs.Text.Infix
import Deposit.Proofs.Text.Percent
import Deposit.Url.Parse

/-!
Words in addresses. The letters of a word mean nothing to an address but themselves (`IsWord`), so
a word that stands in the text of an address stands in one of its parts, encoded or not.
-/

namespace Deposit.Url

/-! ### Words -/

/-- The characters of words: they mean nothing to an address but themselves. -/
def wordCharacters : List Char := "abcdefghijklmnopqrstuvwxyz.".toList

/-- The first characters of words: no digits, and not the letter that marks a base. -/
def wordInitials : List Char := "ghijklmnopqrstuvw".toList

/-- A text that an address keeps together wherever it stands, longer than the name of any scheme of
the web. -/
structure IsWord (word : List Char) : Prop where
  plain : ∀ c ∈ word, c ∈ wordCharacters
  first : ∃ c rest, word = c :: rest ∧ c ∈ wordInitials
  long : 5 < word.length

variable {word : List Char}

/-- A class of characters that words have none of. -/
theorem IsWord.none (w : IsWord word) {p : Char → Bool} (none : wordCharacters.any p = false) :
    ∀ c ∈ word, p c = false :=
  fun c mem => eq_false_of_ne_true (List.any_eq_false.mp none c (w.plain c mem))

/-- A class of characters that all of a word are of. -/
theorem IsWord.all (w : IsWord word) {p : Char → Bool} (all : wordCharacters.all p = true) :
    ∀ c ∈ word, p c = true :=
  fun c mem => List.all_eq_true.mp all c (w.plain c mem)

theorem IsWord.absent (w : IsWord word) {c : Char} (other : c ∉ wordCharacters) : c ∉ word :=
  fun mem => other (w.plain c mem)

theorem IsWord.ne_nil (w : IsWord word) : word ≠ [] := by
  rintro rfl
  cases w.long

theorem infix_encode (w : IsWord word) {keep : Char → Bool} {text : List Char}
    (kept : wordCharacters.all keep = true) (stands : word <:+: text) :
    word <:+: Percent.encode keep text := by
  have same : Percent.encode keep word = word := by
    rw [Percent.encode, List.flatMap_congr (g := fun c => [c])
      fun c mem => if_pos (w.all kept c mem)]
    exact List.flatMap_singleton' _
  rw [← same]
  exact stands.flatMap _

theorem infix_cleaned (w : IsWord word) {text : String} (stands : word <:+: text.toList) :
    word <:+: cleaned text := by
  have kept : word.filter (fun c => !(c == '\t' || c == '\n' || c == '\r')) = word :=
    List.filter_eq_self.mpr (w.all (by decide))
  rw [cleaned, ← kept]
  exact (infix_trimBy (w.none (by decide)) stands).filter _

/-- A word stands in the text that a part of an address is read as. -/
theorem infix_decode (w : IsWord word) {text decoded : List Char}
    (read : Utf8.decode (Percent.decode text) = .ok decoded) (stands : word <:+: text) :
    word <:+: decoded := by
  obtain ⟨front, back, rfl⟩ := stands
  obtain ⟨c, rest, rfl, letter⟩ := w.first
  have digits : wordInitials.all (fun c => (Hex.value? c).isNone) = true := by decide
  have noDigit := Option.isNone_iff_eq_none.mp (List.all_eq_true.mp digits c letter)
  have ascii : wordCharacters.all (·.toNat < 0x80) = true := by decide
  have low := of_decide_eq_true (w.all ascii c List.mem_cons_self)
  have bytes := Utf8.decode_eq_ok_iff.mp read
  obtain ⟨before, apart⟩ := Percent.exists_decode_append noDigit (rest ++ back) front
  have whole : Percent.decode (c :: (rest ++ back)) =
      Utf8.encode (c :: rest) ++ Percent.decode back :=
    Percent.decode_append_plain (w.absent (by decide)) back
  have byte := Utf8.encodeChar_ascii low
  rw [List.append_assoc, List.cons_append, apart, whole] at bytes
  have lead : Utf8.encode decoded =
      before ++ UInt8.ofNat c.toNat :: (Utf8.encode rest ++ Percent.decode back) := by
    rw [← bytes, Utf8.encode_cons, byte]
    rfl
  obtain ⟨left, right, rfl, -, begins⟩ :=
    Utf8.exists_of_encode_eq low lead
  have same : Utf8.encode right = Utf8.encode (c :: rest) ++ Percent.decode back := by
    rw [begins, Utf8.encode_cons, byte]
    rfl
  obtain ⟨after, rfl, -⟩ := Utf8.exists_of_encode_eq_append same
  exact ⟨left, after, by rw [List.append_assoc]⟩

/-! ### Scheme, query and fragment -/

theorem length_of_isSpecial {scheme : String} (special : isSpecial scheme = true) :
    scheme.toList.length ≤ 5 := by
  simp only [isSpecial, defaultPort?, Bool.or_eq_true, beq_iff_eq] at special
  split_ifs at special with http https ftp
  · rcases http with rfl | rfl <;> decide
  · rcases https with rfl | rfl <;> decide
  · subst ftp
    decide
  · rcases special with none | rfl
    · cases none
    · decide

theorem scheme?_eq_some {text rest : List Char} {scheme : String}
    (read : scheme? text = some (scheme, rest)) :
    ∃ raw, text = raw ++ ':' :: rest ∧ raw.length = scheme.toList.length := by
  cases text with
  | nil => cases read
  | cons c more =>
      simp only [scheme?] at read
      split_ifs at read
      split at read
      · cases read
      · next raw rest' split =>
        split_ifs at read
        cases read
        exact ⟨raw, (Split.first?_eq_some_iff.mp split).1, by simp⟩

theorem suffix_of_scheme? {text rest : List Char} {scheme : String}
    (read : scheme? text = some (scheme, rest)) : rest <:+ text := by
  obtain ⟨raw, rfl, -⟩ := scheme?_eq_some read
  exact (List.suffix_cons ':' rest).trans (List.suffix_append raw _)

/-- A word stands behind the scheme, which is too short for it. -/
theorem infix_of_scheme? (w : IsWord word) {text rest : List Char} {scheme : String}
    (read : scheme? text = some (scheme, rest)) (special : isSpecial scheme = true)
    (stands : word <:+: text) : word <:+: rest := by
  obtain ⟨raw, rfl, same⟩ := scheme?_eq_some read
  rcases infix_append_cons (w.absent (by decide)) stands with short | behind
  · have length := length_of_isSpecial special
    have long := w.long
    have le := short.length_le
    omega
  · exact behind

/-- A text in front of a separator, and what stands behind it if there is one. -/
def splitOff (separator : Char) (text : List Char) : List Char × Option (List Char) :=
  match Split.first? separator text with
  | some (before, behind) => (before, some behind)
  | none => (text, none)

theorem infix_splitOff (w : IsWord word) (separator : Char) (other : separator ∉ wordCharacters)
    {text : List Char} (stands : word <:+: text) :
    word <:+: (splitOff separator text).1 ∨
      ∃ behind, (splitOff separator text).2 = some behind ∧ word <:+: behind := by
  unfold splitOff
  split
  · next before behind split =>
    obtain ⟨rfl, -⟩ := Split.first?_eq_some_iff.mp split
    exact (infix_append_cons (w.absent other) stands).imp_right fun there => ⟨behind, rfl, there⟩
  · exact .inl stands

theorem tail_eq (special : Bool) (text : List Char) :
    tail special text = ((splitOff '?' (splitOff '#' text).1).1,
      (splitOff '?' (splitOff '#' text).1).2.map fun q =>
        String.ofList (Percent.encode (inQuery special) q),
      (splitOff '#' text).2.map fun f => String.ofList (Percent.encode inFragment f)) :=
  rfl

theorem prefix_of_splitOff (separator : Char) (text : List Char) :
    (splitOff separator text).1 <+: text := by
  unfold splitOff
  split
  · next before behind split =>
    rw [(Split.first?_eq_some_iff.mp split).1]
    exact List.prefix_append _ _
  · exact List.prefix_rfl

theorem prefix_of_tail {special : Bool} {text front : List Char} {query fragment : Option String}
    (split : tail special text = (front, query, fragment)) : front <+: text := by
  rw [tail_eq] at split
  cases split
  exact (prefix_of_splitOff '?' _).trans (prefix_of_splitOff '#' _)

/-- A word behind the scheme stands in front of the query, in it or in the fragment. -/
theorem infix_tail (w : IsWord word) {special : Bool} {text front : List Char}
    {query fragment : Option String} (split : tail special text = (front, query, fragment))
    (stands : word <:+: text) :
    word <:+: front ∨ (∃ q, query = some q ∧ word <:+: q.toList) ∨
      ∃ f, fragment = some f ∧ word <:+: f.toList := by
  rw [tail_eq] at split
  cases split
  rcases infix_splitOff w '#' (by decide) stands with front | ⟨f, parts, stands⟩
  · rcases infix_splitOff w '?' (by decide) front with front | ⟨q, parts, stands⟩
    · exact .inl front
    · refine .inr (.inl ⟨_, congrArg _ parts, ?_⟩)
      rw [String.toList_ofList]
      exact infix_encode w (by cases special <;> decide) stands
  · refine .inr (.inr ⟨_, congrArg _ parts, ?_⟩)
    rw [String.toList_ofList]
    exact infix_encode w (by decide) stands

end Deposit.Url
