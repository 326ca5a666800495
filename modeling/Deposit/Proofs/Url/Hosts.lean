import Deposit.Proofs.Url.Words

/-!
Words in hosts. A numeric address has no place for a word (`IsWord.not_numeric`), and a domain whose
ASCII form has no marked label keeps the words in it (`infix_host`).
-/

namespace Deposit.Url

variable {word : List Char}

/-! ### Numeric addresses -/

/-- The characters of numeric addresses. -/
def isAddressCharacter (c : Char) : Bool :=
  (Hex.value? c).isSome || c == 'x' || c == 'X' || c == '.' || c == ':'

/-- Whether a text is made of the characters of numeric addresses. -/
def Numeric (text : List Char) : Prop := ∀ c ∈ text, isAddressCharacter c = true

/-- A text is numeric if its pieces are. -/
theorem numeric_of_pieces (separator : Char) (numeric : isAddressCharacter separator = true)
    {text : List Char} (pieces : ∀ piece ∈ Split.pieces separator text, Numeric piece) :
    Numeric text := by
  intro c mem
  rcases mem_pieces separator mem with rfl | ⟨piece, there, mem⟩
  · exact numeric
  · exact pieces piece there c mem

theorem Numeric.append {a b : List Char} (front : Numeric a) (back : Numeric b) :
    Numeric (a ++ b) :=
  fun c mem => (List.mem_append.mp mem).elim (front c) (back c)

/-- Words are not numeric. -/
theorem IsWord.not_numeric (w : IsWord word) {text : List Char} (stands : word <:+: text) :
    ¬ Numeric text := by
  intro numeric
  obtain ⟨c, rest, rfl, letter⟩ := w.first
  have none : wordInitials.any isAddressCharacter = false := by decide
  exact List.any_eq_false.mp none c letter (numeric c (stands.subset List.mem_cons_self))

theorem numeric_of_numeral? {base : Nat} {digits : List Char} : ∀ {n m : Nat},
    numeral? base n digits = some m → Numeric digits := by
  induction digits with
  | nil => exact fun _ _ mem => by cases mem
  | cons c rest ih =>
      intro n m read
      rw [numeral?] at read
      split at read
      · next d value =>
        split_ifs at read
        refine List.forall_mem_cons.mpr ⟨?_, ih read⟩
        simp [isAddressCharacter, value]
      · cases read

theorem numeric_of_ipv4Number? {label : List Char} {n : Nat} (read : ipv4Number? label = some n) :
    Numeric label := by
  unfold ipv4Number? at read
  split at read
  · cases read
  · exact List.forall_mem_cons.mpr ⟨rfl, List.forall_mem_cons.mpr ⟨rfl, numeric_of_numeral? read⟩⟩
  · exact List.forall_mem_cons.mpr ⟨rfl, List.forall_mem_cons.mpr ⟨rfl, numeric_of_numeral? read⟩⟩
  · exact List.forall_mem_cons.mpr ⟨rfl, numeric_of_numeral? read⟩
  · exact numeric_of_numeral? read

theorem numeric_of_ipv4? {domain : List Char} {n : Nat} (read : ipv4? domain = some n) :
    Numeric domain := by
  unfold ipv4? at read
  simp only at read
  split_ifs at read
  simp only [bind, Option.bind_eq_some_iff] at read
  obtain ⟨numbers, each, -⟩ := read
  refine numeric_of_pieces '.' rfl fun piece mem => ?_
  -- A piece that is no label is empty.
  by_cases label : piece ∈ labels domain
  · obtain ⟨n, -, value⟩ := exists_of_mapM each piece label
    exact numeric_of_ipv4Number? value
  · simp only [labels] at label
    split_ifs at label with empty
    · obtain ⟨front, last⟩ := List.getLast?_eq_some_iff.mp empty.2
      rw [last, List.dropLast_concat] at label
      rw [last] at mem
      rcases List.mem_append.mp mem with mem | mem
      · exact absurd mem label
      · rw [List.mem_singleton.mp mem]
        exact fun c none => by cases none
    · exact absurd mem label

theorem numeric_of_piece? {digits : List Char} {n : Nat} (read : piece? digits = some n) :
    Numeric digits := by
  unfold piece? at read
  split_ifs at read
  exact numeric_of_numeral? read

theorem numeric_of_plainByte? {digits : List Char} {n : Nat} (read : plainByte? digits = some n) :
    Numeric digits := by
  unfold plainByte? at read
  split_ifs at read
  split at read
  · next value => exact numeric_of_numeral? value
  · cases read

theorem numeric_of_ipv6Pieces? {parts : List (List Char)} : ∀ {pieces : List Nat},
    ipv6Pieces? parts = some pieces → ∀ part ∈ parts, Numeric part := by
  fun_induction ipv6Pieces? parts with
  | case1 => exact fun _ _ mem => by cases mem
  | case2 last _ a b c d bytes =>
      intro _ _ part mem
      rw [List.mem_singleton.mp mem]
      refine numeric_of_pieces '.' rfl fun piece there => ?_
      obtain ⟨n, -, value⟩ := exists_of_mapM bytes piece there
      exact numeric_of_plainByte? value
  | case3 => exact fun read => by cases read
  | case4 last =>
      intro _ read part mem
      obtain ⟨n, value, -⟩ := Option.map_eq_some_iff.mp read
      rw [List.mem_singleton.mp mem]
      exact numeric_of_piece? value
  | case5 digits rest _ n others value more ih =>
      intro _ _ part mem
      rcases List.mem_cons.mp mem with rfl | mem
      · exact numeric_of_piece? more
      · exact ih value part mem
  | case6 => exact fun read => by cases read

theorem numeric_of_ipv6Side? {side : List Char} {pieces : List Nat}
    (read : ipv6Side? side = some pieces) : Numeric side := by
  unfold ipv6Side? at read
  split_ifs at read with none
  · rw [List.isEmpty_iff.mp none]
    exact fun c mem => by cases mem
  · exact numeric_of_pieces ':' rfl (numeric_of_ipv6Pieces? read)

theorem atDoubleColon?_eq {text : List Char} : ∀ {before behind : List Char},
    atDoubleColon? text = some (before, behind) → text = before ++ ':' :: ':' :: behind := by
  fun_induction atDoubleColon? text with
  | case1 rest =>
      rintro _ _ ⟨⟩
      rfl
  | case2 => exact fun read => by cases read
  | case3 c rest _ ih =>
      intro before behind read
      obtain ⟨⟨before', behind'⟩, found, same⟩ := Option.map_eq_some_iff.mp read
      cases same
      rw [ih found]
      rfl

theorem numeric_of_ipv6? {text : List Char} {pieces : List Nat} (read : ipv6? text = some pieces) :
    Numeric text := by
  unfold ipv6? at read
  split at read
  · split at read
    · next value => exact numeric_of_pieces ':' rfl (numeric_of_ipv6Pieces? value)
    · cases read
  · next before behind split =>
    split_ifs at read
    split at read
    · next a b front back =>
      rw [atDoubleColon?_eq split]
      refine (numeric_of_ipv6Side? front).append ?_
      exact List.forall_mem_cons.mpr ⟨rfl, List.forall_mem_cons.mpr
        ⟨rfl, numeric_of_ipv6Side? back⟩⟩
    · cases read

/-! ### Domains -/

/-- The ASCII form of a label is the label, or is marked. -/
theorem asciiLabel?_eq {label form : List Char} (made : asciiLabel? label = some form) :
    form = label ∨ "xn--".toList <+: form := by
  unfold asciiLabel? at made
  split_ifs at made
  · split at made
    · cases made
      exact .inl rfl
    · split at made
      · cases made
      · simp only at made
        split_ifs at made
        cases made
        exact .inl rfl
  · cases made
    exact .inr (List.prefix_append _ _)

theorem mapInDomain_plain (w : IsWord word) : ∀ c ∈ word, mapInDomain c = some [c] := by
  have plain : wordCharacters.all (fun c => mapInDomain c == some [c]) = true := by decide
  exact fun c mem => beq_iff_eq.mp (w.all plain c mem)

/-- A word in a domain stands in its ASCII form, unless that has marked labels. -/
theorem infix_asciiDomain? (w : IsWord word) {domain ascii : List Char}
    (made : asciiDomain? domain = some ascii) (plain : ¬ "xn--".toList <:+: ascii)
    (stands : word <:+: domain) : word <:+: ascii := by
  unfold asciiDomain? at made
  simp only [bind, Option.bind_eq_some_iff] at made
  obtain ⟨mapped, each, labels, forms, made⟩ := made
  split_ifs at made
  cases made
  -- No label has changed, so the form is the text that the labels were split off.
  have same : labels = Split.pieces '.' mapped.flatten := by
    refine eq_of_mapM forms fun label _ form mem made => ?_
    rcases asciiLabel?_eq made with same | marked
    · exact same
    · exact absurd (marked.isInfix.trans (infix_intercalate mem)) plain
  rw [same, intercalate_pieces]
  exact infix_flatten_of_mapM each (mapInDomain_plain w) stands

/-- A word in the host of an address of the web stays there, unless the domain has to be marked. -/
theorem infix_host (w : IsWord word) {text : List Char} {host : Host}
    (read : Host.parse? text = some host) (plain : ¬ "xn--".toList <:+: host.text.toList)
    (stands : word <:+: text) : word <:+: host.text.toList := by
  unfold Host.parse? at read
  split at read
  · next rest =>
    split_ifs at read with closed
    obtain ⟨pieces, value, -⟩ := Option.map_eq_some_iff.mp read
    obtain ⟨inner, rfl⟩ := List.getLast?_eq_some_iff.mp closed
    rw [List.dropLast_concat] at value
    have inside := infix_of_cons (w.absent (by decide)) stands
    rcases infix_append_cons (w.absent (by decide)) inside with inner | nothing
    · exact absurd (numeric_of_ipv6? value) (w.not_numeric inner)
    · exact absurd (fun c none => by cases none) (w.not_numeric nothing)
  · split at read
    · cases read
    next decoded text' =>
    split at read
    · cases read
    · cases read
    next ascii _ made =>
    split_ifs at read with number
    · obtain ⟨n, value, -⟩ := Option.map_eq_some_iff.mp read
      have numeric := numeric_of_ipv4? value
      -- The mark of a label is not numeric either.
      have unmarked : ¬ "xn--".toList <:+: ascii := fun marked =>
        absurd (numeric 'n' (marked.subset (by decide))) (by decide)
      have inside := infix_asciiDomain? w made unmarked (infix_decode w text' stands)
      exact absurd numeric (w.not_numeric inside)
    · cases read
      have text : (Host.domain (String.ofList ascii)).text.toList = ascii := String.toList_ofList
      rw [text] at plain ⊢
      exact infix_asciiDomain? w made plain (infix_decode w text' stands)

end Deposit.Url
