import Deposit.Proofs.Url.Composition
import Deposit.Proofs.Url.Segments

/-!
The margins of addresses, and what becomes of them when something is put behind.

Controls and spaces at the end of an address do not count, but behind them a path does. Then they
are in the midst of an address: no host and no port ends in one (`authority?_margin`), and in a path
one is written in its code, which makes another path (`length_pathBehind_lt`).
-/

namespace Deposit.Url

/-! ### Cleaned texts -/

/-- The characters that count of a text that goes on. -/
def cleanedFront (text : List Char) : List Char := (text.dropWhile isMargin).filter counts

/-- The characters that count among those cut off at the end of a text. -/
def trailing (text : String) : List Char :=
  (text.toList.reverse.takeWhile isMargin).reverse.filter counts

theorem margin_of_trailing (text : String) : ∀ c ∈ trailing text, isMargin c = true := by
  intro c mem
  have cut := List.mem_reverse.mp (List.mem_of_mem_filter mem)
  exact List.mem_takeWhile_imp cut

theorem mem_of_cleaned {text : String} {c : Char} (mem : c ∈ cleaned text) : c ∈ text.toList := by
  have trimmed := List.mem_reverse.mp (List.mem_of_mem_filter mem)
  have dropped := (List.dropWhile_sublist isMargin).subset trimmed
  exact (List.dropWhile_sublist isMargin).subset (List.mem_reverse.mp dropped)

/-- When a text goes on, what was cut off at its end counts again. -/
theorem cleanedFront_toList {text : String} (left : cleaned text ≠ []) :
    cleanedFront text.toList = cleaned text ++ trailing text := by
  have some : Blank.trimBy isMargin text.toList ≠ [] := by
    intro none
    rw [cleaned_eq, none] at left
    exact left rfl
  rw [cleanedFront, ← Blank.trimBy_append_reverse some, List.filter_append, cleaned_eq, trailing]

/-- What is put behind a text counts, if it has no margins. -/
theorem cleaned_append (text : List Char) {behind : List Char} (ne : behind ≠ [])
    (inner : ∀ c ∈ behind, isMargin c = false) :
    cleaned (String.ofList (text ++ behind)) = cleanedFront text ++ behind := by
  rw [cleaned_eq, String.toList_ofList, Blank.trimBy_append_of_not ne inner, List.filter_append,
    filter_counts inner, cleanedFront]

theorem cleanedFront_append (text : List Char) {behind : List Char}
    (inner : ∀ c ∈ behind, isMargin c = false) :
    cleanedFront (text ++ behind) = cleanedFront text ++ behind := by
  cases behind with
  | nil => rw [List.append_nil, List.append_nil]
  | cons c rest =>
      rw [cleanedFront, Blank.dropWhile_append_cons (inner c List.mem_cons_self),
        List.filter_append, filter_counts inner, cleanedFront]

/-! ### Margins in authorities -/

theorem lt_of_margin {c : Char} (margin : isMargin c = true) : c.toNat < 128 := by
  rw [isMargin, decide_eq_true_eq] at margin
  omega

theorem margin_character {c : Char} (margin : isMargin c = true) :
    endsAuthority true c = false ∧ Hex.value? c = none ∧ isForbiddenInDomain c = true ∧
      mapInDomain c = some [c] ∧ inPath c = false ∧ c ∉ ":@[]%./\\".toList :=
  forall_ascii (p := fun c => isMargin c = true →
    endsAuthority true c = false ∧ Hex.value? c = none ∧ isForbiddenInDomain c = true ∧
      mapInDomain c = some [c] ∧ inPath c = false ∧ c ∉ ":@[]%./\\".toList)
    (by decide +kernel) (lt_of_margin margin) margin

/-- What is placed stays in front. -/
theorem output_place (m base : Nat) (label : List Char) :
    ∀ p : Punycode.Progress, p.output <+: (Punycode.place m base label p).output := by
  induction label with
  | nil => exact fun p => List.prefix_rfl
  | cons c rest ih =>
      intro p
      rw [Punycode.place]
      split_ifs
      · exact ih { p with delta := p.delta + 1 }
      · refine (List.prefix_append _ _).trans (ih ⟨_, _, _, _⟩)
      · exact ih p

theorem output_placeAll (label : List Char) (base : Nat) (others : List Nat) :
    ∀ (next : Nat) (p : Punycode.Progress),
      p.output <+: (Punycode.placeAll label base next others p).output := by
  induction others with
  | nil => exact fun _ _ => List.prefix_rfl
  | cons m rest ih =>
      intro next p
      rw [Punycode.placeAll]
      refine List.IsPrefix.trans ?_ (ih (m + 1) _)
      exact output_place m base label { p with delta := p.delta + (m - next) * (p.placed + 1) }

/-- The ASCII characters of a label stand in its ASCII form. -/
theorem mem_asciiLabel? {label form : List Char} (made : asciiLabel? label = some form) {c : Char}
    (low : c.toNat < 0x80) (mem : c ∈ label) : c ∈ form := by
  have basic : c ∈ label.filter fun c => c.toNat < 0x80 := by simp [mem, low]
  have start : c ∈ Punycode.encode label := by
    refine (output_placeAll _ _ _ _ _).subset ?_
    rw [if_neg (by simpa using ⟨c, mem, low⟩)]
    exact List.mem_append_left _ basic
  unfold asciiLabel? at made
  split_ifs at made
  · split at made
    · cases made
      exact mem
    · split at made
      · cases made
      · simp only at made
        split_ifs at made
        cases made
        exact mem
  · cases made
    exact List.mem_append_right _ start

/-- A margin in a domain stays there, where it is forbidden. -/
theorem asciiDomain?_margin {domain : List Char} {c : Char} (margin : isMargin c = true)
    (mem : c ∈ domain) : asciiDomain? domain = none := by
  obtain ⟨-, -, forbidden, kept, -, other⟩ := margin_character margin
  rw [← Option.not_isSome_iff_eq_none]
  intro some
  obtain ⟨ascii, made⟩ := Option.isSome_iff_exists.mp some
  unfold asciiDomain? at made
  simp only [bind, Option.bind_eq_some_iff] at made
  obtain ⟨mapped, each, labels, forms, made⟩ := made
  have stands : [c] <:+: mapped.flatten :=
    infix_flatten_of_mapM each (by simpa using kept) ((List.singleton_infix_iff c domain).mpr mem)
  obtain ⟨label, there, inside⟩ : ∃ label ∈ Split.pieces '.' mapped.flatten, c ∈ label := by
    refine (mem_pieces '.' ((List.singleton_infix_iff c _).mp stands)).resolve_left ?_
    rintro rfl
    exact other (by decide)
  obtain ⟨form, among, written⟩ := exists_of_mapM forms label there
  have left : c ∈ List.intercalate ['.'] labels :=
    (infix_intercalate among).subset (mem_asciiLabel? written (lt_of_margin margin) inside)
  rw [if_pos (List.any_eq_true.mpr ⟨c, left, forbidden⟩)] at made
  cases made

/-- No host ends in a margin. -/
theorem parse?_margin {c : Char} (margin : isMargin c = true) (name : List Char) :
    Host.parse? (name ++ [c]) = none := by
  obtain ⟨-, value, -, -, -, other⟩ := margin_character margin
  have low := lt_of_margin margin
  obtain ⟨bracket, percent⟩ : c ≠ ']' ∧ c ≠ '%' := by
    constructor
    all_goals
      rintro rfl
      exact other (by decide)
  unfold Host.parse?
  split
  · next rest opened =>
    have last : rest.getLast? ≠ some ']' := by
      intro closed
      have ends := congrArg List.getLast? opened
      rw [List.getLast?_concat, List.getLast?_cons, closed] at ends
      exact bracket (Option.some.inj ends)
    rw [if_neg last]
  · split
    · rfl
    next decoded read =>
    -- The byte of the margin is not taken for a digit, nor for a part of another character.
    obtain ⟨bytes, apart⟩ := Percent.exists_decode_append value [] name
    rw [Percent.decode_cons percent, Utf8.encodeChar_ascii low, Utf8.decode_eq_ok_iff.mp read]
      at apart
    obtain ⟨before, after, rfl, -, start⟩ := Utf8.exists_of_encode_eq low apart
    have same : Utf8.encode after = Utf8.encode [c] := by
      rw [start, Utf8.encode_cons, Utf8.encodeChar_ascii low]
      rfl
    rw [asciiDomain?_margin margin (List.mem_append_right before
      (Utf8.encode_inj.mp same ▸ List.mem_cons_self))]

theorem numeral?_append {c : Char} (none : Hex.value? c = none) (base : Nat) (digits : List Char) :
    ∀ n, numeral? base n (digits ++ [c]) = .none := by
  induction digits with
  | nil =>
      intro n
      rw [List.nil_append, numeral?, none]
  | cons d rest ih =>
      intro n
      rw [List.cons_append, numeral?]
      cases Hex.value? d with
      | none => rfl
      | some value =>
          simp only [ih]
          exact ite_self _

/-- No authority ends in a margin. -/
theorem authority?_margin {c : Char} (margin : isMargin c = true) (scheme : String)
    (text : List Char) : authority? scheme (text ++ [c]) = none := by
  obtain ⟨-, value, -, -, -, other⟩ := margin_character margin
  unfold authority?
  cases users : userAndHost (text ++ [c]) with | mk user hostAndPort
  cases ports : atPort false hostAndPort with | mk name port
  have whole := atPort_eq hostAndPort false
  have within := userAndHost_suffix users
  rw [whole, ports] at within
  simp only [ports]
  cases port with
  | none =>
      rw [Option.elim_none, List.append_nil, List.suffix_concat_iff] at within
      rcases within with rfl | ⟨front, rfl, -⟩
      · rw [parse?_nil, Option.bind_none]
      · rw [parse?_margin margin, Option.bind_none]
  | some digits =>
      have last := (List.suffix_append name _).trans within
      rw [Option.elim_some, List.suffix_concat_iff] at last
      obtain ⟨front, made, -⟩ := last.resolve_left (List.cons_ne_nil _ _)
      cases front with
      | nil =>
          obtain ⟨rfl, -⟩ := List.cons.inj made
          exact absurd (by decide) other
      | cons d front =>
          have digits_eq : digits = front ++ [c] := (List.cons.inj made).2
          rw [Option.getD_some, digits_eq, port?, numeral?_append value]
          exact Option.bind_eq_none_iff.mpr fun _ _ => rfl

/-! ### Margins in paths -/

/-- The code of a margin is no end of a dot. -/
theorem encode_margin {c : Char} (margin : isMargin c = true) :
    (Percent.encode inPath [c]).length = 3 ∧
      ¬ ['.'] <:+ (Percent.encode inPath [c]).map Char.toLower ∧
      ¬ ['%', '2', 'e'] <:+ (Percent.encode inPath [c]).map Char.toLower :=
  forall_ascii (p := fun c => isMargin c = true →
    (Percent.encode inPath [c]).length = 3 ∧
      ¬ ['.'] <:+ (Percent.encode inPath [c]).map Char.toLower ∧
      ¬ ['%', '2', 'e'] <:+ (Percent.encode inPath [c]).map Char.toLower)
    (by decide +kernel) (lt_of_margin margin) margin

theorem not_isDot_margin {c : Char} (margin : isMargin c = true) {segment : String}
    {front : List Char} (made : segment.toList = front ++ Percent.encode inPath [c]) :
    isDot segment = false := by
  obtain ⟨three, stop, code⟩ := encode_margin margin
  have ends {mark : List Char} (short : mark.length ≤ 3)
      (suffix : mark <:+ (Lowercase.ascii segment).toList) :
      mark <:+ (Percent.encode inPath [c]).map Char.toLower := by
    rw [Lowercase.ascii, String.toList_ofList, made, List.map_append] at suffix
    refine List.suffix_of_suffix_length_le suffix (List.suffix_append _ _) ?_
    rwa [List.length_map, three]
  rw [← Bool.not_eq_true]
  intro dot
  rcases suffix_of_isDot dot with suffix | suffix
  · exact stop (ends (by decide) suffix)
  · exact code (ends (by decide) suffix)

theorem length_text_append (a b : List String) :
    (Path.segments (a ++ b)).text.toList.length =
      (Path.segments a).text.toList.length + (Path.segments b).text.toList.length := by
  rw [toList_segments, toList_segments, toList_segments, List.flatMap_append, List.length_append]

theorem length_text_singleton (s : String) :
    (Path.segments [s]).text.toList.length = s.toList.length + 1 := by
  rw [toList_segments, List.flatMap_cons, List.flatMap_nil, List.append_nil, List.length_cons]

/-- A last segment makes a path longer by itself, at most. -/
theorem length_resolve_le (segments : List String) (s : String) :
    (Path.segments (resolve false [] (segments ++ [s]))).text.toList.length ≤
      (Path.segments (settle [] segments)).text.toList.length + s.toList.length + 1 := by
  have shorter (done : List String) : (Path.segments done.dropLast).text.toList.length ≤
      (Path.segments done).text.toList.length := by
    rw [toList_segments, toList_segments]
    exact ((List.dropLast_prefix done).flatMap _).length_le
  have slash : (Path.segments [""]).text.toList.length = 1 := by decide
  rw [resolve_concat, isDot, settle]
  cases double : isDoubleDot s with
  | true =>
      have up := shorter (settle [] segments)
      simp only [if_true, Bool.true_or, settle, length_text_append, slash]
      omega
  | false =>
      cases isSingleDot s with
      | true =>
          simp only [Bool.false_eq_true, if_false, if_true, Bool.or_true, settle,
            length_text_append, slash]
          omega
      | false =>
          simp only [Bool.false_eq_true, if_false, Bool.or_false, settle, List.append_nil,
            length_text_append, length_text_singleton]
          omega

/-- A path gets longer when margins at its end come to count. -/
theorem length_pathBehind_lt {scheme : String} (special : isSpecial scheme = true)
    (remote : scheme ≠ "file") {c : Char} (slash : isSlash c = true) (path : List Char)
    {margins : List Char} (ne : margins ≠ []) (margin : ∀ d ∈ margins, isMargin d = true) :
    (pathBehind scheme (c :: path)).text.toList.length <
      (Path.segments (settledBehind (c :: path ++ margins))).text.toList.length := by
  have absent {d : Char} (other : d ∈ ":@[]%./\\".toList) : d ∉ margins :=
    fun mem => (margin_character (margin d mem)).2.2.2.2.2 other
  obtain ⟨front, last, here, there⟩ :=
    exists_rawSegments_append (absent (by decide)) (absent (by decide)) path
  obtain ⟨before, d, rfl⟩ := (List.eq_nil_or_concat' margins).resolve_left ne
  have code := margin d (by simp)
  have made : (last ++ String.ofList (Percent.encode inPath (before ++ [d]))).toList =
      last.toList ++ Percent.encode inPath before ++ Percent.encode inPath [d] := by
    simp [Percent.encode_append]
  obtain ⟨double, single⟩ := Bool.or_eq_false_iff.mp (not_isDot_margin code made)
  have longer := (encode_margin code).1
  have shorter := length_resolve_le front last
  rw [pathBehind_cons special remote slash, here, List.cons_append, settledBehind, there,
    settle_append, settle, double, single]
  simp only [Bool.false_eq_true, if_false, settle, length_text_append, length_text_singleton,
    String.toList_append, String.toList_ofList, List.length_append, Percent.encode_append, longer]
  omega

end Deposit.Url
