import Deposit.Proofs.Url.Composition

/-!
Addresses of the web without query and fragment.

Such an address is a front with the scheme, an authority, and a rest with the path. It is read part
by part (`parse?_append`), and what is read without query and fragment has these parts
(`exists_parts`). With another rest it is the same place with another path
(`HasParts.parse?_append`).
-/

namespace Deposit.Url

variable {scheme text : String} {front authority rest : List Char} {url : Url}

/-! ### The parts -/

/-- What stands in front of the authority in an address of the web. -/
def IsFront (scheme : String) (front : List Char) : Prop :=
  ∃ raw slashes, front = raw ++ ':' :: slashes ∧ IsSchemeName raw ∧
    scheme = String.ofList (raw.map Char.toLower) ∧ ∀ c ∈ slashes, isSlash c = true

/-- The authority of an address of the web, as it is written. -/
structure IsAuthority (authority : List Char) : Prop where
  ne : authority ≠ []
  inside : ∀ c ∈ authority, endsAuthority true c = false

/-- What stands behind the authority in an address that has neither query nor fragment. -/
structure IsRest (rest : List Char) : Prop where
  rooted : ∀ c ∈ rest.head?, isSlash c = true
  plain : ∀ c ∈ rest, c ≠ '?' ∧ c ≠ '#'

theorem IsRest.of_append {more : List Char} (whole : IsRest (rest ++ more)) : IsRest rest := by
  refine ⟨fun c first => whole.rooted c ?_, (List.forall_mem_append.mp whole.plain).1⟩
  rw [List.head?_append, Option.mem_def.mp first]
  rfl

/-- A rest goes on with anything but the marks of query and fragment, if it begins with a slash. -/
theorem IsRest.append {more : List Char} (front : IsRest rest)
    (rooted : ∀ c ∈ (rest ++ more).head?, isSlash c = true)
    (plain : ∀ c ∈ more, c ≠ '?' ∧ c ≠ '#') : IsRest (rest ++ more) :=
  ⟨rooted, List.forall_mem_append.mpr ⟨front.plain, plain⟩⟩

theorem IsRest.append_slash {more : List Char} (front : IsRest rest)
    (plain : ∀ c ∈ more, c ≠ '?' ∧ c ≠ '#') : IsRest (rest ++ '/' :: more) := by
  refine front.append (fun c first => ?_) (List.forall_mem_cons.mpr ⟨by decide, plain⟩)
  cases rest with
  | nil =>
      cases first
      decide
  | cons d rest => exact front.rooted c first

/-- An authority ends at slashes and at the marks of query and fragment. -/
theorem endsAuthority_iff {c : Char} :
    endsAuthority true c = true ↔ isSlash c = true ∨ c = '?' ∨ c = '#' := by
  simp only [endsAuthority, isSlash, Bool.or_eq_true, beq_iff_eq, Bool.true_and]
  tauto

theorem splitOff_eq_none_iff {separator : Char} {text : List Char} :
    (splitOff separator text).2 = none ↔ separator ∉ text := by
  rw [splitOff, ← Split.first?_eq_none_iff]
  cases Split.first? separator text <;> simp

theorem tail_eq_none_iff {text front : List Char} :
    tail true text = (front, none, none) ↔ front = text ∧ ∀ c ∈ text, c ≠ '?' ∧ c ≠ '#' := by
  constructor
  · intro split
    rw [tail_eq, Prod.mk.injEq, Prod.mk.injEq, Option.map_eq_none_iff, Option.map_eq_none_iff]
      at split
    obtain ⟨whole, noQuery, noFragment⟩ := split
    rw [splitOff_eq_none_iff] at noFragment
    rw [splitOff_of_not_mem noFragment, splitOff_eq_none_iff] at noQuery
    rw [splitOff_of_not_mem noFragment, splitOff_of_not_mem noQuery] at whole
    refine ⟨whole.symm, fun c mem => ⟨?_, ?_⟩⟩
    · rintro rfl
      exact noQuery mem
    · rintro rfl
      exact noFragment mem
  · rintro ⟨rfl, plain⟩
    have split := tail_append true none none
      (fun mem => (plain '#' mem).2 rfl) (fun mem => (plain '?' mem).1 rfl)
      (fun _ none => by cases none)
    rwa [Option.elim_none, Option.elim_none, List.append_nil, List.append_nil] at split

/-! ### Put together -/

/-- An address is read as the place that its authority names, with the path behind it. -/
theorem parse?_append (begins : IsFront scheme front) (special : isSpecial scheme = true)
    (remote : scheme ≠ "file") (named : IsAuthority authority) (behind : IsRest rest)
    (made : cleaned text = front ++ authority ++ rest) :
    parse? text = (authority? scheme authority).map fun ((username, password), host, port) =>
      { scheme, username, password, host := some host, port,
        path := pathBehind scheme rest, query := none, fragment := none } := by
  obtain ⟨raw, slashes, rfl, schemed, lower, slash⟩ := begins
  have inside {c : Char} (mem : c ∈ authority) :
      isSlash c = false ∧ c ≠ '?' ∧ c ≠ '#' := by
    have outside := named.inside c mem
    rw [← Bool.not_eq_true, endsAuthority_iff] at outside
    simpa using outside
  have split : tail true (slashes ++ (authority ++ rest)) =
      (slashes ++ (authority ++ rest), none, none) := by
    refine tail_eq_none_iff.mpr ⟨rfl, fun c mem => ?_⟩
    rw [List.mem_append, List.mem_append] at mem
    rcases mem with mem | mem | mem
    · have slash := slash c mem
      constructor
      all_goals
        rintro rfl
        cases slash
    · exact (inside mem).2
    · exact behind.plain c mem
  have read : scheme? (cleaned text) = some (scheme, slashes ++ (authority ++ rest)) :=
    scheme?_eq_some_iff.mpr ⟨raw, by simp [made], schemed, lower⟩
  have dropped : (slashes ++ (authority ++ rest)).dropWhile isSlash = authority ++ rest := by
    obtain ⟨c, more, same⟩ := List.exists_cons_of_ne_nil named.ne
    have first := (inside (same ▸ List.mem_cons_self)).1
    rw [List.dropWhile_append_of_pos slash, same, List.cons_append,
      List.dropWhile_cons_of_neg (by simp [first])]
  rw [parse?_of_scheme? special remote read split, dropped, withAuthority?_append special
    named.inside fun c first => endsAuthority_iff.mpr (.inl (behind.rooted c first))]

/-! ### Taken apart -/

theorem scheme_of_file? {front : List Char} {query fragment : Option String}
    (read : file? front query fragment = some url) : url.scheme = "file" := by
  simp only [file?] at read
  grind

/-- What an address by `http` or `https` is read from. -/
theorem exists_tail (read : parse? text = some url) (web : url.isHttp = true) :
    ∃ rest front, scheme? (cleaned text) = some (url.scheme, rest) ∧
      isSpecial url.scheme = true ∧ url.scheme ≠ "file" ∧
      tail true rest = (front, url.query, url.fragment) ∧
      withAuthority? url.scheme (front.dropWhile isSlash) url.query url.fragment = some url := by
  obtain ⟨special, remote⟩ : isSpecial url.scheme = true ∧ url.scheme ≠ "file" := by
    simp only [isHttp, Bool.or_eq_true, beq_iff_eq] at web
    rcases web with same | same
    all_goals
      rw [same]
      decide
  obtain ⟨scheme, rest, front, query, fragment, schemed, special', split, read | read⟩ :=
    parse?_eq_some read special
  · exact absurd (scheme_of_file? read) remote
  · obtain ⟨_, _, _, _, _, _, _, _, -, -, -, -, -, rfl⟩ :=
      withAuthority?_eq_some special' rfl rfl read
    exact ⟨rest, front, schemed, special, remote, split, read⟩

theorem authority?_nil (scheme : String) : authority? scheme [] = none := by
  rw [authority?, userAndHost_of_not_mem List.not_mem_nil]
  simp only [atPort, parse?_nil, Option.bind_none]

/-- An address has neither query nor fragment if the marks of both are not in its text. -/
theorem eq_none_iff (read : parse? text = some url) (web : url.isHttp = true) :
    (url.query = none ∧ url.fragment = none) ↔ ∀ c ∈ cleaned text, c ≠ '?' ∧ c ≠ '#' := by
  obtain ⟨rest, front, schemed, -, -, split, -⟩ := exists_tail read web
  obtain ⟨raw, made, named, -⟩ := scheme?_eq_some_iff.mp schemed
  have first : ∀ c ∈ raw ++ [':'], c ≠ '?' ∧ c ≠ '#' := by
    intro c mem
    rcases List.mem_append.mp mem with mem | mem
    · have character := named.each c mem
      constructor
      all_goals
        rintro rfl
        exact absurd character (by decide)
    · rw [List.mem_singleton.mp mem]
      decide
  constructor
  · rintro ⟨noQuery, noFragment⟩
    rw [noQuery, noFragment, tail_eq_none_iff] at split
    rw [made, List.append_cons, List.forall_mem_append]
    exact ⟨first, split.2⟩
  · intro plain
    rw [made, List.append_cons, List.forall_mem_append] at plain
    rw [tail_eq_none_iff.mpr ⟨rfl, plain.2⟩, Prod.mk.injEq, Prod.mk.injEq] at split
    exact ⟨split.2.1.symm, split.2.2.symm⟩

/-- The parts that an address without query and fragment is read from. -/
structure HasParts (url : Url) (front authority rest : List Char) : Prop where
  begins : IsFront url.scheme front
  special : isSpecial url.scheme = true
  remote : url.scheme ≠ "file"
  named : IsAuthority authority
  said : ∃ host, url.host = some host ∧
    authority? url.scheme authority = some ((url.username, url.password), host, url.port)
  behind : IsRest rest
  path : url.path = pathBehind url.scheme rest

/-- A text is an authority, as far as it goes, with something behind it. -/
theorem exists_authority (text : List Char) :
    ∃ authority rest, text = authority ++ rest ∧
      (∀ c ∈ authority, endsAuthority true c = false) ∧
      ∀ c ∈ rest.head?, endsAuthority true c = true := by
  refine ⟨text.takeWhile (!endsAuthority true ·), text.dropWhile (!endsAuthority true ·),
    List.takeWhile_append_dropWhile.symm, fun c mem => ?_, fun c first => ?_⟩
  · simpa using List.mem_takeWhile_imp mem
  · have outside := List.head?_dropWhile_not (!endsAuthority true ·) text
    rw [Option.mem_def.mp first] at outside
    simpa using outside

theorem exists_parts (read : parse? text = some url) (web : url.isHttp = true)
    (noQuery : url.query = none) (noFragment : url.fragment = none) :
    ∃ front authority rest, cleaned text = front ++ authority ++ rest ∧
      HasParts url front authority rest := by
  obtain ⟨behind, front, schemed, special, remote, split, read⟩ := exists_tail read web
  rw [noQuery, noFragment, tail_eq_none_iff] at split
  obtain ⟨rfl, plain⟩ := split
  obtain ⟨raw, made, named, lower⟩ := scheme?_eq_some_iff.mp schemed
  obtain ⟨authority, rest, body, inside, ended⟩ := exists_authority (front.dropWhile isSlash)
  have whole : front.takeWhile isSlash ++ (authority ++ rest) = front := by
    rw [← body, List.takeWhile_append_dropWhile]
  rw [body, withAuthority?_append special inside ended, Option.map_eq_some_iff] at read
  obtain ⟨⟨⟨username, password⟩, host, port⟩, said, same⟩ := read
  obtain ⟨rfl, rfl, here, rfl, path⟩ : url.username = username ∧ url.password = password ∧
      url.host = some host ∧ url.port = port ∧ url.path = pathBehind url.scheme rest :=
    ⟨(congrArg Url.username same).symm, (congrArg Url.password same).symm,
      (congrArg Url.host same).symm, (congrArg Url.port same).symm,
      (congrArg Url.path same).symm⟩
  have ne : authority ≠ [] := by
    rintro rfl
    rw [authority?_nil] at said
    cases said
  rw [← whole, List.forall_mem_append, List.forall_mem_append] at plain
  refine ⟨raw ++ ':' :: front.takeWhile isSlash, authority, rest, ?_,
    ⟨raw, _, rfl, named, lower, fun c mem => List.mem_takeWhile_imp mem⟩,
    special, remote, ⟨ne, inside⟩, ⟨host, here, said⟩, ⟨fun c first => ?_, plain.2.2⟩, path⟩
  · rw [made, List.append_assoc, List.append_assoc, List.cons_append, whole]
  · obtain ⟨query, fragment⟩ := plain.2.2 c (List.mem_of_mem_head? first)
    exact (endsAuthority_iff.mp (ended c first)).resolve_right (not_or.mpr ⟨query, fragment⟩)

/-- With another rest an address is the same place with another path. -/
theorem HasParts.parse?_append (parts : HasParts url front authority rest) {behind : List Char}
    (follows : IsRest behind) (made : cleaned text = front ++ authority ++ behind) :
    parse? text = some { url with
      path := pathBehind url.scheme behind, query := none, fragment := none } := by
  obtain ⟨host, here, said⟩ := parts.said
  rw [Url.parse?_append parts.begins parts.special parts.remote parts.named follows made, said,
    Option.map_some, here]

end Deposit.Url
