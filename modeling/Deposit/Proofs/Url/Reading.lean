import Deposit.Proofs.Url.Hosts
import Deposit.Proofs.Url.Paths

/-!
Words in addresses of the web. A word that stands in the text of such an address stands in one of
the parts that are read from it, unless the host had to be brought into ASCII, or a double dot took
it back (`infix_parse?`). The same place by `https` has the same parts (`infix_text_of_toHttps?`).
-/

namespace Deposit.Url

variable {word : List Char}

/-! ### Addresses -/

/-- Where an address has `part` in it, besides its scheme and port. -/
inductive StandsIn (part : List Char) (address : Url) : Prop where
  | userinfo (stands : part <:+: address.userinfoText.toList)
  | host {host : Host} (here : address.host = some host) (stands : part <:+: host.text.toList)
  | path (stands : part <:+: address.path.text.toList)
  | query {query : String} (here : address.query = some query) (stands : part <:+: query.toList)
  | fragment {fragment : String} (here : address.fragment = some fragment)
    (stands : part <:+: fragment.toList)

/-- How an address loses `part` of its text. -/
inductive Loses (part text : List Char) (address : Url) : Prop where
  /-- From the name of a host that has a marked label when it is brought into ASCII. -/
  | host {name : List Char} {host : Host} (inside : name <:+: text) (stands : part <:+: name)
    (read : Host.parse? name = some host) (here : address.host = some host)
    (lost : ¬ part <:+: host.text.toList) (marked : "xn--".toList <:+: host.text.toList)
  /-- From a path in which a double dot stands behind it. -/
  | path {path : List Char} (inside : path <:+: text) (back : StepsBack part path)
    (read : address.path = pathOf address.scheme path) (lost : ¬ part <:+: address.path.text.toList)

theorem Loses.mono {part text text' : List Char} {address : Url} (loses : Loses part text address)
    (within : text <:+: text') : Loses part text' address := by
  cases loses with
  | host inside stands read here lost marked =>
      exact .host (inside.trans within) stands read here lost marked
  | path inside back read lost => exact .path (inside.trans within) back read lost

/-- The path behind an authority begins behind the first slash. -/
theorem pathBehind_eq {scheme : String} (special : isSpecial scheme = true) {text : List Char}
    (ne : text ≠ []) :
    ∃ path, path <:+: text ∧ (∀ {part : List Char}, '/' ∉ part → '\\' ∉ part → part <:+: text →
      part <:+: path) ∧ pathBehind scheme text = pathOf scheme path := by
  cases text with
  | nil => exact absurd rfl ne
  | cons c rest =>
      rw [pathBehind]
      split_ifs with slash
      · refine ⟨rest, (List.suffix_cons c rest).isInfix, fun plain plain' stands => ?_, rfl⟩
        refine infix_of_cons (fun mem => ?_) stands
        rw [special] at slash
        simp only [Bool.true_and, Bool.or_eq_true, beq_iff_eq] at slash
        rcases slash with rfl | rfl
        · exact plain mem
        · exact plain' mem
      · exact ⟨_, List.infix_rfl, fun _ _ stands => stands, rfl⟩

/-- A word behind an authority stays in the path, unless a double dot behind it takes it back. -/
theorem infix_pathBehind (w : IsWord word) {address : Url}
    (special : isSpecial address.scheme = true) {text whole : List Char}
    (path : address.path = pathBehind address.scheme text) (inside : text <:+: whole)
    (stands : word <:+: text) : StandsIn word address ∨ Loses word whole address := by
  have ne : text ≠ [] := by
    rintro rfl
    exact w.ne_nil (List.infix_nil.mp stands)
  obtain ⟨rest, part, further, same⟩ := pathBehind_eq special ne
  rw [same] at path
  have there := further (w.absent (by decide)) (w.absent (by decide)) stands
  by_cases kept : word <:+: address.path.text.toList
  · exact .inl (.path kept)
  · rcases infix_pathOf w special there with kept' | back
    · exact absurd (path ▸ kept') kept
    · exact .inr (.path (part.trans inside) back path kept)

/-- A word in the name of a host stays in the address, unless a label of it has to be marked. -/
theorem infix_hostName (w : IsWord word) {address : Url} {name whole : List Char} {host : Host}
    (read : Host.parse? name = some host) (here : address.host = some host)
    (inside : name <:+: whole) (stands : word <:+: name) :
    StandsIn word address ∨ Loses word whole address := by
  by_cases kept : word <:+: host.text.toList
  · exact .inl (.host here kept)
  · by_cases marked : "xn--".toList <:+: host.text.toList
    · exact .inr (.host inside stands read here kept marked)
    · exact absurd (infix_host w read marked stands) kept

/-! ### Authorities -/

theorem atLastSign?_eq {text before behind : List Char}
    (found : atLastSign? text = some (before, behind)) : text = before ++ '@' :: behind := by
  obtain ⟨⟨behind', before'⟩, split, same⟩ := Option.map_eq_some_iff.mp found
  obtain ⟨reversed, -⟩ := Split.first?_eq_some_iff.mp split
  cases same
  have text_eq := congrArg List.reverse reversed
  rw [List.reverse_reverse, List.reverse_append, List.reverse_cons, List.append_assoc] at text_eq
  exact text_eq

theorem atPort_eq (text : List Char) : ∀ inBrackets, text =
    (atPort inBrackets text).1 ++ (atPort inBrackets text).2.elim [] (':' :: ·) := by
  induction text with
  | nil => exact fun _ => rfl
  | cons c rest ih =>
      intro inBrackets
      rw [atPort]
      split_ifs with colon
      · simp only [Bool.and_eq_true, beq_iff_eq] at colon
        rw [colon.1]
        rfl
      all_goals exact congrArg (c :: ·) (ih _)

theorem infix_userinfoText (w : IsWord word) {address : Url}
    (stands : word <:+: address.username.toList ∨ word <:+: address.password.toList) :
    word <:+: address.userinfoText.toList := by
  have full {s : String} (inside : word <:+: s.toList) : s.isEmpty = false := by
    rw [← Bool.not_eq_true, String.isEmpty_iff]
    rintro rfl
    exact w.ne_nil (List.infix_nil.mp inside)
  rw [userinfoText]
  rcases stands with name | password
  · rw [full name, Bool.false_and, if_neg Bool.false_ne_true]
    simp only [String.toList_append, List.append_assoc]
    exact name.trans (List.prefix_append _ _).isInfix
  · rw [full password, Bool.and_false, if_neg Bool.false_ne_true, if_neg Bool.false_ne_true]
    simp only [String.toList_append, List.append_assoc]
    exact password.trans ⟨address.username.toList ++ ":".toList, "@".toList, by
      simp only [List.append_assoc]⟩

/-- A word stands in the user name or in the password. -/
theorem infix_userinfo (w : IsWord word) {user : List Char} (stands : word <:+: user) :
    word <:+: (userinfo user).1.toList ∨ word <:+: (userinfo user).2.toList := by
  have encoded {part : List Char} (inside : word <:+: part) :
      word <:+: (String.ofList (Percent.encode inUserinfo part)).toList := by
    rw [String.toList_ofList]
    exact infix_encode w (by decide) inside
  unfold userinfo
  split
  · exact .inl (encoded stands)
  · next name password split =>
    obtain ⟨rfl, -⟩ := Split.first?_eq_some_iff.mp split
    exact (infix_append_cons (w.absent (by decide)) stands).imp encoded encoded

/-- The user's part of an authority, and host and port. -/
def userAndHost (authority : List Char) : List Char × List Char :=
  (atLastSign? authority).getD ([], authority)

/-- The digits of a port, and what stands behind them. -/
def digitsAndRest (port : Option (List Char)) : List Char × List Char :=
  let digits := (port.getD []).takeWhile (· != '\\')
  (digits, (port.getD []).drop digits.length)

/-- What an authority of the web is read as. -/
theorem withAuthority?_eq_some {scheme : String} (special : isSpecial scheme = true)
    {authority rest front : List Char} {query fragment : Option String} {address : Url}
    (first : front.takeWhile (!endsAuthority true ·) = authority)
    (behind : front.drop authority.length = rest)
    (read : withAuthority? scheme front query fragment = some address) :
    ∃ user hostAndPort name port digits more host number,
      userAndHost authority = (user, hostAndPort) ∧ atPort false hostAndPort = (name, port) ∧
      digitsAndRest port = (digits, more) ∧ Host.parse? name = some host ∧
      port? scheme digits = some number ∧
      address = ⟨scheme, (userinfo user).1, (userinfo user).2, some host, number,
        pathBehind scheme (more ++ rest), query, fragment⟩ := by
  subst first behind
  unfold withAuthority? at read
  simp only [special, if_true, bind, pure] at read
  split_ifs at read
  simp only [Option.bind_eq_some_iff] at read
  obtain ⟨host, name, port, digits, read⟩ := read
  split_ifs at read
  cases read
  exact ⟨_, _, _, _, _, _, host, port, rfl, rfl, rfl, name, digits, rfl⟩

theorem infix_userAndHost (w : IsWord word) {authority user hostAndPort : List Char}
    (split : userAndHost authority = (user, hostAndPort)) (stands : word <:+: authority) :
    word <:+: user ∨ word <:+: hostAndPort := by
  unfold userAndHost at split
  cases sign : atLastSign? authority with
  | none =>
      rw [sign] at split
      cases split
      exact .inr stands
  | some parts =>
      rw [sign] at split
      cases split
      rw [atLastSign?_eq sign] at stands
      exact infix_append_cons (w.absent (by decide)) stands

/-- A port has no word in it. -/
theorem infix_digitsAndRest (w : IsWord word) {scheme : String} {port digits more : List Char}
    {number : Option Nat} (split : digitsAndRest (some port) = (digits, more))
    (read : port? scheme digits = some number) (stands : word <:+: port) : word <:+: more := by
  cases split
  have plain : ∀ c ∈ word, (c != '\\') = true := w.all (by decide)
  rcases infix_takeWhile plain stands with digits | more
  · refine absurd ?_ (w.not_numeric digits)
    unfold port? at read
    split at read
    · cases read
    · next value => exact numeric_of_numeral? value
  · exact more

theorem userAndHost_suffix {authority user hostAndPort : List Char}
    (split : userAndHost authority = (user, hostAndPort)) : hostAndPort <:+ authority := by
  unfold userAndHost at split
  cases sign : atLastSign? authority with
  | none =>
      rw [sign] at split
      cases split
      exact List.suffix_rfl
  | some parts =>
      rw [sign] at split
      cases split
      rw [atLastSign?_eq sign]
      exact (List.suffix_cons '@' _).trans (List.suffix_append _ _)

theorem digitsAndRest_suffix {port : Option (List Char)} {digits more : List Char}
    (split : digitsAndRest port = (digits, more)) : more <:+ port.elim [] (':' :: ·) := by
  cases split
  cases port with
  | none => exact List.nil_suffix
  | some port => exact (List.drop_suffix _ _).trans (List.suffix_cons ':' _)

/-- A word in front of query and fragment stays in the address, or is lost. -/
theorem infix_withAuthority? (w : IsWord word) {scheme : String}
    (special : isSpecial scheme = true) {front : List Char} {query fragment : Option String}
    {address : Url} (read : withAuthority? scheme front query fragment = some address)
    (stands : word <:+: front) : StandsIn word address ∨ Loses word front address := by
  have inside : ∀ c ∈ word, (!endsAuthority true c) = true := w.all (by decide)
  have sides := infix_takeWhile inside stands
  have prefixed := List.takeWhile_prefix (!endsAuthority true ·) (l := front)
  have whole := List.takeWhile_append_dropWhile (p := (!endsAuthority true ·)) (l := front)
  rw [← drop_takeWhile] at whole
  generalize authority_eq : front.takeWhile (!endsAuthority true ·) = authority at *
  generalize rest_eq : front.drop authority.length = rest at *
  obtain ⟨user, hostAndPort, name, port, digits, more, host, number, users, ports, numbers, named,
    numbered, rfl⟩ := withAuthority?_eq_some special authority_eq rest_eq read
  have parts := atPort_eq hostAndPort false
  rw [ports] at parts
  have suffix := userAndHost_suffix users
  have name_front : name <:+: front :=
    ((parts ▸ List.prefix_append name _).isInfix.trans suffix.isInfix).trans prefixed.isInfix
  have more_front : more ++ rest <:+: front := by
    have behind : more <:+ hostAndPort :=
      (digitsAndRest_suffix numbers).trans (parts ▸ List.suffix_append name _)
    obtain ⟨before, same⟩ := behind.trans suffix
    exact ⟨before, [], by rw [List.append_nil, ← List.append_assoc, same, whole]⟩
  rcases sides with authority | behind
  · rcases infix_userAndHost w users authority with user | there
    · exact .inl (.userinfo (infix_userinfoText w (infix_userinfo w user)))
    rw [parts] at there
    cases port with
    | none =>
        rw [Option.elim_none, List.append_nil] at there
        exact infix_hostName w named rfl name_front there
    | some port =>
        rcases infix_append_cons (w.absent (by decide)) there with there | port
        · exact infix_hostName w named rfl name_front there
        · refine infix_pathBehind w special rfl more_front ?_
          exact (infix_digitsAndRest w numbers numbered port).trans (List.prefix_append _ _).isInfix
  · exact infix_pathBehind w special rfl more_front
      (behind.trans (List.suffix_append _ _).isInfix)

/-! ### Files -/

/-- Whether a character separates segments in the address of a file. -/
def isSlash (c : Char) : Bool := c == '/' || c == '\\'

/-- What the address of a file on a host is read as. -/
theorem file?_eq_some {front : List Char} {query fragment : Option String} {address : Url}
    (read : file? front query fragment = some address) (there : address.hostText?.isSome = true) :
    ∃ a b rest host, front = a :: b :: rest ∧ isSlash a = true ∧ isSlash b = true ∧
      Host.parse? (rest.takeWhile (!isSlash ·)) = some host ∧
      address = ⟨"file", "", "", some host, none,
        pathBehind "file" (rest.drop (rest.takeWhile (!isSlash ·)).length), query, fragment⟩ := by
  have nowhere {host : Host} {path : Path} (empty : host = .empty) :
      (⟨"file", "", "", some host, none, path, query, fragment⟩ : Url) ≠ address := by
    rintro rfl
    subst empty
    cases there
  unfold file? at read
  split at read
  · next a b rest =>
    simp only [Bool.and_eq_true] at read
    split_ifs at read with slashes drive empty
    · exact absurd (Option.some.inj read) (nowhere rfl)
    · exact absurd (Option.some.inj read) (nowhere rfl)
    · split at read
      · cases read
      next host name =>
      refine ⟨a, b, rest, host, rfl, slashes.1, slashes.2, name, ?_⟩
      by_cases localhost : host = .domain "localhost"
      · simp only [localhost, if_true] at read
        split at read
        · split_ifs at read
          · exact absurd (Option.some.inj read) (nowhere rfl)
          · exact absurd (Option.some.inj read) (nowhere rfl)
        · exact absurd (Option.some.inj read) (nowhere rfl)
      · simp only [localhost, if_false] at read
        split at read
        · split_ifs at read
          · exact absurd (Option.some.inj read) (nowhere rfl)
          · exact (Option.some.inj read).symm
        · exact (Option.some.inj read).symm
    · exact absurd (Option.some.inj read) (nowhere rfl)
  · exact absurd (Option.some.inj read) (nowhere rfl)

/-- A word in front of query and fragment stays in the address of a file on a host, or is lost. -/
theorem infix_file? (w : IsWord word) {front : List Char} {query fragment : Option String}
    {address : Url} (read : file? front query fragment = some address)
    (there : address.hostText?.isSome = true) (stands : word <:+: front) :
    StandsIn word address ∨ Loses word front address := by
  obtain ⟨a, b, rest, host, rfl, slash, slash', name, rfl⟩ := file?_eq_some read there
  have none : ∀ c ∈ word, isSlash c = false := w.none (by decide)
  have absent {c : Char} (slash : isSlash c = true) : c ∉ word := fun mem => by
    rw [none c mem] at slash
    cases slash
  have inside : ∀ c ∈ word, (!isSlash c) = true := w.all (by decide)
  have front : rest <:+: a :: b :: rest :=
    (List.suffix_cons b rest).isInfix.trans (List.suffix_cons a _).isInfix
  have behind := infix_of_cons (absent slash') (infix_of_cons (absent slash) stands)
  rcases infix_takeWhile inside behind with named | behind
  · exact infix_hostName w name rfl ((List.takeWhile_prefix _).isInfix.trans front) named
  · exact infix_pathBehind w rfl rfl ((List.drop_suffix _ _).isInfix.trans front) behind

/-! ### Whole addresses -/

theorem scheme_of_withAuthority? {scheme : String} {front : List Char}
    {query fragment : Option String} {address : Url}
    (read : withAuthority? scheme front query fragment = some address) :
    address.scheme = scheme := by
  unfold withAuthority? at read
  simp only [bind, pure] at read
  split_ifs at read <;>
  · simp only [Option.bind_eq_some_iff] at read
    obtain ⟨host, -, port, -, read⟩ := read
    split_ifs at read
    cases read
    rfl

/-- Where an address of the web comes from: a front behind the scheme, and query and fragment. -/
theorem parse?_eq_some {text : String} {address : Url} (read : parse? text = some address)
    (web : isSpecial address.scheme = true) :
    ∃ scheme rest front query fragment, scheme? (cleaned text) = some (scheme, rest) ∧
      isSpecial scheme = true ∧ tail true rest = (front, query, fragment) ∧
      (file? front query fragment = some address ∨
        withAuthority? scheme (front.dropWhile isSlash) query fragment = some address) := by
  unfold parse? at read
  simp only [bind, Option.bind_eq_some_iff] at read
  obtain ⟨⟨scheme, rest⟩, schemed, read⟩ := read
  have special : isSpecial scheme = true := by
    split_ifs at read with file special
    · subst file
      decide
    · exact special
    · split at read
      · rwa [scheme_of_withAuthority? read] at web
      · cases read
        exact web
  refine ⟨scheme, rest, _, _, _, schemed, special, rfl, ?_⟩
  simp only [special] at read
  split_ifs at read
  · exact .inl read
  · exact .inr read

/-- A word in an address of the web stays there, or is lost. -/
theorem infix_parse? (w : IsWord word) {text : String} {address : Url}
    (read : parse? text = some address) (web : isSpecial address.scheme = true)
    (there : address.hostText?.isSome = true) (stands : word <:+: text.toList) :
    StandsIn word address ∨ Loses word (cleaned text) address := by
  obtain ⟨scheme, rest, front, query, fragment, schemed, special, split, read⟩ :=
    parse?_eq_some read web
  have behind := infix_of_scheme? w schemed special (infix_cleaned w stands)
  have front_text : front <:+: cleaned text := by
    refine (prefix_of_tail split).isInfix.trans ?_
    exact (suffix_of_scheme? schemed).isInfix
  have parts : address.query = query ∧ address.fragment = fragment := by
    rcases read with read | read
    · obtain ⟨_, _, _, _, -, -, -, -, rfl⟩ := file?_eq_some read there
      exact ⟨rfl, rfl⟩
    · obtain ⟨_, _, _, _, _, _, _, _, -, -, -, -, -, rfl⟩ :=
        withAuthority?_eq_some special rfl rfl read
      exact ⟨rfl, rfl⟩
  rcases infix_tail w split behind with here | ⟨q, rfl, here⟩ | ⟨f, rfl, here⟩
  · rcases read with read | read
    · exact (infix_file? w read there here).imp_right (·.mono front_text)
    · have none : ∀ c ∈ word, isSlash c = false := w.none (by decide)
      refine (infix_withAuthority? w special read (infix_dropWhile none here)).imp_right
        (·.mono ((List.dropWhile_suffix _).isInfix.trans front_text))
  · exact .inl (.query parts.1 here)
  · exact .inl (.fragment parts.2 here)

/-! ### The same place, by `https` -/

theorem toHttps?_eq_some {address url : Url} (secured : address.toHttps? = some url) :
    isSpecial address.scheme = true ∧ address.hostText?.isSome = true ∧
      url = { address with
        scheme := "https", port := if address.port = some 443 then none else address.port } := by
  rw [toHttps?] at secured
  by_cases web : (isSpecial address.scheme && address.hostText?.isSome) = true
  · rw [if_pos web] at secured
    rw [Bool.and_eq_true] at web
    exact ⟨web.1, web.2, (Option.some.inj secured).symm⟩
  · rw [if_neg web] at secured
    cases secured

theorem exists_host {url : Url} (there : url.hostText?.isSome = true) :
    ∃ host, url.host = some host := by
  rw [hostText?] at there
  split at there
  · cases there
  · cases there
  · next host _ here => exact ⟨host, here⟩

/-- The text of an address with a host, part by part. -/
theorem toList_text (url : Url) {host : Host} (here : url.host = some host) :
    ∃ port, url.text.toList = url.scheme.toList ++ "://".toList ++ url.userinfoText.toList ++
      host.text.toList ++ port ++ url.path.text.toList ++
      (url.query.elim [] ('?' :: ·.toList)) ++ (url.fragment.elim [] ('#' :: ·.toList)) := by
  refine ⟨(url.port.elim "" (":" ++ toString ·)).toList, ?_⟩
  rw [text, authorityText, here]
  cases url.port <;> cases url.query <;> cases url.fragment <;> simp

theorem text_of_toHttps? {address url : Url} (secured : address.toHttps? = some url) :
    "https://".toList <+: url.text.toList := by
  obtain ⟨-, there, rfl⟩ := toHttps?_eq_some secured
  obtain ⟨host, here⟩ := exists_host there
  obtain ⟨port, text⟩ := toList_text { address with
    scheme := "https", port := if address.port = some 443 then none else address.port } here
  rw [text]
  simp only [List.append_assoc]
  exact List.prefix_append _ _

/-- What stands in an address stands in the text of the place that it is by `https`. -/
theorem infix_text_of_toHttps? {part : List Char} {address url : Url}
    (secured : address.toHttps? = some url) (stands : StandsIn part address) :
    part <:+: url.text.toList := by
  obtain ⟨-, there, rfl⟩ := toHttps?_eq_some secured
  obtain ⟨host, here⟩ := exists_host there
  obtain ⟨port, text⟩ := toList_text { address with
    scheme := "https", port := if address.port = some 443 then none else address.port } here
  have front {a b : List Char} (stands : part <:+: a) : part <:+: a ++ b :=
    stands.trans (List.prefix_append a b).isInfix
  have back {a b : List Char} (stands : part <:+: b) : part <:+: a ++ b :=
    stands.trans (List.suffix_append a b).isInfix
  rw [text]
  cases stands with
  | userinfo stands => exact front (front (front (front (front (back stands)))))
  | host here' stands =>
      obtain rfl := Option.some.inj (here.symm.trans here')
      exact front (front (front (front (back stands))))
  | path stands => exact front (front (back stands))
  | query same stands =>
      simp only [same]
      exact front (back (stands.trans (List.suffix_cons '?' _).isInfix))
  | fragment same stands =>
      simp only [same]
      exact back (stands.trans (List.suffix_cons '#' _).isInfix)

end Deposit.Url
