import Deposit.Config
import Deposit.Proofs.Url.Margins
import Deposit.Proofs.Url.Parts
import Deposit.Repository.MemberNode
import Deposit.Storage.Service

/-!
The addresses that are put together from the address of a server and a path.

Such an address is read as the place of the server, with the path behind its own, if the text of the
server's address is a root (`IsRoot`), and only then (`isEndpoint_iff`): what is put behind a query
or a fragment becomes a part of it, and a space at the end becomes a part of the path or spoils the
host. A server is checked by its address alone, and not all that pass are roots
(`endpoints_of_roots`).
-/

namespace Deposit

open Url (HasParts IsAuthority IsPlainPath IsRest cleaned cleanedFront isMargin trailing)

/-- An address that is read as the place of a server, without query and fragment, and with a path
behind the server's. Slashes at the end of that do not count. -/
def IsEndpoint (server : Url) (path address : String) : Prop :=
  ∃ url, Url.parse? address = some url ∧ url.scheme = server.scheme ∧ url.host = server.host ∧
    url.port = server.port ∧ url.query = none ∧ url.fragment = none ∧
    url.path.text = Blank.dropTrailing '/' server.path.text ++ "/" ++ path

/-- The text of an address behind which a path can be put. -/
structure IsRoot (text : String) : Prop where
  /-- It has neither a query nor a fragment. -/
  plain : ∀ c ∈ text.toList, c ≠ '?' ∧ c ≠ '#'
  /-- Of what is cut off at its end nothing counts: there are no controls and spaces, but for tabs
  and line ends. -/
  closed : trailing text = []
  /-- With one slash at its end, its path ends in one slash. -/
  single : ∀ url, Url.parse? (Blank.dropTrailing '/' text ++ "/") = some url →
    ¬ "//".toList <:+ url.path.text.toList

section Parts

variable {text path : String} {server : Url} {front authority rest : List Char}

theorem cleaned_endpoint (root : String) (plain : ∀ c ∈ path.toList, isMargin c = false) :
    cleaned (root ++ "/" ++ path) = cleanedFront root.toList ++ '/' :: path.toList := by
  have made : root ++ "/" ++ path = String.ofList (root.toList ++ '/' :: path.toList) := by
    rw [← String.toList_inj]
    simp
  rw [made, Url.cleaned_append _ (List.cons_ne_nil _ _)]
  exact List.forall_mem_cons.mpr ⟨by decide, plain⟩

theorem cleaned_slash (root : String) :
    cleaned (root ++ "/") = cleanedFront root.toList ++ ['/'] := by
  have made : root ++ "/" = String.ofList (root.toList ++ ['/']) := by
    rw [← String.toList_inj]
    simp
  rw [made, Url.cleaned_append _ (List.cons_ne_nil _ _) (List.all_iff_forall_prop.mp (by decide))]

/-- What an address begins with is what is put in front of a path. -/
theorem exists_rest (whole : cleaned text = front ++ authority ++ rest)
    (named : IsAuthority authority) :
    ∃ behind n, cleanedFront (Blank.dropTrailing '/' text).toList = front ++ authority ++ behind ∧
      rest ++ trailing text = behind ++ List.replicate n '/' ∧ (trailing text ≠ [] → n = 0) := by
  obtain ⟨n, made⟩ := Blank.exists_dropTrailing '/' text.toList
  rw [String.ofList_toList] at made
  have slashes : ∀ c ∈ List.replicate n '/', isMargin c = false := by
    intro c mem
    rw [List.eq_of_mem_replicate mem]
    decide
  have left : cleaned text ≠ [] := by simp [whole, named.ne]
  have last : ¬ ['/'] <:+ front ++ authority := by
    obtain ⟨before, c, rfl⟩ := (List.eq_nil_or_concat' authority).resolve_left named.ne
    rw [← List.append_assoc, List.suffix_concat_iff]
    rintro (none | ⟨more, same, -⟩)
    · cases none
    · have slash : '/' = c := by simpa using congrArg List.getLast? same
      exact absurd (named.inside c (by simp)) (slash ▸ by decide)
  have front_text := Url.cleanedFront_toList left
  rw [made, Url.cleanedFront_append _ slashes, whole, List.append_assoc] at front_text
  obtain ⟨behind, front_eq, rest_eq⟩ := exists_of_append_eq_replicate last front_text.symm
  refine ⟨behind, n, front_eq, rest_eq, fun cut => ?_⟩
  -- What ends in a slash has nothing cut off.
  cases n with
  | zero => rfl
  | succ n =>
      refine absurd ?_ cut
      rw [trailing, made, List.reverse_append, List.reverse_replicate, List.replicate_succ,
        List.cons_append, List.takeWhile_cons_of_neg (by decide)]
      rfl

/-- Nothing can be put behind a query or a fragment. -/
theorem IsEndpoint.marks (plain : IsPlainPath path) (web : server.isHttp = true)
    (right : IsEndpoint server path (Blank.dropTrailing '/' text ++ "/" ++ path)) :
    ∀ c ∈ text.toList, c ≠ '?' ∧ c ≠ '#' := by
  obtain ⟨url, read, scheme, -, -, noQuery, noFragment, -⟩ := right
  have web' : url.isHttp = true := by
    rw [Url.isHttp, scheme]
    exact web
  have marks := (Url.eq_none_iff read web').mp ⟨noQuery, noFragment⟩
  rw [cleaned_endpoint _ fun c mem => (plain.inner c mem).1] at marks
  obtain ⟨n, made⟩ := Blank.exists_dropTrailing '/' text.toList
  rw [String.ofList_toList] at made
  have counted {c : Char} (inner : isMargin c = false) (slash : c ≠ '/')
      (mem : c ∈ text.toList) : c ∈ cleanedFront (Blank.dropTrailing '/' text).toList := by
    rw [made, List.mem_append] at mem
    refine List.mem_filter.mpr ⟨mem_dropWhile inner (mem.resolve_right fun there => ?_),
      Url.counts_of_not_margin inner⟩
    exact slash (List.eq_of_mem_replicate there)
  intro c mem
  by_cases inner : isMargin c = false ∧ c ≠ '/'
  · exact marks c (List.mem_append_left _ (counted inner.1 inner.2 mem))
  · constructor
    all_goals
      rintro rfl
      exact inner (by decide)

/-- Behind an address without margins at its end the path is put behind what it has settled. -/
theorem isEndpoint_iff_of_closed (plain : IsPlainPath path)
    (parts : HasParts server front authority rest) {behind : List Char} {n : Nat}
    (root : cleanedFront (Blank.dropTrailing '/' text).toList = front ++ authority ++ behind)
    (rest_eq : rest = behind ++ List.replicate n '/') :
    IsEndpoint server path (Blank.dropTrailing '/' text ++ "/" ++ path) ↔
      ∀ url, Url.parse? (Blank.dropTrailing '/' text ++ "/") = some url →
        ¬ "//".toList <:+ url.path.text.toList := by
  have begins : IsRest behind := (rest_eq ▸ parts.behind).of_append
  have made := cleaned_endpoint (Blank.dropTrailing '/' text)
    fun c mem => (plain.inner c mem).1
  have slashed := cleaned_slash (Blank.dropTrailing '/' text)
  rw [root, List.append_assoc] at made slashed
  have read := parts.parse?_append
    (begins.append_slash fun c mem => (plain.inner c mem).2) made
  have probe := parts.parse?_append (begins.append_slash (List.forall_mem_nil _)) slashed
  obtain ⟨k, -, slashes⟩ := Url.pathBehind_append_slashes parts.special parts.remote begins.rooted n
  obtain ⟨_, one, slash⟩ := Url.pathBehind_append_slashes parts.special parts.remote begins.rooted 1
  rw [one (by decide), List.replicate_one] at slash
  rw [← rest_eq, ← parts.path] at slashes
  have server_path : server.path.text = String.ofList
      ((Url.Path.segments (Url.settledBehind behind)).text.toList ++ List.replicate k '/') := by
    rw [← slashes, String.ofList_toList]
  rw [IsEndpoint, read, probe]
  simp only [Option.some.injEq, exists_eq_left', true_and, forall_eq', slash]
  rw [← String.toList_inj,
    Url.pathBehind_append_plain parts.special parts.remote begins.rooted plain,
    String.toList_append, String.toList_append, server_path, Blank.dropTrailing_append_replicate]
  generalize (Url.Path.segments (Url.settledBehind behind)).text.toList = settled
  have two : "//".toList <:+ settled ++ ['/'] ↔ ['/'] <:+ settled := by
    have mark : "//".toList = ['/'] ++ ['/'] := by decide
    simp only [List.IsSuffix, mark, ← List.append_assoc, List.append_left_inj]
  rw [two, ← Blank.dropTrailing_eq_self_iff, eq_comm (a := settled ++ _), List.append_assoc]
  exact List.append_left_inj _

/-- What was cut off at the end of an address spoils the host or becomes a part of the path. -/
theorem not_isEndpoint_of_trailing (plain : IsPlainPath path)
    (parts : HasParts server front authority rest) (cut : trailing text ≠ [])
    (root : cleanedFront (Blank.dropTrailing '/' text).toList =
      front ++ authority ++ (rest ++ trailing text)) :
    ¬ IsEndpoint server path (Blank.dropTrailing '/' text ++ "/" ++ path) := by
  have margins := Url.margin_of_trailing text
  have made := cleaned_endpoint (Blank.dropTrailing '/' text)
    fun c mem => (plain.inner c mem).1
  have marks : ∀ c ∈ path.toList, c ≠ '?' ∧ c ≠ '#' := fun c mem => (plain.inner c mem).2
  have ends : ∀ c ∈ trailing text, Url.endsAuthority true c = false :=
    fun c mem => (Url.margin_character (margins c mem)).1
  rw [root] at made
  rintro ⟨url, read, -, -, -, -, -, same⟩
  cases rest with
  | nil =>
      have named : IsAuthority (authority ++ trailing text) :=
        ⟨by simp [cut], List.forall_mem_append.mpr ⟨parts.named.inside, ends⟩⟩
      obtain ⟨before, c, split⟩ := (List.eq_nil_or_concat' (trailing text)).resolve_left cut
      rw [Url.parse?_append parts.begins parts.special parts.remote named
        (parts.behind.append_slash marks) (by simp [made]), split, ← List.append_assoc,
        Url.authority?_margin (margins c (by simp [split]))] at read
      cases read
  | cons c rest =>
      have further : IsRest (c :: rest ++ trailing text) := by
        refine parts.behind.append parts.behind.rooted fun d mem => ?_
        have other := ends d mem
        rw [← Bool.not_eq_true, Url.endsAuthority_iff] at other
        exact not_or.mp (not_or.mp other).2
      rw [parts.parse?_append (further.append_slash marks) (by simp [made])] at read
      cases read
      have longer := Url.length_pathBehind_lt parts.special parts.remote
        (parts.behind.rooted c rfl) rest cut margins
      rw [← parts.path] at longer
      have path_eq := congrArg String.toList same
      rw [Url.pathBehind_append_plain parts.special parts.remote further.rooted plain,
        String.toList_append, String.toList_append, List.append_assoc] at path_eq
      have shorter := Blank.length_dropTrailing_le '/' server.path.text
      rw [← List.append_cancel_right path_eq] at shorter
      omega

/-- A path is put behind the text of a server's address rightly if the text is a root. -/
theorem isEndpoint_iff (read : Url.parse? text = some server) (web : server.isHttp = true)
    (plain : IsPlainPath path) :
    IsEndpoint server path (Blank.dropTrailing '/' text ++ "/" ++ path) ↔ IsRoot text := by
  by_cases marks : ∀ c ∈ text.toList, c ≠ '?' ∧ c ≠ '#'
  · have within : ∀ c ∈ cleaned text, c ≠ '?' ∧ c ≠ '#' :=
      fun c mem => marks c (Url.mem_of_cleaned mem)
    obtain ⟨noQuery, noFragment⟩ := (Url.eq_none_iff read web).mpr within
    obtain ⟨front, authority, rest, whole, parts⟩ :=
      Url.exists_parts read web noQuery noFragment
    obtain ⟨behind, n, root, rest_eq, closed⟩ := exists_rest whole parts.named
    by_cases cut : trailing text = []
    · rw [cut, List.append_nil] at rest_eq
      rw [isEndpoint_iff_of_closed plain parts root rest_eq]
      exact ⟨fun single => ⟨marks, cut, single⟩, fun is => is.single⟩
    · rw [closed cut, List.replicate_zero, List.append_nil] at rest_eq
      rw [← rest_eq] at root
      exact iff_of_false (not_isEndpoint_of_trailing plain parts cut root) fun is => cut is.closed
  · exact iff_of_false (fun right => marks (right.marks plain web)) fun is => marks is.plain

end Parts

/-! ### Servers -/

/-- A plain path does not begin with a slash. -/
theorem dropLeading_of_plain {path : String} (plain : IsPlainPath path) :
    Blank.dropLeading '/' path = path := by
  rw [Blank.dropLeading, ← String.toList_inj, String.toList_ofList]
  cases made : path.toList with
  | nil => rfl
  | cons c rest =>
      refine List.dropWhile_cons_of_neg fun slash => ?_
      have first : Split.pieces '/' path.toList = [] :: Split.pieces '/' rest := by
        rw [made, beq_iff_eq.mp slash, ← List.nil_append ('/' :: rest),
          Split.pieces_append List.not_mem_nil]
      exact (plain [] (first ▸ List.mem_cons_self)).1 rfl

theorem web_of_validate {config : Config} (valid : config.validate = .ok ()) :
    (∃ server, Url.parse? config.memberNode = some server ∧ server.isHttp = true) ∧
      ∀ address ∈ config.storageApiUrl, ∃ server, Url.parse? address = some server := by
  unfold Config.validate at valid
  split_ifs at valid with node storage
  constructor
  · rw [Bool.not_eq_true, Bool.not_eq_false', Config.isWebAddress] at node
    cases read : Url.parse? config.memberNode with
    | none => simp [read] at node
    | some server => exact ⟨server, rfl, by simpa [read] using node⟩
  · intro address set
    rw [Option.mem_def.mp set] at storage
    simpa [Option.isNone_iff_eq_none, Option.ne_none_iff_exists'] using storage

theorem baseUrl_of_ofUrl {address token agent : String} {node : MemberNode}
    (made : MemberNode.ofUrl address token agent = .ok node) :
    node.baseUrl = Blank.dropTrailing '/' address := by
  unfold MemberNode.ofUrl at made
  split at made
  · cases made
  · split_ifs at made
    cases made
    rfl

/-- **Endpoints are right for roots.** Of an accepted configuration, the addresses of the ping and
of a new object at the member node are read as the place of the node with their paths behind the
node's if and only if the text of its address is a root. So are those of all plain paths at the
storage service, if it is one by `http` or `https`. -/
theorem endpoints_of_roots {config : Config} (valid : config.validate = .ok ())
    (token agent : String) :
    (∀ node, MemberNode.ofUrl config.memberNode token agent = .ok node →
      ∃ server, Url.parse? config.memberNode = some server ∧
        ∀ path ∈ ["monitor/ping", "object"],
          (IsEndpoint server path (node.url path) ↔ IsRoot config.memberNode)) ∧
    ∀ address, config.storageApiUrl = some address →
      ∃ server, Url.parse? address = some server ∧ (server.isHttp = true →
        ∀ path, IsPlainPath path →
          (IsEndpoint server path ((StorageService.ofUrl address token).url path) ↔
            IsRoot address)) := by
  have plain : ∀ path ∈ ["monitor/ping", "object"], IsPlainPath path := by decide
  refine ⟨fun node made => ?_, fun address set => ?_⟩
  · obtain ⟨server, read, web⟩ := (web_of_validate valid).1
    refine ⟨server, read, fun path mem => ?_⟩
    rw [MemberNode.url, baseUrl_of_ofUrl made, dropLeading_of_plain (plain path mem)]
    exact isEndpoint_iff read web (plain path mem)
  · obtain ⟨server, read⟩ := (web_of_validate valid).2 address set
    refine ⟨server, read, fun web path plain => ?_⟩
    rw [StorageService.url, dropLeading_of_plain plain]
    exact isEndpoint_iff read web plain

/-- Slashes at the end of a node's address do not matter. -/
theorem endpoint_behind_slashes :
    ∃ node server,
      ({ Config.default with memberNode := "https://example.org/d1/mn/v2//" } :
        Config).validate = .ok () ∧
      MemberNode.ofUrl "https://example.org/d1/mn/v2//" "token" "agent" = .ok node ∧
      Url.parse? "https://example.org/d1/mn/v2//" = some server ∧
      IsEndpoint server "object" (node.url "object") := by
  have valid : ({ Config.default with memberNode := "https://example.org/d1/mn/v2//" } :
      Config).validate = .ok () := by
    decide +kernel
  have made : MemberNode.ofUrl "https://example.org/d1/mn/v2//" "token" "agent" =
      .ok ⟨"https://example.org/d1/mn/v2", "token", "agent"⟩ := by
    decide +kernel
  have probe : Url.parse? (Blank.dropTrailing '/' "https://example.org/d1/mn/v2//" ++ "/") =
      some ⟨"https", "", "", some (.domain "example.org"), none,
        .segments ["d1", "mn", "v2", ""], none, none⟩ := by
    decide +kernel
  have root : IsRoot "https://example.org/d1/mn/v2//" := by
    refine ⟨List.all_iff_forall_prop.mp (by decide), by decide, fun url read => ?_⟩
    rw [probe] at read
    cases read
    decide
  obtain ⟨server, read, right⟩ := (endpoints_of_roots valid "token" "agent").1 _ made
  exact ⟨_, server, valid, made, read, (right "object" (by decide)).mpr root⟩

/-- Whether an address of a node is accepted, but no object is sent below the node. -/
def IsMissed (address : String) : Prop :=
  ∃ node server, ({ Config.default with memberNode := address } : Config).validate = .ok () ∧
    MemberNode.ofUrl address "token" "agent" = .ok node ∧
    Url.parse? address = some server ∧ ¬ IsEndpoint server "object" (node.url "object")

theorem isMissed_of_not_isRoot {address : String}
    (valid : ({ Config.default with memberNode := address } : Config).validate = .ok ())
    (made : MemberNode.ofUrl address "token" "agent" =
      .ok ⟨Blank.dropTrailing '/' address, "token", "agent"⟩)
    (other : ¬ IsRoot address) : IsMissed address := by
  obtain ⟨server, read, web⟩ := (web_of_validate valid).1
  have plain : IsPlainPath "object" := by decide
  refine ⟨_, server, valid, made, read, fun right => other ?_⟩
  rw [MemberNode.url, dropLeading_of_plain plain] at right
  exact (isEndpoint_iff read web plain).mp right

/-- Missed are addresses with a space at the end, with a query, and with a line end behind a
slash. -/
theorem accepted_without_endpoints :
    IsMissed "https://example.org/mn " ∧ IsMissed "https://example.org/mn?v=2" ∧
      IsMissed "https://example.org/mn/\n" := by
  have probe : Url.parse? (Blank.dropTrailing '/' "https://example.org/mn/\n" ++ "/") =
      some ⟨"https", "", "", some (.domain "example.org"), none, .segments ["mn", "", ""], none,
        none⟩ := by
    decide +kernel
  refine ⟨isMissed_of_not_isRoot (by decide +kernel) (by decide +kernel) fun root => ?_,
    isMissed_of_not_isRoot (by decide +kernel) (by decide +kernel) fun root => ?_,
    isMissed_of_not_isRoot (by decide +kernel) (by decide +kernel) fun root => ?_⟩
  · exact absurd root.closed (by decide)
  · exact absurd (List.all_iff_forall_prop.mpr root.plain) (by decide)
  · exact root.single _ probe (by decide)

end Deposit
