import Deposit.Proofs.Json.Reader
import Deposit.Proofs.Text.Base64Url
import Deposit.Proofs.Text.Blank
import Deposit.Proofs.Text.Split
import Deposit.Publication.Run

/-!
The id that a token names, told by how the token is written: its second segment holds claims, and
of the members of the claims the last `userId` counts (`Names`). A token that is not written so
names nobody, and no session is opened with it (`userId_of_token`).
-/

namespace Deposit.Identity

/-! ### Segments and padding -/

/-- What stands behind a segment of a token: nothing, or the next dot. -/
def Behind (rest : List Char) : Prop := ∀ c ∈ rest.head?, c = '.'

theorem behind_cases {rest : List Char} (behind : Behind rest) :
    rest = [] ∨ ∃ more, rest = '.' :: more := by
  cases rest with
  | nil => exact .inl rfl
  | cons c more => exact .inr ⟨more, by rw [behind c rfl]⟩

/-- The second segment stands between the first dot and the next one. -/
theorem pieces_eq_cons_cons_iff {token payload : List Char} :
    (∃ first others, Split.pieces '.' token = first :: payload :: others) ↔
      ∃ first rest, token = first ++ '.' :: (payload ++ rest) ∧ '.' ∉ first ∧ '.' ∉ payload ∧
        Behind rest := by
  constructor
  · rintro ⟨first, others, split⟩
    rcases Split.pieces_cases '.' token with ⟨-, one⟩ | ⟨before, behind, rfl, absent, more⟩
    · rw [one] at split
      cases split
    rw [more] at split
    have split' := (List.cons.inj split).2
    rcases Split.pieces_cases '.' behind with
      ⟨absent', one⟩ | ⟨before', behind', rfl, absent', more'⟩
    · rw [one] at split'
      obtain rfl := (List.cons.inj split').1
      exact ⟨before, [], by rw [List.append_nil], absent, absent', fun _ none => by cases none⟩
    · rw [more'] at split'
      obtain rfl := (List.cons.inj split').1
      exact ⟨before, '.' :: behind', rfl, absent, absent',
        fun _ same => (Option.some.inj same).symm⟩
  · rintro ⟨first, rest, rfl, absent, absent', behind⟩
    rw [Split.pieces_append absent]
    rcases behind_cases behind with rfl | ⟨more, rfl⟩
    · rw [List.append_nil, Split.pieces_of_not_mem absent']
      exact ⟨first, [], rfl⟩
    · rw [Split.pieces_append absent']
      exact ⟨first, _, rfl⟩

/-- The segment that holds bytes: their symbols, padded or not. -/
theorem decode_payload_iff {payload : List Char} {bytes : Bytes} :
    Base64Url.decode (Utf8.bytes (Blank.dropTrailing '=' (String.ofList payload))) = .ok bytes ↔
      ∃ pads, payload = Base64Url.written bytes ++ List.replicate pads '=' := by
  rw [Utf8.bytes, Base64Url.decode_encode_text]
  constructor
  · intro held
    obtain ⟨pads, split⟩ := Blank.exists_dropTrailing '=' payload
    exact ⟨pads, held ▸ split⟩
  · rintro ⟨pads, rfl⟩
    have absent : '=' ∉ Base64Url.written bytes := fun mem => (Base64Url.mem_written mem).2 rfl
    rw [Blank.dropTrailing_append absent, String.toList_ofList]

theorem claims_eq_ok_iff {token : String} {value : Json} :
    claims token = .ok value ↔ ∃ first bytes pads rest, Json.parse bytes = .ok value ∧
      token.toList = first ++ '.' :: (Base64Url.written bytes ++ List.replicate pads '=' ++ rest) ∧
      '.' ∉ first ∧ Behind rest := by
  constructor
  · intro read
    unfold claims at read
    split at read
    · next first payload others split =>
      obtain ⟨first, rest, source, absent, -, behind⟩ := pieces_eq_cons_cons_iff.mp ⟨_, _, split⟩
      simp only at read
      split at read
      · cases read
      next bytes decoded =>
      obtain ⟨pads, rfl⟩ := decode_payload_iff.mp decoded
      split at read
      · cases read
      next value parsed =>
      cases read
      exact ⟨first, bytes, pads, rest, parsed, source, absent, behind⟩
    · cases read
  · rintro ⟨first, bytes, pads, rest, parsed, source, absent, behind⟩
    have absent' : '.' ∉ Base64Url.written bytes ++ List.replicate pads '=' := by
      intro mem
      rcases List.mem_append.mp mem with mem | mem
      · exact (Base64Url.mem_written mem).1 rfl
      · exact absurd (List.eq_of_mem_replicate mem) (by decide)
    obtain ⟨_, _, split⟩ :=
      pieces_eq_cons_cons_iff.mpr ⟨first, rest, source, absent, absent', behind⟩
    simp only [claims, split, decode_payload_iff.mpr ⟨pads, rfl⟩, parsed]

/-! ### Claims -/

theorem string?_eq_some_iff {value : Json} {s : String} :
    value.string? = some s ↔ value = .str s := by
  cases value <;> simp [Json.string?]

theorem claimedId?_eq_some_iff {value : Json} {id : String} :
    claimedId? value = some id ↔
      value.get? "userId" = some (.str id) ∧ Blank.isBlankText id = false := by
  have member : (value.get? "userId").bind Json.string? = some id ↔
      value.get? "userId" = some (.str id) := by
    rw [Option.bind_eq_some_iff]
    simp only [string?_eq_some_iff, exists_eq_right]
  rw [← member, claimedId?]
  cases found : (value.get? "userId").bind Json.string? with
  | none => simp
  | some id' =>
      simp only [Option.some.injEq]
      by_cases blank : Blank.isBlankText id' = true
      · rw [if_pos blank]
        simp only [reduceCtorEq, false_iff]
        rintro ⟨rfl, solid⟩
        rw [blank] at solid
        cases solid
      · rw [if_neg blank, Option.some.injEq]
        refine ⟨fun same => ⟨same, same ▸ ?_⟩, And.left⟩
        simpa using blank

/-- Where a text has another one in it. -/
theorem occurs_iff {part text : List Char} : occurs part text = true ↔ part <:+: text := by
  induction text with
  | nil => rw [occurs, List.isEmpty_iff, List.infix_nil]
  | cons c rest ih =>
      rw [occurs, Bool.or_eq_true, List.isPrefixOf_iff_prefix, ih, List.infix_cons_iff]

theorem isOrcid_iff {id : String} : isOrcid id = true ↔ "orcid.org".toList <:+: id.toList :=
  occurs_iff

/-! ### Tokens -/

/-- A token that names a user: between its first dot and the next one, if there is one, stand the
symbols of claims, padded or not. The claims are an object, and the last of its members with the key
`userId` is a text that is not blank. -/
inductive Names : List Char → String → Prop where
  | mk {first claims rest : List Char} {pads : Nat} {ms : List (String × Json)} {id : String}
    (segment : '.' ∉ first) (behind : Behind rest) (object : Json.ObjectDocument claims ms)
    (last : Dictionary.Last "userId" (.str id) ms) (solid : Blank.isBlankText id = false) :
    Names (first ++ '.' :: (Base64Url.written (Utf8.encode claims) ++ List.replicate pads '=' ++
      rest)) id

/-- The claims of a token have an id exactly if the token names it. -/
theorem names_iff {token : String} {id : String} :
    Names token.toList id ↔ ∃ value, claims token = .ok value ∧ claimedId? value = some id := by
  constructor
  · intro names
    generalize source : token.toList = text at names
    obtain ⟨segment, behind, object, last, solid⟩ := names
    obtain ⟨value, parsed, found⟩ := Json.parse_member_iff.mpr ⟨_, _, rfl, object, last⟩
    exact ⟨value, claims_eq_ok_iff.mpr ⟨_, _, _, _, parsed, source, segment, behind⟩,
      claimedId?_eq_some_iff.mpr ⟨found, solid⟩⟩
  · rintro ⟨value, read, claimed⟩
    obtain ⟨first, bytes, pads, rest, parsed, source, segment, behind⟩ := claims_eq_ok_iff.mp read
    obtain ⟨found, solid⟩ := claimedId?_eq_some_iff.mp claimed
    obtain ⟨text, ms, rfl, object, last⟩ := Json.parse_member_iff.mp ⟨value, parsed, found⟩
    rw [source]
    exact ⟨segment, behind, object, last, solid⟩

/-- The id that is given for a claimed one: an ORCID iD as an address with `https`. -/
def given (id : String) : String := if isOrcid id then secured id else id

theorem userId_eq_ok_iff {token r : String} :
    userId token = .ok r ↔ ∃ id, Names token.toList id ∧ r = given id := by
  simp only [names_iff]
  unfold userId
  split
  · next e read => simp [read]
  next value read =>
  split
  · next none => simp [read, none]
  · next id claimed =>
    simp only [Except.ok.injEq, read, given]
    constructor
    · rintro rfl
      exact ⟨id, ⟨value, rfl, claimed⟩, rfl⟩
    · rintro ⟨id', ⟨value', rfl, claimed'⟩, rfl⟩
      obtain rfl := Option.some.inj (claimed.symm.trans claimed')
      rfl

/-- Where the repository is there, a session is opened with the id that the token gives, or the
credentials are invalid. -/
theorem authenticate_fst {w : World} {s : Session} (there : w.pingAnswer s.journal = .ok ())
    (token : String) :
    (w.authenticate token s).1 =
      (userId token).mapError fun fault => .auth (.invalidCredentials fault.message) := by
  simp only [World.authenticate, World.ping, bind, Act.andThen, Act.rename, Act.call, Act.ask,
    there, Act.ofExcept]
  cases userId token <;> rfl

/-- A token that names an id gives it, character for character, or as an address with `https` if
`orcid.org` stands in it; and no other token gives one: with it, the credentials are invalid. -/
theorem userId_of_token (token : String) :
    (∀ id, Names token.toList id →
      ("orcid.org".toList <:+: id.toList → userId token = .ok (secured id)) ∧
      (¬ "orcid.org".toList <:+: id.toList → userId token = .ok id)) ∧
    (∀ r, userId token = .ok r → ∃ id, Names token.toList id ∧
      ("orcid.org".toList <:+: id.toList → r = secured id) ∧
      (¬ "orcid.org".toList <:+: id.toList → r = id)) ∧
    ((∀ id, ¬ Names token.toList id) → ∃ fault, userId token = .error fault ∧
      ∀ (w : World) (s : Session), w.pingAnswer s.journal = .ok () →
        (w.authenticate token s).1 = .error (.auth (.invalidCredentials fault.message))) := by
  refine ⟨fun id names => ?_, fun r read => ?_, fun nobody => ?_⟩
  · have read := userId_eq_ok_iff.mpr ⟨id, names, rfl⟩
    rw [given] at read
    refine ⟨fun orcid => ?_, fun other => ?_⟩
    · rwa [if_pos (isOrcid_iff.mpr orcid)] at read
    · rwa [if_neg fun orcid => other (isOrcid_iff.mp orcid)] at read
  · obtain ⟨id, names, rfl⟩ := userId_eq_ok_iff.mp read
    rw [given]
    exact ⟨id, names, fun orcid => if_pos (isOrcid_iff.mpr orcid),
      fun other => if_neg fun orcid => other (isOrcid_iff.mp orcid)⟩
  · cases read : userId token with
    | ok r =>
        obtain ⟨id, names, -⟩ := userId_eq_ok_iff.mp read
        exact absurd names (nobody id)
    | error fault =>
        refine ⟨fault, rfl, fun w s there => ?_⟩
        rw [authenticate_fst there, read]
        rfl

/-- The last of two members counts, and escapes and padding are read. -/
example :
    (userId "e30.eyJ1c2VySWQiOiJ4IiwidXNlcklkIjoiXHUwMGU5In0==.s").toOption = some "é" := by
  decide +kernel

end Deposit.Identity
