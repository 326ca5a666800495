import Deposit.Proofs.Json.Steps
import Deposit.Proofs.Text.Dictionary

/-!
The reader reads the texts of the grammar, each as the value that it spells, and nothing else
(`parse_eq_ok_iff`).

A value is followed through the levels of nesting, and the items of a level through the fuel for
them, with one argument for arrays and for objects (`further_of_reads`, `reads_of_enclosed`). What
stands behind a value matters for numbers alone, which end at the first byte that is none of theirs
(`Ends`).
-/

namespace Deposit.Json

variable {fuel depth : Nat} {s rest : Bytes}

/-! ### Sequences -/

section

variable {α : Type} {item : List Char → α → Prop} {closing : UInt8}

/-- What may stand between brackets from a position on. -/
inductive Further (item : List Char → α → Prop) : Position → List Char → List α → Prop where
  | spaces {position : Position} {spaces : List Char} (blank : Spaces spaces) :
    Further item position spaces []
  | first {text : List Char} {as : List α} (listed : Listed item text as) :
    Further item .first text as
  | later {spaces text : List Char} {as : List α} (blank : Spaces spaces)
    (listed : Listed item text as) : Further item .later (spaces ++ ',' :: text) as

theorem Spaces.append {spaces spaces' : List Char} (blank : Spaces spaces)
    (blank' : Spaces spaces') : Spaces (spaces ++ spaces') :=
  fun c mem => (List.mem_append.mp mem).elim (blank c) (blank' c)

theorem spaces_nil : Spaces [] := fun _ mem => absurd mem List.not_mem_nil

/-- An item and what follows it. -/
theorem Further.cons {before shown text : List Char} {a : α} {as : List α} (blank : Spaces before)
    (spelled : item shown a) (further : Further item .later text as) :
    Listed item (before ++ shown ++ text) (a :: as) := by
  cases further with
  | spaces blank' => exact .one blank blank' spelled
  | later blank' listed =>
      rw [← List.append_assoc]
      exact .more blank blank' spelled listed

theorem skipBlank_solid {spaces : List Char} (blank : Spaces spaces) {b : UInt8}
    (solid : isSpace b = false) (s : Bytes) :
    skipBlank (Utf8.encode spaces ++ b :: s) = b :: s := by
  rw [skipBlank_spaces blank, skipBlank_cons solid]

theorem encode_comma (before behind : List Char) (s : Bytes) :
    Utf8.encode (before ++ ',' :: behind) ++ s =
      Utf8.encode before ++ 0x2C :: (Utf8.encode behind ++ s) := by
  rw [Utf8.encode_append, Utf8.encode_cons, List.append_assoc, List.append_assoc]
  rfl

/-- What follows an item ends it. -/
theorem Further.ends {text : List Char} {as : List α} (further : Further item .later text as)
    (bracket : closing = 0x5D ∨ closing = 0x7D) (rest : Bytes) :
    Ends (Utf8.encode text ++ closing :: rest) := by
  have solid : isSpace closing = false := by rcases bracket with rfl | rfl <;> rfl
  refine ends_of_skipBlank ?_
  cases further with
  | spaces blank =>
      rw [skipBlank_solid blank solid]
      rintro _ ⟨⟩
      rcases bracket with rfl | rfl <;> decide
  | later blank listed =>
      rw [encode_comma, skipBlank_solid blank (by decide)]
      rintro _ ⟨⟩
      decide

variable (one : Nat → Bytes → α → Bytes → Prop)
  (reads : Nat → Position → Bytes → List α → Bytes → Prop)

/-- What is read between brackets is spelled there, if what is read of an item is. -/
theorem further_of_reads (bracket : closing = 0x5D ∨ closing = 0x7D)
    (zero : ∀ position s as rest, ¬ reads 0 position s as rest)
    (step : ∀ fuel position s as rest, reads (fuel + 1) position s as rest →
      Goes closing (one fuel) (reads fuel .later) position s as rest)
    (sound : ∀ fuel s a rest, one fuel s a rest → Ends rest →
      ∃ before shown, Spaces before ∧ item shown a ∧ s = Utf8.encode (before ++ shown) ++ rest) :
    ∀ fuel position s as rest, reads fuel position s as rest →
      ∃ text, Further item position text as ∧ s = Utf8.encode text ++ closing :: rest := by
  intro fuel
  induction fuel with
  | zero => exact fun position s as rest read => absurd read (zero position s as rest)
  | succ fuel ih =>
      intro position s as rest read
      obtain ⟨spaces, blank, split⟩ := exists_spaces s
      cases step fuel position s as rest read with
      | ends here => exact ⟨spaces, .spaces blank, here ▸ split⟩
      | first here goes one_read others =>
          next more behind b a as =>
          obtain ⟨text, further, rfl⟩ := ih _ _ _ _ others
          obtain ⟨before, shown, blank', spelled, source⟩ :=
            sound _ _ _ _ one_read (further.ends bracket rest)
          refine ⟨_, .first (further.cons (blank.append blank') spelled), ?_⟩
          rw [split, here, source]
          simp only [Utf8.encode_append, List.append_assoc]
      | later comma here goes one_read others =>
          next s' more behind b a as =>
          obtain ⟨spaces', blank'', split'⟩ := exists_spaces s'
          obtain ⟨text, further, rfl⟩ := ih _ _ _ _ others
          obtain ⟨before, shown, blank', spelled, source⟩ :=
            sound _ _ _ _ one_read (further.ends bracket rest)
          refine ⟨_, .later blank (further.cons (blank''.append blank') spelled), ?_⟩
          rw [encode_comma, split, comma, split', here, source]
          simp only [Utf8.encode_append, List.append_assoc]

/-- A text that begins neither with white space nor with what may follow a value. -/
def Solid (text : List Char) : Prop :=
  ∃ b more, Utf8.encode text = b :: more ∧ isSpace b = false ∧ b ≠ 0x2C ∧ b ≠ 0x5D ∧ b ≠ 0x7D

theorem Solid.behind_spaces {before shown : List Char} (solid : Solid shown) (blank : Spaces before)
    (bracket : closing = 0x5D ∨ closing = 0x7D) (s : Bytes) :
    ∃ b more, skipBlank (Utf8.encode (before ++ shown) ++ s) = b :: more ∧ b ≠ closing ∧
      b :: more = Utf8.encode shown ++ s := by
  obtain ⟨b, more, bytes, space, -, list, object⟩ := solid
  refine ⟨b, more ++ s, ?_, ?_, by rw [bytes]; rfl⟩
  · rw [Utf8.encode_append, bytes, List.append_assoc, List.cons_append, skipBlank_solid blank space]
  · rcases bracket with rfl | rfl
    · exact list
    · exact object

theorem Solid.length_pos {shown : List Char} (solid : Solid shown) : 1 ≤ shown.length := by
  obtain ⟨b, more, bytes, -⟩ := solid
  cases shown with
  | nil => cases bytes
  | cons c rest => simp

/-- What is spelled between brackets is read, if each item in it is. -/
theorem reads_of_listed (bracket : closing = 0x5D ∨ closing = 0x7D)
    (step : ∀ fuel position s as rest,
      Goes closing (one fuel) (reads fuel .later) position s as rest →
        reads (fuel + 1) position s as rest)
    (solid : ∀ shown a, item shown a → Solid shown)
    (complete : ∀ fuel shown a rest, item shown a → 2 * shown.length ≤ fuel → Ends rest →
      one fuel (Utf8.encode shown ++ rest) a rest)
    {text : List Char} {as : List α} (listed : Listed item text as) (rest : Bytes) :
    ∀ fuel, 2 * text.length ≤ fuel → ∃ b more behind a as',
      as = a :: as' ∧ skipBlank (Utf8.encode text ++ closing :: rest) = b :: more ∧ b ≠ closing ∧
        one fuel (b :: more) a behind ∧ reads fuel .later behind as' rest := by
  have closed : isSpace closing = false := by rcases bracket with rfl | rfl <;> rfl
  induction listed with
  | @one before shown after a blank blank' spelled =>
      intro fuel enough
      have some := (solid shown a spelled).length_pos
      simp only [List.length_append] at enough
      obtain ⟨fuel, rfl⟩ : ∃ f, fuel = f + 1 := ⟨fuel - 1, by omega⟩
      obtain ⟨b, more, here, goes, bytes⟩ :=
        (solid shown a spelled).behind_spaces blank bracket (Utf8.encode after ++ closing :: rest)
      refine ⟨b, more, Utf8.encode after ++ closing :: rest, a, [], rfl, ?_, goes, ?_, ?_⟩
      · rw [Utf8.encode_append, List.append_assoc, here]
      · rw [bytes]
        exact complete _ _ _ _ spelled (by omega)
          ((Further.spaces blank' : Further item _ _ _).ends bracket rest)
      · exact step _ _ _ _ _ (.ends (skipBlank_solid blank' closed rest))
  | @more before shown after others a as blank blank' spelled listed ih =>
      intro fuel enough
      have some := (solid shown a spelled).length_pos
      simp only [List.length_append, List.length_cons] at enough
      obtain ⟨fuel, rfl⟩ : ∃ f, fuel = f + 1 := ⟨fuel - 1, by omega⟩
      obtain ⟨b, more, here, goes, bytes⟩ := (solid shown a spelled).behind_spaces blank bracket
        (Utf8.encode (after ++ ',' :: others) ++ closing :: rest)
      obtain ⟨b', more', behind', a', as', rfl, here', goes', item_read, further⟩ :=
        ih fuel (by omega)
      refine ⟨b, more, Utf8.encode (after ++ ',' :: others) ++ closing :: rest, a, _, rfl, ?_, goes,
        ?_, ?_⟩
      · rw [List.append_assoc, Utf8.encode_append, List.append_assoc, here]
      · rw [bytes]
        exact complete _ _ _ _ spelled (by omega) ((Further.later blank' listed).ends bracket rest)
      · refine step _ _ _ _ _ (.later ?_ here' goes' item_read further)
        rw [encode_comma, skipBlank_solid blank' (by decide)]

/-- What stands between brackets is read to their end. -/
theorem reads_of_enclosed (bracket : closing = 0x5D ∨ closing = 0x7D)
    (step : ∀ fuel position s as rest,
      Goes closing (one fuel) (reads fuel .later) position s as rest →
        reads (fuel + 1) position s as rest)
    (solid : ∀ shown a, item shown a → Solid shown)
    (complete : ∀ fuel shown a rest, item shown a → 2 * shown.length ≤ fuel → Ends rest →
      one fuel (Utf8.encode shown ++ rest) a rest)
    {left right : Char} {text : List Char} {as : List α}
    (enclosed : Enclosed item left right text as) (rest : Bytes) {fuel : Nat}
    (enough : 2 * text.length ≤ fuel + 1) :
    ∃ inner, text = left :: inner ++ [right] ∧
      reads fuel .first (Utf8.encode inner ++ closing :: rest) as rest := by
  have closed : isSpace closing = false := by rcases bracket with rfl | rfl <;> rfl
  cases enclosed with
  | @empty spaces blank =>
      simp only [List.length_append, List.length_cons, List.length_nil] at enough
      obtain ⟨fuel, rfl⟩ : ∃ f, fuel = f + 1 := ⟨fuel - 1, by omega⟩
      exact ⟨spaces, rfl, step _ _ _ _ _ (.ends (skipBlank_solid blank closed rest))⟩
  | @items inner as listed =>
      simp only [List.length_append, List.length_cons, List.length_nil] at enough
      obtain ⟨fuel, rfl⟩ : ∃ f, fuel = f + 1 := ⟨fuel - 1, by omega⟩
      obtain ⟨b, more, behind, a, as', rfl, here, goes, item_read, further⟩ :=
        reads_of_listed one reads bracket step solid complete listed rest fuel (by omega)
      exact ⟨inner, rfl, step _ _ _ _ _ (.first here goes item_read further)⟩

end

/-! ### Values of any depth -/

theorem Spells.scalar {text : List Char} {v : Json} (scalar : Scalar text v) :
    ∀ {depth : Nat}, Spells depth text v
  | 0 => scalar
  | _ + 1 => .inl scalar

/-- A value is a scalar, or an array or object, as long as there is room for a level. -/
theorem Opens.cases {v : Json} (opens : Opens fuel depth s v rest) (ends : Ends rest) :
    (∃ shown, Scalar shown v ∧ s = Utf8.encode shown ++ rest) ∨
      (∃ s' vs, 1 < depth ∧ s = 0x5B :: s' ∧ v = .arr vs ∧
        items fuel (depth - 1) .first s' = .ok (vs, rest)) ∨
      ∃ s' ms, 1 < depth ∧ s = 0x7B :: s' ∧ v = Json.object ms ∧
        members fuel (depth - 1) .first s' = .ok (ms, rest) := by
  cases opens with
  | word mem => exact .inl ⟨_, .word mem, rfl⟩
  | negative read =>
      obtain ⟨text, alone, rfl⟩ := (number_eq_ok_iff ends.apart).mp read
      exact .inl ⟨_, .number (.negative alone), rfl⟩
  | positive read =>
      obtain ⟨text, alone, rfl⟩ := (number_eq_ok_iff ends.apart).mp read
      exact .inl ⟨_, .number (.positive alone), rfl⟩
  | string read =>
      obtain ⟨body, spelled, rfl⟩ := text_eq_ok_iff.mp read
      refine .inl ⟨_, .string spelled, ?_⟩
      rw [Utf8.encode_append, Utf8.encode_cons, List.append_assoc, List.append_assoc]
      rfl
  | array room read => exact .inr (.inl ⟨_, _, room, rfl, rfl, read⟩)
  | object room read => exact .inr (.inr ⟨_, _, room, rfl, rfl, read⟩)

theorem opens_of_scalar {shown : List Char} {v : Json} (scalar : Scalar shown v)
    (ends : Ends rest) : Opens fuel depth (Utf8.encode shown ++ rest) v rest := by
  cases scalar with
  | word mem => exact .word mem
  | number numeral =>
      cases numeral with
      | positive read => exact .positive ((number_eq_ok_iff ends.apart).mpr ⟨_, read, rfl⟩)
      | negative read => exact .negative ((number_eq_ok_iff ends.apart).mpr ⟨_, read, rfl⟩)
  | string spelled =>
      have read := text_eq_ok_iff.mpr ⟨_, spelled, Eq.refl (_ ++ 0x22 :: rest)⟩
      have opens : Opens fuel depth _ _ rest := .string read
      rw [Utf8.encode_append, Utf8.encode_cons, List.append_assoc, List.append_assoc]
      exact opens

theorem Further.enclosed {α : Type} {item : List Char → α → Prop} {inner : List Char} {as : List α}
    (further : Further item .first inner as) (opening closing : Char) :
    Enclosed item opening closing (opening :: inner ++ [closing]) as := by
  cases further with
  | spaces blank => exact .empty blank
  | first listed => exact .items listed

/-- What is read as a value with room for `depth` levels is spelled there. -/
def Sound (depth : Nat) : Prop :=
  ∀ (fuel : Nat) (s : Bytes) (v : Json) (rest : Bytes),
    value fuel (depth + 1) s = .ok (v, rest) → Ends rest →
      ∃ before shown, Spaces before ∧ Spells depth shown v ∧
        s = Utf8.encode (before ++ shown) ++ rest

theorem Sound.items (sound : Sound depth) {vs : List Json}
    (read : items fuel (depth + 1) .first s = .ok (vs, rest)) :
    ∃ text, Further (Spells depth) .first text vs ∧ s = Utf8.encode text ++ 0x5D :: rest :=
  further_of_reads
    (fun fuel s v rest => value fuel (depth + 1) s = .ok (v, rest))
    (fun fuel position s vs rest => Json.items fuel (depth + 1) position s = .ok (vs, rest))
    (.inl rfl) (fun _ _ _ _ read => by cases read) (fun _ _ _ _ _ read => goes_of_items read)
    sound _ _ _ _ _ read

theorem Sound.member (sound : Sound depth) {m : String × Json}
    (read : ReadsMember fuel (depth + 1) s m rest) (ends : Ends rest) :
    ∃ shown, Member (Spells depth) shown m ∧ s = Utf8.encode shown ++ rest := by
  obtain ⟨s', behind, behind', rfl, key, colon, read⟩ := read
  obtain ⟨body, spelled, rfl⟩ := text_eq_ok_iff.mp key
  obtain ⟨gap, blank, split⟩ := exists_spaces behind
  obtain ⟨gap', shown, blank', spelled', rfl⟩ := sound _ _ _ _ read ends
  refine ⟨_, .mk spelled blank blank' spelled', ?_⟩
  rw [split, colon]
  simp only [Utf8.encode_append, Utf8.encode_cons, List.append_assoc, List.cons_append]
  rfl

theorem Sound.members (sound : Sound depth) {ms : List (String × Json)}
    (read : members fuel (depth + 1) .first s = .ok (ms, rest)) :
    ∃ text, Further (Member (Spells depth)) .first text ms ∧
      s = Utf8.encode text ++ 0x7D :: rest :=
  further_of_reads
    (fun fuel s m rest => ReadsMember fuel (depth + 1) s m rest)
    (fun fuel position s ms rest => Json.members fuel (depth + 1) position s = .ok (ms, rest))
    (.inr rfl) (fun _ _ _ _ read => by cases read) (fun _ _ _ _ _ read => goes_of_members read)
    (fun _ _ _ _ read ends => by
      obtain ⟨shown, member, source⟩ := sound.member read ends
      exact ⟨[], shown, spaces_nil, member, source⟩)
    _ _ _ _ _ read

theorem encode_enclosed (opening closing : Char) (inner : List Char) (rest : Bytes) :
    Utf8.encode (opening :: inner ++ [closing]) ++ rest = String.utf8EncodeChar opening ++
      (Utf8.encode inner ++ (String.utf8EncodeChar closing ++ rest)) := by
  simp only [Utf8.encode_append, Utf8.encode_cons, Utf8.encode_nil, List.append_assoc,
    List.cons_append, List.append_nil]

/-- A value is sound if the ones that it holds are. -/
theorem sound_of_inner (inner : ∀ d, depth = d + 1 → Sound d) : Sound depth := by
  intro fuel s v rest read ends
  cases fuel with
  | zero => cases read
  | succ fuel =>
      obtain ⟨before, blank, split⟩ := exists_spaces s
      rcases (value_eq_ok_iff.mp read).cases ends with ⟨shown, scalar, here⟩ |
        ⟨s', vs, room, here, rfl, items⟩ | ⟨s', ms, room, here, rfl, members⟩
      · refine ⟨before, shown, blank, .scalar scalar, ?_⟩
        rw [Utf8.encode_append, List.append_assoc, ← here, ← split]
      · obtain ⟨depth, rfl⟩ : ∃ d, depth = d + 1 := ⟨depth - 1, by omega⟩
        obtain ⟨text, further, rfl⟩ := (inner depth rfl).items items
        refine ⟨before, _, blank, .inr (.inl ⟨vs, further.enclosed '[' ']', rfl⟩), ?_⟩
        rw [split, here, Utf8.encode_append, List.append_assoc, encode_enclosed]
        rfl
      · obtain ⟨depth, rfl⟩ : ∃ d, depth = d + 1 := ⟨depth - 1, by omega⟩
        obtain ⟨text, further, rfl⟩ := (inner depth rfl).members members
        refine ⟨before, _, blank, .inr (.inr ⟨ms, further.enclosed '\x7b' '\x7d', rfl⟩), ?_⟩
        rw [split, here, Utf8.encode_append, List.append_assoc, encode_enclosed]
        rfl

theorem sound : ∀ depth, Sound depth
  | 0 => sound_of_inner fun _ none => absurd none (by omega)
  | depth + 1 => sound_of_inner fun _ same => Nat.succ.inj same ▸ sound depth

/-! ### What is spelled is read -/

theorem Scalar.solid {text : List Char} {v : Json} (scalar : Scalar text v) : Solid text := by
  cases scalar with
  | word mem =>
      simp only [words, List.mem_cons, Prod.mk.injEq, List.not_mem_nil, or_false] at mem
      rcases mem with ⟨rfl, rfl⟩ | ⟨rfl, rfl⟩ | ⟨rfl, rfl⟩
      all_goals exact ⟨_, _, rfl, rfl, by decide, by decide, by decide⟩
  | number numeral =>
      cases numeral with
      | positive read =>
          obtain ⟨b, more, bytes, digit⟩ := isDigit_of_number read
          have other {k : UInt8} (none : isDigit k = false) : b ≠ k := by
            rintro rfl
            rw [digit] at none
            cases none
          refine ⟨b, more, bytes, ?_, other rfl, other rfl, other rfl⟩
          simp only [isSpace, Bool.or_eq_false_iff, beq_eq_false_iff_ne]
          exact ⟨⟨⟨other rfl, other rfl⟩, other rfl⟩, other rfl⟩
      | negative read => exact ⟨_, _, rfl, rfl, by decide, by decide, by decide⟩
  | string spelled => exact ⟨_, _, rfl, rfl, by decide, by decide, by decide⟩

theorem Spells.solid {text : List Char} {v : Json} (spelled : Spells depth text v) :
    Solid text := by
  cases depth with
  | zero => exact Scalar.solid spelled
  | succ depth =>
      rcases spelled with scalar | ⟨vs, enclosed, -⟩ | ⟨ms, enclosed, -⟩
      · exact scalar.solid
      · cases enclosed <;> exact ⟨_, _, rfl, rfl, by decide, by decide, by decide⟩
      · cases enclosed <;> exact ⟨_, _, rfl, rfl, by decide, by decide, by decide⟩

theorem Member.solid {value : List Char → Json → Prop} {text : List Char} {m : String × Json}
    (member : Member value text m) : Solid text := by
  cases member
  exact ⟨_, _, rfl, rfl, by decide, by decide, by decide⟩

/-- A value is read behind white space. -/
theorem value_behind_spaces {spaces : List Char} {v : Json} (blank : Spaces spaces)
    (read : value fuel depth s = .ok (v, rest)) :
    value fuel depth (Utf8.encode spaces ++ s) = .ok (v, rest) := by
  cases fuel with
  | zero => cases read
  | succ fuel => exact value_of_opens (skipBlank_spaces blank s ▸ opens_of_value read)

/-- What spells a value with `depth` levels is read as it. -/
def Complete (depth : Nat) : Prop :=
  ∀ (fuel : Nat) (shown : List Char) (v : Json) (rest : Bytes), Spells depth shown v →
    2 * shown.length ≤ fuel → Ends rest →
      value fuel (depth + 1) (Utf8.encode shown ++ rest) = .ok (v, rest)

theorem Complete.items (complete : Complete depth) {text : List Char} {vs : List Json}
    (enclosed : Enclosed (Spells depth) '[' ']' text vs) (rest : Bytes)
    (enough : 2 * text.length ≤ fuel + 1) : ∃ inner, text = '[' :: inner ++ [']'] ∧
      items fuel (depth + 1) .first (Utf8.encode inner ++ 0x5D :: rest) = .ok (vs, rest) :=
  reads_of_enclosed
    (fun fuel s v rest => value fuel (depth + 1) s = .ok (v, rest))
    (fun fuel position s vs rest => Json.items fuel (depth + 1) position s = .ok (vs, rest))
    (.inl rfl) (fun _ _ _ _ _ goes => items_of_goes goes) (fun _ _ spelled => spelled.solid)
    complete enclosed rest enough

theorem Complete.member (complete : Complete depth) {shown : List Char} {m : String × Json}
    (member : Member (Spells depth) shown m) (enough : 2 * shown.length ≤ fuel) (ends : Ends rest) :
    ReadsMember fuel (depth + 1) (Utf8.encode shown ++ rest) m rest := by
  obtain ⟨spelled, blank, blank', spelled'⟩ := member
  next body gap gap' shown key v =>
  simp only [List.length_append, List.length_cons] at enough
  refine ⟨_, Utf8.encode (gap ++ ':' :: gap' ++ shown) ++ rest,
    Utf8.encode (gap' ++ shown) ++ rest, ?_, text_eq_ok_iff.mpr ⟨body, spelled, rfl⟩, ?_, ?_⟩
  · simp only [Utf8.encode_append, Utf8.encode_cons, List.append_assoc, List.cons_append]
    rfl
  · rw [List.append_assoc, Utf8.encode_append, List.append_assoc]
    exact skipBlank_solid blank (by decide) _
  · rw [Utf8.encode_append, List.append_assoc]
    exact value_behind_spaces blank' (complete _ _ _ _ spelled' (by omega) ends)

theorem Complete.members (complete : Complete depth) {text : List Char}
    {ms : List (String × Json)} (enclosed : Enclosed (Member (Spells depth)) '\x7b' '\x7d' text ms)
    (rest : Bytes) (enough : 2 * text.length ≤ fuel + 1) :
    ∃ inner, text = '\x7b' :: inner ++ ['\x7d'] ∧
      members fuel (depth + 1) .first (Utf8.encode inner ++ 0x7D :: rest) = .ok (ms, rest) :=
  reads_of_enclosed
    (fun fuel s m rest => ReadsMember fuel (depth + 1) s m rest)
    (fun fuel position s ms rest => Json.members fuel (depth + 1) position s = .ok (ms, rest))
    (.inr rfl) (fun _ _ _ _ _ goes => members_of_goes goes) (fun _ _ member => member.solid)
    (fun _ _ _ _ member enough ends => complete.member member enough ends) enclosed rest enough

/-- A value is read if the ones that it holds are. -/
theorem complete_of_inner (inner : ∀ d, depth = d + 1 → Complete d) : Complete depth := by
  intro fuel shown v rest spelled enough ends
  obtain ⟨b, more, bytes, space, -⟩ := spelled.solid
  have some := spelled.solid.length_pos
  obtain ⟨fuel, rfl⟩ : ∃ f, fuel = f + 1 := ⟨fuel - 1, by omega⟩
  have here : skipBlank (Utf8.encode shown ++ rest) = Utf8.encode shown ++ rest := by
    rw [bytes, List.cons_append, skipBlank_cons space]
  rw [value_eq_ok_iff, here]
  cases depth with
  | zero => exact opens_of_scalar spelled ends
  | succ depth =>
      rcases spelled with scalar | ⟨vs, enclosed, rfl⟩ | ⟨ms, enclosed, rfl⟩
      · exact opens_of_scalar scalar ends
      · obtain ⟨text, rfl, read⟩ := (inner depth rfl).items enclosed rest enough
        rw [encode_enclosed]
        exact .array (by omega) read
      · obtain ⟨text, rfl, read⟩ := (inner depth rfl).members enclosed rest enough
        rw [encode_enclosed]
        exact .object (by omega) read

theorem complete : ∀ depth, Complete depth
  | 0 => complete_of_inner fun _ none => absurd none (by omega)
  | depth + 1 => complete_of_inner fun _ same => Nat.succ.inj same ▸ complete depth

/-! ### Texts -/

/-- Bytes are read as a value exactly if they are a text that holds it. -/
theorem parse_eq_ok_iff {input : Bytes} {v : Json} :
    parse input = .ok v ↔ ∃ text, Document text v ∧ input = Utf8.encode text := by
  constructor
  · intro read
    unfold parse at read
    split at read
    · cases read
    next v' rest value_read =>
    split at read
    · next none =>
      cases read
      obtain ⟨after, blank', split⟩ := exists_spaces rest
      have ends : Ends rest := ends_of_skipBlank (none ▸ fun _ mem => by cases mem)
      obtain ⟨before, shown, blank, spelled, rfl⟩ := sound _ _ _ _ _ value_read ends
      refine ⟨_, .mk blank spelled blank', ?_⟩
      rw [split, none, List.append_nil, ← Utf8.encode_append]
    · cases read
  · rintro ⟨_, ⟨blank, spelled, blank'⟩, rfl⟩
    next before shown after =>
    have ends : Ends (Utf8.encode after) := by
      refine ends_of_skipBlank ?_
      have none := skipBlank_spaces blank' []
      rw [List.append_nil] at none
      rw [none]
      exact fun _ mem => by cases mem
    have enough : 2 * shown.length ≤ 2 * (Utf8.encode (before ++ shown ++ after)).length + 2 := by
      have bytes := Utf8.length_le_length_encode (before ++ shown ++ after)
      simp only [List.length_append] at bytes
      omega
    have read := value_behind_spaces blank (complete _ _ _ _ _ spelled enough ends)
    rw [← List.append_assoc, ← Utf8.encode_append, ← Utf8.encode_append] at read
    unfold parse
    rw [show depthLimit = depthLimit - 1 + 1 from rfl, read]
    have none := skipBlank_spaces blank' []
    rw [List.append_nil] at none
    simp only [none]
    rfl

/-- A value that has a member under a key is an object that is written so. -/
theorem exists_objectDocument {text : List Char} {v w : Json} {key : String}
    (document : Document text v) (found : v.get? key = some w) :
    ∃ ms, ObjectDocument text ms ∧ v = object ms := by
  obtain ⟨blank, spelled, blank'⟩ := document
  rcases spelled with scalar | ⟨vs, -, rfl⟩ | ⟨ms, enclosed, rfl⟩
  · cases scalar with
    | word mem =>
        simp only [words, List.mem_cons, Prod.mk.injEq, List.not_mem_nil, or_false] at mem
        rcases mem with ⟨-, rfl⟩ | ⟨-, rfl⟩ | ⟨-, rfl⟩ <;> cases found
    | number => cases found
    | string => cases found
  · cases found
  · exact ⟨ms, ⟨blank, enclosed, blank'⟩, rfl⟩

/-- The text of an object is read as an object, and its member under a key is the last one with
it. -/
theorem parse_member_iff {input : Bytes} {key : String} {w : Json} :
    (∃ v, parse input = .ok v ∧ v.get? key = some w) ↔
      ∃ text ms, input = Utf8.encode text ∧ ObjectDocument text ms ∧ Dictionary.Last key w ms := by
  constructor
  · rintro ⟨v, read, found⟩
    obtain ⟨text, document, rfl⟩ := parse_eq_ok_iff.mp read
    obtain ⟨ms, written, rfl⟩ := exists_objectDocument document found
    exact ⟨text, ms, rfl, written, Dictionary.lookup_ofList_eq_some_iff.mp found⟩
  · rintro ⟨text, ms, rfl, ⟨blank, enclosed, blank'⟩, last⟩
    refine ⟨object ms, parse_eq_ok_iff.mpr ⟨_, .mk blank ?_ blank', rfl⟩, ?_⟩
    · exact .inr (.inr ⟨ms, enclosed, rfl⟩)
    · exact Dictionary.lookup_ofList_eq_some_iff.mpr last

end Deposit.Json
