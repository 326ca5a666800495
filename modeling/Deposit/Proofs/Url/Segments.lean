import Deposit.Proofs.Url.Reading
import Mathlib.Data.Bool.AllAny

/-!
Segments put behind a path.

What a path makes of its dots is settled segment by segment, but for its end: there a dot leaves a
slash (`resolve_append`, `resolve_concat`). So a plain path behind another one stays as it is behind
what the other has settled (`pathBehind_append_plain`), and so do slashes
(`pathBehind_append_slashes`).
-/

namespace Deposit.Url

/-! ### Dots -/

/-- Whether a segment stands for a place relative to it. -/
def isDot (segment : String) : Bool := isDoubleDot segment || isSingleDot segment

/-- A dot ends in a full stop, or in the code of one. -/
theorem suffix_of_isDot {segment : String} (dot : isDot segment = true) :
    ['.'] <:+ (Lowercase.ascii segment).toList ∨
      ['%', '2', 'e'] <:+ (Lowercase.ascii segment).toList := by
  have each : ∀ d ∈ ["..", "%2e.", ".%2e", "%2e%2e", ".", "%2e"],
      ['.'] <:+ d.toList ∨ ['%', '2', 'e'] <:+ d.toList := by decide
  refine each _ ?_
  simp only [isDot, isDoubleDot, isSingleDot, Bool.or_eq_true, List.contains_iff_mem] at dot
  exact List.mem_append.mpr dot

/-! ### Resolving -/

theorem goUp_false (done : List String) : goUp false done = done.dropLast := by
  unfold goUp
  split <;> rfl

/-- What is done behind segments of which none is the last one. -/
def settle (done : List String) : List String → List String
  | [] => done
  | s :: rest =>
    if isDoubleDot s then settle done.dropLast rest
    else if isSingleDot s then settle done rest
    else settle (done ++ [s]) rest

theorem resolve_append {rest : List String} (ne : rest ≠ []) (segments : List String) :
    ∀ done, resolve false done (segments ++ rest) = resolve false (settle done segments) rest := by
  induction segments with
  | nil => exact fun _ => rfl
  | cons s segments ih =>
      intro done
      have more : (segments ++ rest).isEmpty = false := by simp [ne]
      rw [List.cons_append, resolve, settle]
      simp only [more, Bool.false_eq_true, if_false, Bool.false_and, goUp_false]
      split_ifs
      exacts [ih _, ih _, ih _]

/-- Segments without dots stay as they are. -/
theorem resolve_eq_append {segments : List String} (plain : ∀ s ∈ segments, isDot s = false) :
    ∀ done, resolve false done segments = done ++ segments := by
  induction segments with
  | nil => exact fun done => (List.append_nil done).symm
  | cons s rest ih =>
      intro done
      obtain ⟨here, plain⟩ := List.forall_mem_cons.mp plain
      obtain ⟨double, single⟩ := Bool.or_eq_false_iff.mp here
      rw [resolve]
      simp only [double, single, Bool.false_eq_true, if_false, Bool.false_and, ih plain,
        List.append_assoc, List.singleton_append]

/-- What stands behind settled segments. -/
theorem settle_append (segments rest : List String) :
    ∀ done, settle done (segments ++ rest) = settle (settle done segments) rest := by
  induction segments with
  | nil => exact fun _ => rfl
  | cons s segments ih =>
      intro done
      rw [List.cons_append, settle, settle]
      split_ifs
      exacts [ih _, ih _, ih _]

/-- At the end a dot leaves a slash. -/
theorem resolve_concat (done segments : List String) (s : String) :
    resolve false done (segments ++ [s]) =
      settle (settle done segments) [s] ++ if isDot s then [""] else [] := by
  rw [resolve_append (List.cons_ne_nil s []), resolve, settle, isDot, goUp_false]
  cases isDoubleDot s <;> cases isSingleDot s <;> simp [resolve, settle]

/-! ### Texts -/

theorem toList_segments (segments : List String) :
    (Path.segments segments).text.toList = segments.flatMap fun s => '/' :: s.toList := by
  rw [Path.text, String.toList_join, List.flatMap_map]
  refine List.flatMap_congr fun s _ => ?_
  rw [String.toList_append]
  rfl

/-- A plain segment: letters, digits and hyphens. -/
def IsPlainSegment (segment : List Char) : Prop :=
  segment ≠ [] ∧ ∀ c ∈ segment, c.isAlphanum = true ∨ c = '-'

instance (segment : List Char) : Decidable (IsPlainSegment segment) :=
  decidable_of_iff _ (and_congr_right' (List.all_iff_forall_prop (p := fun c =>
    c.isAlphanum = true ∨ c = '-')))

/-- A path of plain segments. -/
def IsPlainPath (path : String) : Prop :=
  ∀ segment ∈ Split.pieces '/' path.toList, IsPlainSegment segment

instance (path : String) : Decidable (IsPlainPath path) :=
  inferInstanceAs (Decidable (∀ segment ∈ Split.pieces '/' path.toList, IsPlainSegment segment))

/-- What holds of each ASCII character. -/
theorem forall_ascii {p : Char → Prop} (each : ∀ n < 128, p (Char.ofNat n)) {c : Char}
    (low : c.toNat < 128) : p c := by
  rw [← Char.ofNat_toNat c]
  exact each c.toNat low

theorem plain_character {c : Char} (plain : c.isAlphanum = true ∨ c = '-') :
    inPath c = true ∧ isMargin c = false ∧ c ≠ '\\' ∧ c.toLower ≠ '.' ∧ c.toLower ≠ '%' := by
  have low : c.toNat < 128 := by
    rcases plain with letter | rfl
    · exact lt_of_le_of_lt (Percent.toNat_of_isAlphanum letter).2 (by decide)
    · decide
  exact forall_ascii (p := fun c => c.isAlphanum = true ∨ c = '-' →
    inPath c = true ∧ isMargin c = false ∧ c ≠ '\\' ∧ c.toLower ≠ '.' ∧ c.toLower ≠ '%')
    (by decide +kernel) low plain

theorem IsPlainPath.character {path : String} (plain : IsPlainPath path) :
    ∀ c ∈ path.toList, c = '/' ∨ c.isAlphanum = true ∨ c = '-' := by
  intro c mem
  rcases mem_pieces '/' mem with slash | ⟨segment, there, inside⟩
  · exact .inl slash
  · exact .inr ((plain segment there).2 c inside)

theorem IsPlainPath.inner {path : String} (plain : IsPlainPath path) :
    ∀ c ∈ path.toList, isMargin c = false ∧ c ≠ '?' ∧ c ≠ '#' := by
  intro c mem
  rcases plain.character c mem with rfl | letter
  · decide
  · obtain ⟨kept, margin, -⟩ := plain_character letter
    refine ⟨margin, ?_, ?_⟩
    all_goals
      rintro rfl
      exact absurd kept (by decide)

theorem rawSegments_append (front back : List Char) :
    rawSegments true (front ++ '/' :: back) = rawSegments true front ++ rawSegments true back := by
  simp only [rawSegments, if_true, List.map_append, List.map_cons]
  have slash : (if ('/' == '\\') = true then '/' else '/') = '/' := by decide
  rw [slash, Split.pieces_append_pieces, List.map_append]

/-- What has no slashes lengthens the last segment. -/
theorem exists_rawSegments_append {after : List Char} (slash : '/' ∉ after)
    (backslash : '\\' ∉ after) (path : List Char) :
    ∃ front last, rawSegments true path = front ++ [last] ∧
      rawSegments true (path ++ after) =
        front ++ [last ++ String.ofList (Percent.encode inPath after)] := by
  obtain ⟨front, last, here, there⟩ := Split.exists_pieces_append slash
    (path.map fun c => if c == '\\' then '/' else c)
  refine ⟨front.map fun s => String.ofList (Percent.encode inPath s),
    String.ofList (Percent.encode inPath last), ?_, ?_⟩
  · rw [rawSegments, if_pos rfl, here, List.map_append, List.map_singleton]
  · rw [rawSegments, if_pos rfl, List.map_append, map_slash backslash, there, List.map_append,
      List.map_singleton, Percent.encode_append, String.ofList_append]

/-- Slashes stand between empty segments. -/
theorem rawSegments_slashes (n : Nat) :
    rawSegments true (List.replicate n '/') = List.replicate (n + 1) "" := by
  induction n with
  | zero => decide
  | succ n ih =>
      have nothing : rawSegments true [] = [""] := by decide
      rw [List.replicate_succ, ← List.nil_append ('/' :: _), rawSegments_append, ih, nothing]
      rfl

/-- The segments of a plain path are its pieces. -/
theorem rawSegments_plain {path : String} (plain : IsPlainPath path) :
    rawSegments true path.toList = (Split.pieces '/' path.toList).map String.ofList := by
  have absent : '\\' ∉ path.toList := by
    intro mem
    rcases plain.character _ mem with slash | letter
    · exact absurd slash (by decide)
    · exact (plain_character letter).2.2.1 rfl
  rw [rawSegments, if_pos rfl, map_slash absent]
  refine List.map_congr_left fun segment mem => ?_
  rw [Percent.encode_eq_self fun c inside => (plain_character ((plain segment mem).2 c inside)).1]

theorem not_isDot_of_plain {path : String} (plain : IsPlainPath path) :
    ∀ s ∈ rawSegments true path.toList, isDot s = false := by
  intro s mem
  rw [rawSegments_plain plain] at mem
  obtain ⟨segment, there, rfl⟩ := List.mem_map.mp mem
  rw [← Bool.not_eq_true]
  intro dot
  have within : '.' ∈ segment.map Char.toLower ∨ '%' ∈ segment.map Char.toLower := by
    have ends := suffix_of_isDot dot
    rw [Lowercase.ascii, String.toList_ofList, String.toList_ofList] at ends
    exact ends.imp (fun ends => ends.subset (by decide)) fun ends => ends.subset (by decide)
  rcases within with stop | percent
  · obtain ⟨c, inside, same⟩ := List.mem_map.mp stop
    exact (plain_character ((plain segment there).2 c inside)).2.2.2.1 same
  · obtain ⟨c, inside, same⟩ := List.mem_map.mp percent
    exact (plain_character ((plain segment there).2 c inside)).2.2.2.2 same

theorem text_append_plain {path : String} (plain : IsPlainPath path) (done : List String) :
    (Path.segments (done ++ rawSegments true path.toList)).text.toList =
      (Path.segments done).text.toList ++ '/' :: path.toList := by
  have pieces := Split.flatMap_pieces '/' path.toList
  rw [toList_segments, toList_segments, List.flatMap_append, rawSegments_plain plain,
    List.flatMap_map]
  simp only [String.toList_ofList, pieces]

theorem text_append_empty (done : List String) (n : Nat) :
    (Path.segments (done ++ List.replicate n "")).text.toList =
      (Path.segments done).text.toList ++ List.replicate n '/' := by
  rw [toList_segments, toList_segments, List.flatMap_append]
  induction n with
  | zero => rfl
  | succ n ih =>
      rw [List.replicate_succ, List.flatMap_cons, List.replicate_succ]
      simpa using ih

/-! ### Paths behind an authority -/

/-- The segments that what stands behind an authority has settled. -/
def settledBehind : List Char → List String
  | [] => []
  | _ :: path => settle [] (rawSegments true path)

theorem rawSegments_ne_nil (path : List Char) : rawSegments true path ≠ [] := by
  rw [rawSegments, ne_eq, List.map_eq_nil_iff]
  exact Split.pieces_ne_nil '/' _

section Behind

variable {scheme : String} {rest : List Char}

theorem pathBehind_cons (special : isSpecial scheme = true) (remote : scheme ≠ "file") {c : Char}
    (slash : isSlash c = true) (path : List Char) :
    pathBehind scheme (c :: path) = .segments (resolve false [] (rawSegments true path)) := by
  have file : (scheme == "file") = false := beq_eq_false_iff_ne.mpr remote
  rw [isSlash] at slash
  rw [pathBehind, special, Bool.true_and, if_pos slash, pathOf, special]
  simp only [file, Bool.false_eq_true, if_false]

/-- A plain path stays as it is behind what is settled. -/
theorem pathBehind_append_plain (special : isSpecial scheme = true) (remote : scheme ≠ "file")
    (rooted : ∀ c ∈ rest.head?, isSlash c = true) {path : String} (plain : IsPlainPath path) :
    (pathBehind scheme (rest ++ '/' :: path.toList)).text.toList =
      (Path.segments (settledBehind rest)).text.toList ++ '/' :: path.toList := by
  rw [← text_append_plain plain]
  cases rest with
  | nil =>
      rw [List.nil_append, pathBehind_cons special remote (by decide),
        resolve_eq_append (not_isDot_of_plain plain), settledBehind]
  | cons c front =>
      rw [List.cons_append, pathBehind_cons special remote (rooted c rfl), rawSegments_append,
        resolve_append (rawSegments_ne_nil _), resolve_eq_append (not_isDot_of_plain plain),
        settledBehind]

/-- So do slashes, and without any there may be one. -/
theorem pathBehind_append_slashes (special : isSpecial scheme = true) (remote : scheme ≠ "file")
    (rooted : ∀ c ∈ rest.head?, isSlash c = true) (n : Nat) :
    ∃ k, (0 < n → k = n) ∧ (pathBehind scheme (rest ++ List.replicate n '/')).text.toList =
      (Path.segments (settledBehind rest)).text.toList ++ List.replicate k '/' := by
  have empty : ∀ n, ∀ s ∈ List.replicate n "", isDot s = false := by
    intro n s mem
    rw [List.eq_of_mem_replicate mem]
    decide
  cases n with
  | zero =>
      cases rest with
      | nil => exact ⟨1, by simp, by simp [pathBehind, special, settledBehind, Path.text]⟩
      | cons c front =>
          obtain ⟨segments, last, made⟩ :=
            (List.eq_nil_or_concat' _).resolve_left (rawSegments_ne_nil front)
          refine ⟨if isDot last then 1 else 0, by simp, ?_⟩
          rw [List.replicate_zero, List.append_nil, pathBehind_cons special remote (rooted c rfl),
            settledBehind, made, resolve_concat, settle_append, ← text_append_empty]
          cases isDot last <;> rfl
  | succ n =>
      refine ⟨n + 1, fun _ => rfl, ?_⟩
      rw [← text_append_empty]
      cases rest with
      | nil =>
          rw [List.nil_append, List.replicate_succ, pathBehind_cons special remote (by decide),
            rawSegments_slashes, resolve_eq_append (empty _), settledBehind]
      | cons c front =>
          rw [List.cons_append, List.replicate_succ, pathBehind_cons special remote (rooted c rfl),
            rawSegments_append, rawSegments_slashes, resolve_append (by simp),
            resolve_eq_append (empty _), settledBehind]

end Behind

end Deposit.Url
