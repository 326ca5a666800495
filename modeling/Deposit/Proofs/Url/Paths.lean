import Deposit.Proofs.Url.Words

/-!
Words in paths. A segment with a word in it is no dot and no drive, so it stays when the path is
resolved, unless a double dot behind it takes it back (`infix_pathOf`).
-/

namespace Deposit.Url

variable {word : List Char}

/-- What is done stays done, unless a double dot takes it back. -/
theorem mem_resolve_of_mem {file : Bool} {s : String} {done segments : List String}
    (onward : ∀ d ∈ segments, isDoubleDot d = false) (mem : s ∈ done) :
    s ∈ resolve file done segments := by
  fun_induction resolve file done segments with
  | case1 => exact mem
  | case2 done d rest double => exact absurd double (by simp [onward d List.mem_cons_self])
  | case3 done d rest double => exact absurd double (by simp [onward d List.mem_cons_self])
  | case4 => exact List.mem_append_left _ mem
  | case5 done d rest _ _ _ ih => exact ih (fun d mem => onward d (List.mem_cons_of_mem _ mem)) mem
  | case6 done d rest _ _ drive =>
      simp only [Bool.and_eq_true, List.isEmpty_iff] at drive
      rw [drive.1.2] at mem
      cases mem
  | case7 done d rest _ _ _ ih =>
      exact ih (fun d mem => onward d (List.mem_cons_of_mem _ mem)) (List.mem_append_left _ mem)

/-- A segment that is neither a dot nor a drive stays, unless a double dot behind it takes it
back. -/
theorem mem_resolve {file : Bool} {s : String} (double : isDoubleDot s = false)
    (single : isSingleDot s = false) (drive : isDrive s.toList = false)
    {done before after : List String} (onward : ∀ d ∈ after, isDoubleDot d = false) :
    s ∈ resolve file done (before ++ s :: after) := by
  induction before generalizing done with
  | nil =>
      rw [List.nil_append, resolve, if_neg (by simp [double]), if_neg (by simp [single]),
        if_neg (by simp [drive])]
      exact mem_resolve_of_mem onward (by simp)
  | cons d before ih =>
      rw [List.cons_append, resolve]
      have more : (before ++ s :: after).isEmpty = false := by simp
      simp only [more, Bool.false_eq_true, if_false]
      split_ifs <;> exact ih

/-- A segment with a word in it is no dot and no drive. -/
theorem IsWord.not_dots (w : IsWord word) {segment : String} (stands : word <:+: segment.toList) :
    isDoubleDot segment = false ∧ isSingleDot segment = false ∧ isDrive segment.toList = false := by
  obtain ⟨c, rest, word_eq, letter⟩ := w.first
  have lower : wordInitials.all (fun c => c.toLower == c) = true := by decide
  have mem : c ∈ (Lowercase.ascii segment).toList := by
    rw [Lowercase.ascii, String.toList_ofList, ← beq_iff_eq.mp (List.all_eq_true.mp lower c letter)]
    exact List.mem_map_of_mem (stands.subset (word_eq ▸ List.mem_cons_self))
  have other (dots : List String)
      (none : dots.any (fun s => wordInitials.any (s.toList.contains ·)) = false) :
      dots.contains (Lowercase.ascii segment) = false := by
    rw [← Bool.not_eq_true, List.contains_iff_mem]
    intro dot
    have without := eq_false_of_ne_true (List.any_eq_false.mp none _ dot)
    exact List.any_eq_false.mp without c letter (List.contains_iff_mem.mpr mem)
  refine ⟨other _ (by decide), other _ (by decide), ?_⟩
  rw [← Bool.not_eq_true]
  intro drive
  unfold isDrive at drive
  split at drive
  · next two =>
    have long := w.long
    have short := stands.length_le
    rw [two] at short
    simp only [List.length_cons, List.length_nil] at short
    omega
  · cases drive

/-- A path in which a double dot stands behind a segment with `part` in it. -/
def StepsBack (part path : List Char) : Prop :=
  ∃ before segment after, rawSegments true path = before ++ segment :: after ∧
    part <:+: segment.toList ∧ ∃ d ∈ after, isDoubleDot d = true

/-- Without backslashes the slashes are as they are written. -/
theorem map_slash {text : List Char} (absent : '\\' ∉ text) :
    text.map (fun c => if c == '\\' then '/' else c) = text := by
  refine (List.map_congr_left fun c mem => ?_).trans (List.map_id text)
  rw [if_neg]
  · rfl
  · rw [beq_iff_eq]
    rintro rfl
    exact absent mem

theorem infix_rawSegments (w : IsWord word) {text : List Char} (stands : word <:+: text) :
    ∃ segment ∈ rawSegments true text, word <:+: segment.toList := by
  have same := map_slash (w.absent (by decide) : '\\' ∉ word)
  have inside := stands.map fun c => if c == '\\' then '/' else c
  rw [same] at inside
  have plain : '/' ∉ word := w.absent (by decide)
  obtain ⟨piece, mem, inside⟩ := infix_pieces plain inside
  refine ⟨_, List.mem_map_of_mem mem, ?_⟩
  rw [String.toList_ofList]
  exact infix_encode w (by decide) inside

theorem infix_segments {segment : String} {segments : List String} (mem : segment ∈ segments)
    (stands : word <:+: segment.toList) : word <:+: (Path.segments segments).text.toList := by
  rw [Path.text, String.toList_join, List.flatMap_map]
  have slash : segment.toList <:+: ("/" ++ segment).toList := by
    rw [String.toList_append]
    exact (List.suffix_append _ _).isInfix
  exact (stands.trans slash).trans (List.infix_of_mem_flatten (List.mem_map_of_mem mem))

/-- A word in a path stays, unless a double dot behind it takes it back. -/
theorem infix_pathOf (w : IsWord word) {scheme : String} (special : isSpecial scheme = true)
    {text : List Char} (stands : word <:+: text) :
    word <:+: (pathOf scheme text).text.toList ∨ StepsBack word text := by
  obtain ⟨segment, mem, inside⟩ := infix_rawSegments w stands
  obtain ⟨before, after, split⟩ := List.append_of_mem mem
  by_cases back : ∃ d ∈ after, isDoubleDot d = true
  · exact .inr ⟨before, segment, after, split, inside, back⟩
  have onward : ∀ d ∈ after, isDoubleDot d = false := by simpa using back
  obtain ⟨double, single, drive⟩ := w.not_dots inside
  have kept : segment ∈ resolve (scheme == "file") [] (rawSegments true text) := by
    rw [split]
    exact mem_resolve double single drive onward
  have full : segment.isEmpty = false := by
    rw [← Bool.not_eq_true, String.isEmpty_iff]
    rintro rfl
    exact w.ne_nil (List.infix_nil.mp inside)
  have behind := mem_dropWhile (p := String.isEmpty) full kept
  refine .inl ?_
  simp only [pathOf, special]
  split_ifs with file none
  · rw [List.isEmpty_iff.mp none] at behind
    cases behind
  · exact infix_segments behind inside
  · exact infix_segments kept inside

end Deposit.Url
