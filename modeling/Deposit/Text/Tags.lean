/-!
Removal of HTML tags.

A tag begins with `<`, goes on with at least one character other than `<`, and
ends at the first `>` behind that one. Tags are found from the left, and each is
as short as it can be; what is left of `<` without such an end stays.
-/

namespace Deposit.Tags

/-- The text behind the first `>`, if no `<` comes before it. -/
def behindClose? : List Char → Option (List Char)
  | [] => none
  | c :: rest =>
    if c == '>' then some rest else if c == '<' then none else behindClose? rest

/-- The text behind the tag that a text begins with, if it does. -/
def behindTag? : List Char → Option (List Char)
  | '<' :: c :: rest => if c == '<' then none else behindClose? rest
  | _ => none

theorem behindClose?_length {s r : List Char} (h : behindClose? s = some r) :
    r.length < s.length := by
  induction s with
  | nil => simp [behindClose?] at h
  | cons c rest ih =>
    unfold behindClose? at h
    split at h
    · simp at h; subst h; simp
    · split at h
      · simp at h
      · have := ih h; simp; omega

theorem behindTag?_length {s r : List Char} (h : behindTag? s = some r) :
    r.length < s.length := by
  unfold behindTag? at h
  split at h
  · split at h
    · simp at h
    · have := behindClose?_length h; simp; omega
  · simp at h

/-- A text without its tags. -/
def strip (s : List Char) : List Char :=
  match h : behindTag? s with
  | some rest =>
    have := behindTag?_length h
    strip rest
  | none =>
    match s with
    | [] => []
    | c :: rest => c :: strip rest
termination_by s.length
decreasing_by
  · assumption
  · simp

/-- A string without its tags. -/
def stripText (s : String) : String := String.ofList (strip s.toList)

end Deposit.Tags
