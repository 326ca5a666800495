import Deposit.Checksum.Source
import Mathlib.Algebra.Order.Ring.Nat

/-!
Reads of a buffer, one after the other, with any sizes.

A read hands out what is left, but no more than it is asked for (`read?_eq`). So after reads that
all went well the chunks are the bytes in front of the position (`readAll?_eq_some`). A read fails
if position and size are more than a word holds, and nothing else makes one fail
(`readAll?_eq_none_iff`): behind the first byte, a read with the greatest size does.

* `reads_of_buffer`: both for a buffer that is read from its start.
-/

namespace Deposit.Memory

/-- The chunks of reads with the given sizes, and the buffer behind the last one; `none` if a read
fails. -/
def readAll? (sizes : List Nat) (m : Memory) : Option (List Bytes × Memory) :=
  match sizes with
  | [] => some ([], m)
  | n :: rest =>
    match m.read? n with
    | none => none
    | some (chunk, next) =>
      (readAll? rest next).map fun (chunks, last) => (chunk :: chunks, last)

/-- Where reads with the given sizes come to from a position: as far as they ask for, and no
further than the end. -/
def reached (data : Bytes) (position : Nat) (sizes : List Nat) : Nat :=
  min (position + sizes.sum) data.length

variable {data : Bytes} {position : Nat}

theorem reached_nil (inside : position ≤ data.length) : reached data position [] = position := by
  simp [reached, inside]

theorem reached_le (data : Bytes) (position : Nat) (sizes : List Nat) :
    reached data position sizes ≤ data.length := Nat.min_le_right ..

theorem reached_cons (data : Bytes) (position n : Nat) (rest : List Nat) :
    reached data position (n :: rest) = reached data (reached data position [n]) rest := by
  simp only [reached, List.sum_cons, List.sum_nil]
  omega

/-! ### One read -/

/-- A read hands out what is left, but no more than it is asked for, and moves behind that. -/
theorem read?_eq (inside : position ≤ data.length) (n : Nat) :
    read? n ⟨data, position⟩ =
      if position + n < 2 ^ 64 then
        some ((data.drop position).take n, ⟨data, reached data position [n]⟩)
      else none := by
  have moved : position + ((data.drop position).take n).length = reached data position [n] := by
    rw [List.length_take, List.length_drop, reached, List.sum_singleton]
    omega
  simp only [read?, moved]
  rfl

theorem read?_eq_none_iff (inside : position ≤ data.length) (n : Nat) :
    read? n ⟨data, position⟩ = none ↔ 2 ^ 64 ≤ position + n := by
  rw [read?_eq inside]
  split <;> simp <;> omega

/-- What a read hands out is the next part of the buffer. -/
theorem read?_chunk (inside : position ≤ data.length) {n : Nat} {chunk : Bytes} {next : Memory}
    (read : read? n ⟨data, position⟩ = some (chunk, next)) :
    next = ⟨data, reached data position [n]⟩ ∧ chunk.length = min n (data.length - position) ∧
      data.take position ++ chunk = data.take (reached data position [n]) := by
  rw [read?_eq inside] at read
  split at read
  · obtain ⟨rfl, rfl⟩ := Prod.mk.inj (Option.some.inj read)
    refine ⟨rfl, by rw [List.length_take, List.length_drop], ?_⟩
    rw [← List.take_add, List.take_eq_take_iff, reached, List.sum_singleton]
    omega
  · cases read

/-! ### Reads, one after the other -/

/-- After reads that all went well, there is a chunk for each, and the chunks are the bytes up to
the position. -/
theorem readAll?_eq_some {sizes : List Nat} (inside : position ≤ data.length) {chunks : List Bytes}
    {last : Memory} (all : readAll? sizes ⟨data, position⟩ = some (chunks, last)) :
    last = ⟨data, reached data position sizes⟩ ∧ chunks.length = sizes.length ∧
      data.take position ++ chunks.flatten = data.take (reached data position sizes) := by
  induction sizes generalizing position chunks with
  | nil =>
      obtain ⟨rfl, rfl⟩ := Prod.mk.inj (Option.some.inj all)
      simp [reached_nil inside]
  | cons n rest ih =>
      rw [readAll?] at all
      split at all
      · cases all
      · next chunk next read =>
        obtain ⟨rfl, -, parts⟩ := read?_chunk inside read
        obtain ⟨⟨others, last'⟩, later, same⟩ := Option.map_eq_some_iff.mp all
        obtain ⟨rfl, rfl⟩ := Prod.mk.inj same
        obtain ⟨rfl, length, whole⟩ := ih (reached_le ..) later
        rw [reached_cons data position n rest, ← whole, ← parts, List.flatten_cons,
          List.append_assoc]
        exact ⟨rfl, congrArg Nat.succ length, rfl⟩

/-- A read fails exactly if one of the sizes ends beyond a word. -/
theorem readAll?_eq_none_iff {sizes : List Nat} (inside : position ≤ data.length) :
    readAll? sizes ⟨data, position⟩ = none ↔
      ∃ earlier n later, sizes = earlier ++ n :: later ∧
        2 ^ 64 ≤ reached data position earlier + n := by
  induction sizes generalizing position with
  | nil => simp [readAll?]
  | cons n rest ih =>
      rw [readAll?]
      split
      · next failed =>
        have beyond := (read?_eq_none_iff inside n).mp failed
        exact iff_of_true rfl ⟨[], n, rest, rfl, by rwa [reached_nil inside]⟩
      · next chunk next read =>
        obtain ⟨rfl, -⟩ := read?_chunk inside read
        have fits : position + n < 2 ^ 64 := by
          by_contra beyond
          rw [(read?_eq_none_iff inside n).mpr (Nat.not_lt.mp beyond)] at read
          cases read
        rw [Option.map_eq_none_iff, ih (reached_le ..)]
        constructor
        · rintro ⟨earlier, n', later, rfl, beyond⟩
          exact ⟨n :: earlier, n', later, rfl, by rwa [reached_cons]⟩
        · rintro ⟨earlier, n', later, same, beyond⟩
          cases earlier with
          | nil =>
              -- The first read went well.
              obtain ⟨rfl, rfl⟩ := List.cons.inj same
              rw [reached_nil inside] at beyond
              omega
          | cons first earlier =>
              obtain ⟨rfl, rfl⟩ := List.cons.inj same
              exact ⟨earlier, n', later, rfl, by rwa [reached_cons] at beyond⟩

/-- **A buffer keeps to what a source promises, unless a request ends beyond a word.** It is read
from its start, with any sizes.

* Reads fail exactly if one of them asks for so many bytes that its position and the size are
  2 ^ 64 or more together.
* Behind reads that all went well, there is a chunk for each, and the chunks so far are the bytes
  in front of the position, which is as far as they asked for and not beyond the end. The next read
  hands out as many bytes as it is asked for or as there are left, whichever is less, and moves on
  by them; and it fails exactly if position and size are 2 ^ 64 or more together. At the end it
  hands out nothing and stays. -/
theorem reads_of_buffer (data : Bytes) (sizes : List Nat) :
    (readAll? sizes (start data) = none ↔
      ∃ earlier n later, sizes = earlier ++ n :: later ∧
        2 ^ 64 ≤ min earlier.sum data.length + n) ∧
      ∀ chunks m, readAll? sizes (start data) = some (chunks, m) →
        m.data = data ∧ m.position = min sizes.sum data.length ∧
          chunks.length = sizes.length ∧
          chunks.flatten = data.take m.position ∧ chunks.flatten.length = m.position ∧
          ∀ n, (m.read? n = none ↔ 2 ^ 64 ≤ m.position + n) ∧
            ∀ chunk next, m.read? n = some (chunk, next) →
              chunk.length = min n (data.length - m.position) ∧
                next.position = m.position + chunk.length ∧
                (m.position = data.length → chunk = [] ∧ next = m) := by
  have inside : 0 ≤ data.length := Nat.zero_le _
  have from_start (sizes : List Nat) : reached data 0 sizes = min sizes.sum data.length := by
    rw [reached, Nat.zero_add]
  constructor
  · simp only [start, readAll?_eq_none_iff inside, from_start]
  · intro chunks m all
    obtain ⟨rfl, count, whole⟩ := readAll?_eq_some inside all
    rw [List.take_zero, List.nil_append] at whole
    have le := reached_le data 0 sizes
    refine ⟨rfl, from_start sizes, count, whole, ?_, fun n => ⟨read?_eq_none_iff le n, ?_⟩⟩
    · rw [whole, List.length_take, Nat.min_eq_left le]
    · intro chunk next read
      obtain ⟨rfl, length, -⟩ := read?_chunk le read
      refine ⟨length, ?_, fun (ended : reached data 0 sizes = data.length) => ?_⟩
      · rw [length]
        simp only [reached, List.sum_singleton]
        omega
      · have none : chunk = [] := by
          rw [← List.length_eq_zero_iff, length, ended, Nat.sub_self, Nat.min_zero]
        have stays : reached data data.length [n] = data.length := by simp [reached]
        exact ⟨none, by rw [ended, stays]⟩

/-- Two bytes, one of them read: the greatest size that a word holds ends beyond it. -/
theorem second_read_fails :
    ¬ ∀ (data : Bytes) (sizes : List Nat), (∀ n ∈ sizes, n < 2 ^ 64) →
      ∃ chunks last, readAll? sizes (start data) = some (chunks, last) := by
  intro all
  obtain ⟨chunks, last, done⟩ := all [0x61, 0x62] [1, 2 ^ 64 - 1] (by decide)
  have failed : readAll? [1, 2 ^ 64 - 1] (start [0x61, 0x62]) = none := by decide
  rw [failed] at done
  cases done

end Deposit.Memory
