import Deposit.Checksum.Source
import Deposit.SystemMetadata
import Mathlib.Algebra.Group.Nat.Defs

/-!
Digests over chunks.

What is left of a piece of a message waits in the context for the next piece
(`Md5.absorb_append`), so a message may be consumed in pieces of any sizes
(`Md5.Context.of_consume`). A source *hands out* chunks if it answers one read after the
other with them, and none of them is empty (`Source.HandsOut`).

* `Source.drain_finished`, `Source.drain_failed`: a source is read up to its first empty
  chunk or its first failure, and no further.
* `Source.digest_unfinished_iff`: a digest is missing only where the source goes on.
* `Source.digest_eq_buffer`: the digest of a source is that of the bytes it hands out, and
  so is the record of the object.
-/

namespace Deposit

/-! ### Messages in pieces -/

namespace Md5

theorem absorb_short (s : State) {data : Bytes} (short : data.length < 64) :
    absorb s data = (s, data) := by
  have unfilled : (data.drop 63).isEmpty = true := by
    rw [List.isEmpty_iff, List.drop_eq_nil_iff]
    omega
  rw [absorb, if_pos unfilled]

theorem absorb_block (s : State) {data : Bytes} (full : 64 ≤ data.length) :
    absorb s data = absorb (compress s (data.take 64)) (data.drop 64) := by
  have filled : ¬ (data.drop 63).isEmpty = true := by
    rw [List.isEmpty_iff, List.drop_eq_nil_iff]
    omega
  rw [absorb, if_neg filled]

/-- To absorb a message and more is to absorb the message, and then the more behind what is
left of it. -/
theorem absorb_append (s : State) (data more : Bytes) :
    absorb s (data ++ more) = absorb (absorb s data).1 ((absorb s data).2 ++ more) := by
  induction s, data using absorb.induct with
  | case1 s data unfilled =>
      have short : data.length < 64 := by
        rw [List.isEmpty_iff, List.drop_eq_nil_iff] at unfilled
        omega
      rw [absorb_short s short]
  | case2 s data filled ih =>
      have full : 64 ≤ data.length := by
        rw [List.isEmpty_iff, List.drop_eq_nil_iff] at filled
        omega
      have whole : 64 ≤ (data ++ more).length := by
        rw [List.length_append]
        omega
      rw [absorb_block s full, absorb_block s whole, List.take_append_of_le_length full,
        List.drop_append_of_le_length full, ih]

namespace Context

/-- The context of a message. -/
def of (message : Bytes) : Context := empty.consume message

theorem of_nil : of [] = empty := by
  rw [of, consume, empty, List.nil_append, absorb_short .initial (by decide)]
  rfl

theorem length_of (message : Bytes) : (of message).length = message.length := by
  rw [of, consume, empty]
  exact Nat.zero_add _

/-- A message that is consumed in two pieces. -/
theorem consume_consume (c : Context) (data more : Bytes) :
    (c.consume data).consume more = c.consume (data ++ more) := by
  simp only [consume]
  rw [← absorb_append, List.append_assoc, Nat.add_assoc, List.length_append]

theorem of_consume (message more : Bytes) : (of message).consume more = of (message ++ more) :=
  consume_consume empty message more

end Context

end Md5

/-! ### Reading a source -/

namespace Source

variable {σ : Type} {source : Source σ} {state next last after : σ} {chunk : Bytes}
  {chunks : List Bytes}

theorem drain_chunk (read : source.read chunkSize state = .ok (chunk, next)) (filled : chunk ≠ [])
    (reads : Nat) (context : Md5.Context) :
    source.drain (reads + 1) context state =
      (chunkSize :: (source.drain reads (context.consume chunk) next).1,
        (source.drain reads (context.consume chunk) next).2) := by
  rw [drain, read]
  cases chunk with
  | nil => exact absurd rfl filled
  | cons b rest => rfl

theorem drain_end (read : source.read chunkSize state = .ok ([], next)) (reads : Nat)
    (context : Md5.Context) :
    source.drain (reads + 1) context state =
      ([chunkSize], .finished ⟨Hex.lower context.finish, context.length⟩) := by
  rw [drain, read]

theorem drain_failure {e : FileError} (read : source.read chunkSize state = .error e)
    (reads : Nat) (context : Md5.Context) :
    source.drain (reads + 1) context state = ([chunkSize], .failed e) := by
  rw [drain, read]

/-- A source answers reads with chunks, none of them empty, and comes to another state. -/
inductive HandsOut (source : Source σ) : σ → List Bytes → σ → Prop where
  | none (state : σ) : HandsOut source state [] state
  | chunk {state next last : σ} {chunk : Bytes} {chunks : List Bytes} :
      source.read chunkSize state = .ok (chunk, next) → chunk ≠ [] →
      HandsOut source next chunks last → HandsOut source state (chunk :: chunks) last

/-- No more chunks are handed out than bytes. -/
theorem HandsOut.length_le (handed : source.HandsOut state chunks last) :
    chunks.length ≤ chunks.flatten.length := by
  induction handed with
  | none state => exact Nat.le_refl _
  | chunk read filled _ ih =>
      have := List.length_pos_iff.mpr filled
      rw [List.length_cons, List.flatten_cons, List.length_append]
      omega

/-- Chunks that are handed out are consumed one after the other, behind the message so far:
one read for each. -/
theorem HandsOut.drain (handed : source.HandsOut state chunks last) (reads : Nat) :
    ∀ message, source.drain (chunks.length + reads) (.of message) state =
      (List.replicate chunks.length chunkSize ++
          (source.drain reads (.of (message ++ chunks.flatten)) last).1,
        (source.drain reads (.of (message ++ chunks.flatten)) last).2) := by
  induction handed with
  | none state =>
      intro message
      simp
  | @chunk state next last chunk chunks read filled _ ih =>
      intro message
      have more : (chunk :: chunks).length + reads = chunks.length + reads + 1 := by
        rw [List.length_cons]
        omega
      rw [more, drain_chunk read filled, Md5.Context.of_consume, ih, List.flatten_cons,
        List.append_assoc]
      rfl

/-- A source that is read to its end, from the start. -/
theorem HandsOut.drain_empty (handed : source.HandsOut state chunks last) {reads : Nat}
    (enough : chunks.length < reads) :
    ∃ more, source.drain reads .empty state =
      (List.replicate chunks.length chunkSize ++
          (source.drain (more + 1) (.of chunks.flatten) last).1,
        (source.drain (more + 1) (.of chunks.flatten) last).2) := by
  obtain ⟨more, rfl⟩ := Nat.exists_eq_add_of_lt enough
  refine ⟨more, ?_⟩
  rw [← Md5.Context.of_nil, Nat.add_assoc, handed.drain, List.nil_append]

/-- Reading ends at the first empty chunk, with the digest of all bytes before it. -/
theorem drain_finished (handed : source.HandsOut state chunks last)
    (ended : source.read chunkSize last = .ok ([], after)) {reads : Nat}
    (enough : chunks.length < reads) :
    source.drain reads .empty state =
      (List.replicate (chunks.length + 1) chunkSize,
        .finished ⟨Md5.hex chunks.flatten, chunks.flatten.length⟩) := by
  obtain ⟨more, drained⟩ := handed.drain_empty enough
  rw [drained, drain_end ended, Md5.Context.length_of, List.replicate_succ']
  rfl

/-- Reading ends at the first failure, without a digest. -/
theorem drain_failed {e : FileError} (handed : source.HandsOut state chunks last)
    (failed : source.read chunkSize last = .error e) {reads : Nat}
    (enough : chunks.length < reads) :
    source.drain reads .empty state =
      (List.replicate (chunks.length + 1) chunkSize, .failed e) := by
  obtain ⟨more, drained⟩ := handed.drain_empty enough
  rw [drained, drain_failure failed, List.replicate_succ']

/-- Within any number of reads, a source comes to an empty chunk, to a failure, or goes on
for all of them. -/
theorem handsOut_cases (source : Source σ) (reads : Nat) :
    ∀ state, ∃ chunks last, source.HandsOut state chunks last ∧
      (chunks.length < reads ∧ ((∃ after, source.read chunkSize last = .ok ([], after)) ∨
        ∃ e, source.read chunkSize last = .error e) ∨ chunks.length = reads) := by
  induction reads with
  | zero => exact fun state => ⟨[], state, .none state, .inr rfl⟩
  | succ reads ih =>
      intro state
      rcases read : source.read chunkSize state with e | ⟨_ | ⟨b, rest⟩, next⟩
      · exact ⟨[], state, .none state, .inl ⟨Nat.succ_pos _, .inr ⟨e, read⟩⟩⟩
      · exact ⟨[], state, .none state, .inl ⟨Nat.succ_pos _, .inl ⟨next, read⟩⟩⟩
      · obtain ⟨chunks, last, handed, ends⟩ := ih next
        refine ⟨(b :: rest) :: chunks, last, .chunk read (List.cons_ne_nil _ _) handed, ?_⟩
        rcases ends with ⟨enough, how⟩ | all
        · exact .inl ⟨Nat.succ_lt_succ enough, how⟩
        · exact .inr (congrArg Nat.succ all)

/-- A source gives no digest and no failure exactly if each of the reads is answered with
a chunk that is not empty. -/
theorem digest_unfinished_iff (source : Source σ) (reads : Nat) (state : σ) :
    source.digest reads state = .unfinished ↔
      ∃ chunks last, source.HandsOut state chunks last ∧ chunks.length = reads := by
  constructor
  · intro unfinished
    obtain ⟨chunks, last, handed, ⟨enough, ⟨after, ended⟩ | ⟨e, failed⟩⟩ | all⟩ :=
      source.handsOut_cases reads state
    · rw [digest, drain_finished handed ended enough] at unfinished
      cases unfinished
    · rw [digest, drain_failed handed failed enough] at unfinished
      cases unfinished
    · exact ⟨chunks, last, handed, all⟩
  · rintro ⟨chunks, last, handed, rfl⟩
    have drained := handed.drain 0 []
    rw [Nat.add_zero, Md5.Context.of_nil] at drained
    rw [digest, drained]
    rfl

end Source

/-! ### Bytes in memory and files -/

/-- What a buffer answers: bytes from its position on. No buffer has 2 ^ 63 bytes, so a
request never ends beyond 64 bits. -/
theorem Memory.read_chunk {data : Bytes} (fits : data.length < 2 ^ 63) {position : Nat}
    (inside : position ≤ data.length) :
    source.read chunkSize ⟨data, position⟩ =
      .ok ((data.drop position).take chunkSize,
        ⟨data, position + ((data.drop position).take chunkSize).length⟩) := by
  have room : position + chunkSize < Nat.pow 2 64 := by
    have : (2 : Nat) ^ 63 + chunkSize < Nat.pow 2 64 := by decide
    omega
  simp only [source, read?, if_pos room]

/-- The first bytes of what is left are none only if nothing is left. -/
theorem take_chunkSize_ne_nil {rest : Bytes} (some : rest ≠ []) : rest.take chunkSize ≠ [] := by
  rw [ne_eq, List.take_eq_nil_iff]
  rintro (none | none)
  · exact absurd none (by decide)
  · exact some none

/-- A buffer hands out what is behind its position. -/
theorem Memory.handsOut {data : Bytes} (fits : data.length < 2 ^ 63) :
    ∀ rest position, position ≤ data.length → data.drop position = rest →
      ∃ chunks last, source.HandsOut ⟨data, position⟩ chunks last ∧ chunks.flatten = rest ∧
        source.read chunkSize last = .ok ([], last) := by
  intro rest
  induction length : rest.length using Nat.strongRecOn generalizing rest with
  | ind n ih =>
      rintro position inside rfl
      have answer := read_chunk fits inside
      by_cases done : data.drop position = []
      · refine ⟨[], ⟨data, position⟩, .none _, by rw [done]; rfl, ?_⟩
        rw [answer, done]
        rfl
      · have filled := take_chunkSize_ne_nil done
        have whole := List.prefix_iff_eq_append.mp (List.take_prefix chunkSize (data.drop position))
        rw [List.drop_drop] at whole
        -- The position moves by the bytes of the chunk, and not beyond the end.
        generalize (data.drop position).take chunkSize = chunk at answer filled whole
        have some := List.length_pos_iff.mpr filled
        have parts := congrArg List.length whole
        rw [List.length_append, List.length_drop, List.length_drop] at parts
        rw [List.length_drop] at length
        obtain ⟨chunks, last, handed, flat, ended⟩ :=
          ih (data.drop (position + chunk.length)).length (by rw [List.length_drop]; omega) _ rfl
            (position + chunk.length) (by omega) rfl
        refine ⟨chunk :: chunks, last, .chunk answer filled handed, ?_, ended⟩
        rw [List.flatten_cons, flat, whole]

/-- A file hands out what is left of it. -/
theorem OpenFile.handsOut (rest : Bytes) :
    ∃ chunks, source.HandsOut ⟨rest⟩ chunks ⟨[]⟩ ∧ chunks.flatten = rest := by
  induction length : rest.length using Nat.strongRecOn generalizing rest with
  | ind n ih =>
      by_cases done : rest = []
      · rw [done]
        exact ⟨[], .none _, rfl⟩
      · have some := List.length_pos_iff.mpr done
        have size : 0 < chunkSize := by decide
        obtain ⟨chunks, handed, flat⟩ :=
          ih (rest.drop chunkSize).length (by rw [List.length_drop]; omega) _ rfl
        refine ⟨rest.take chunkSize :: chunks, .chunk rfl (take_chunkSize_ne_nil done) handed, ?_⟩
        rw [List.flatten_cons, flat, List.take_append_drop]

/-- The digest of a buffer, read from its start, is that of its bytes. -/
theorem Memory.digest_eq {data : Bytes} (fits : data.length < 2 ^ 63) :
    source.digest (data.length + 1) (.start data) = .finished ⟨Md5.hex data, data.length⟩ := by
  obtain ⟨chunks, last, handed, flat, ended⟩ := handsOut fits data 0 (Nat.zero_le _) rfl
  have enough := handed.length_le
  rw [flat] at enough
  rw [start, Source.digest, Source.drain_finished handed ended (Nat.lt_succ_of_le enough), flat]

/-- The digest of a file is that of its bytes. -/
theorem OpenFile.digest_eq (content : Bytes) :
    OpenFile.digest content = .finished ⟨Md5.hex content, content.length⟩ := by
  obtain ⟨chunks, handed, flat⟩ := handsOut content
  have enough := handed.length_le
  rw [flat] at enough
  rw [digest, Source.digest, Source.drain_finished handed rfl (Nat.lt_succ_of_le enough), flat]

namespace Source

/-- **Streams and buffers have one digest.** A source that hands out chunks and then an empty
one is asked for as many bytes each time, once for each chunk and once for the empty one, and
gives the digest and the number of all the bytes; the record of the object is the one that is
made of the bytes at once. A source that hands out chunks and then fails gives the failure.
Buffers, of which none has 2 ^ 63 bytes, and files hand out their bytes in this way. -/
theorem digest_eq_buffer :
    (∀ {σ : Type} (source : Source σ) (state last : σ) (chunks : List Bytes) (reads : Nat),
      source.HandsOut state chunks last → chunks.length < reads →
        (∀ after, source.read chunkSize last = .ok ([], after) →
          source.drain reads .empty state =
              (List.replicate (chunks.length + 1) chunkSize,
                .finished ⟨Md5.hex chunks.flatten, chunks.flatten.length⟩) ∧
            ∀ pid formatId fileName rightsHolder size,
              (source.digest reads state).toExcept.map
                  (SystemMetadata.ofDigest · pid formatId fileName rightsHolder size) =
                .ok (.ofContent chunks.flatten pid formatId fileName rightsHolder size)) ∧
        ∀ e, source.read chunkSize last = .error e →
          source.drain reads .empty state =
              (List.replicate (chunks.length + 1) chunkSize, .failed e) ∧
            (source.digest reads state).toExcept = .error e) ∧
      (∀ data : Bytes, data.length < 2 ^ 63 →
        (∃ chunks last, Memory.source.HandsOut (.start data) chunks last ∧
          chunks.flatten = data ∧ Memory.source.read chunkSize last = .ok ([], last)) ∧
        Memory.source.digest (data.length + 1) (.start data) =
          .finished ⟨Md5.hex data, data.length⟩) ∧
      ∀ data : Bytes,
        (∃ chunks last, OpenFile.source.HandsOut ⟨data⟩ chunks last ∧
          chunks.flatten = data ∧ OpenFile.source.read chunkSize last = .ok ([], last)) ∧
        OpenFile.digest data = .finished ⟨Md5.hex data, data.length⟩ := by
  refine ⟨fun source state last chunks reads handed enough => ⟨?_, ?_⟩, ?_, ?_⟩
  · intro after ended
    have drained := drain_finished handed ended enough
    refine ⟨drained, fun pid formatId fileName rightsHolder size => ?_⟩
    rw [digest, drained]
    rfl
  · intro e failed
    have drained := drain_failed handed failed enough
    refine ⟨drained, ?_⟩
    rw [digest, drained]
    rfl
  · intro data fits
    exact ⟨Memory.handsOut fits data 0 (Nat.zero_le _) rfl, Memory.digest_eq fits⟩
  · intro data
    obtain ⟨chunks, handed, flat⟩ := OpenFile.handsOut data
    exact ⟨⟨chunks, ⟨[]⟩, handed, flat, rfl⟩, OpenFile.digest_eq data⟩

/-- Chunks on both sides of the end of a block. -/
example : (Script.source.digest 3 ⟨[.ok (List.replicate 63 0x61), .ok [0x62, 0x63]]⟩) =
    .finished ⟨Md5.hex (List.replicate 63 0x61 ++ [0x62, 0x63]), 65⟩ := by
  decide +kernel

end Source

end Deposit
