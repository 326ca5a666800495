import Deposit.Checksum.Md5
import Deposit.Text.FileError

/-!
Sources that hand out their bytes in chunks, and the digest of what they hand out.

A source is asked for at most `chunkSize` bytes at a time and ends with an empty
chunk. Nothing bounds the number of its chunks, so a digest is taken over a given
number of reads at most; a source that holds its bytes ends within one read more
than there are bytes.
-/

namespace Deposit

/-- The number of bytes asked for at a time. -/
def chunkSize : Nat := 8192

/-- A source with states `σ`: asked for at most so many bytes, it hands out some
and moves on, or fails. -/
structure Source (σ : Type) where
  read : Nat → σ → Except FileError (Bytes × σ)

/-- The digest of a source that was read to its end, and the number of bytes. -/
structure StreamDigest where
  hex : String
  bytesRead : Nat
  deriving DecidableEq, Repr

/-- How reading a source ended. -/
inductive Drained where
  /-- With an empty chunk. -/
  | finished (digest : StreamDigest)
  /-- With a failed read. -/
  | failed (error : FileError)
  /-- Not within the given number of reads. -/
  | unfinished
  deriving DecidableEq, Repr

/-- The digest, or the failure; a source without an end gives neither, and counts as
a failure. -/
def Drained.toExcept : Drained → Except FileError StreamDigest
  | .finished digest => .ok digest
  | .failed error => .error error
  | .unfinished => .error .outOfRange

/-- Reads a source to its end, at most `reads` times, behind the message in
`context`: the sizes asked for, and how it ended. -/
def Source.drain {σ : Type} (source : Source σ) (reads : Nat) (context : Md5.Context)
    (state : σ) : List Nat × Drained :=
  match reads with
  | 0 => ([], .unfinished)
  | reads + 1 =>
    match source.read chunkSize state with
    | .error e => ([chunkSize], .failed e)
    | .ok ([], _) => ([chunkSize], .finished ⟨Hex.lower context.finish, context.length⟩)
    | .ok (chunk, next) =>
      let (asked, ended) := source.drain reads (context.consume chunk) next
      (chunkSize :: asked, ended)

/-- The digest of a source, within a number of reads. -/
def Source.digest {σ : Type} (source : Source σ) (reads : Nat) (state : σ) : Drained :=
  (source.drain reads .empty state).2

/-! ### Bytes in memory -/

/-- A buffer with a position of 64 bits in it. -/
structure Memory where
  data : Bytes
  position : Nat
  deriving DecidableEq

namespace Memory

/-- A buffer before its first byte. -/
def start (data : Bytes) : Memory := ⟨data, 0⟩

/-- Hands out at most `n` bytes and moves behind them; `none` if the end of the
request is no position of 64 bits. -/
def read? (n : Nat) (m : Memory) : Option (Bytes × Memory) :=
  if m.position + n < Nat.pow 2 64 then
    let chunk := (m.data.drop m.position).take n
    some (chunk, ⟨m.data, m.position + chunk.length⟩)
  else none

/-- A buffer as a source. -/
def source : Source Memory where
  read n m :=
    match m.read? n with
    | some next => .ok next
    | none => .error .outOfRange

end Memory

/-! ### Files -/

/-- An open file: what is left to read of it. -/
structure OpenFile where
  rest : Bytes
  deriving DecidableEq

namespace OpenFile

/-- A file as a source. -/
def source : Source OpenFile where
  read n file := .ok (file.rest.take n, ⟨file.rest.drop n⟩)

/-- The digest of a file, read from its start. -/
def digest (content : Bytes) : Drained := source.digest (content.length + 1) ⟨content⟩

end OpenFile

/-! ### Listed chunks -/

/-- The answers of a source, one for each read whatever is asked, and nothing
behind the last. -/
structure Script where
  answers : List (Except FileError Bytes)

/-- A list of answers as a source. -/
def Script.source : Source Script where
  read _ script :=
    match script.answers with
    | [] => .ok ([], script)
    | .ok chunk :: rest => .ok (chunk, ⟨rest⟩)
    | .error e :: _ => .error e

end Deposit
