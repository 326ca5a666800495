import Deposit.Text.Hex

/-!
The MD5 digest of a message.

The message is taken in blocks of 64 bytes; `Context` holds the state after the
blocks seen so far, the bytes of the unfinished block and the length of the
message. Consuming a message in pieces or at once leads to the same context.
-/

namespace Deposit.Md5

/-- The four words that a block transforms. -/
structure State where
  a : UInt32
  b : UInt32
  c : UInt32
  d : UInt32
  deriving DecidableEq

/-- The state before the first block. -/
def State.initial : State := ⟨0x67452301, 0xefcdab89, 0x98badcfe, 0x10325476⟩

/-- The additive constants of the 64 steps: the first 32 bits of `|sin i|`. -/
def sines : List UInt32 :=
  [0xd76aa478, 0xe8c7b756, 0x242070db, 0xc1bdceee, 0xf57c0faf, 0x4787c62a, 0xa8304613, 0xfd469501,
   0x698098d8, 0x8b44f7af, 0xffff5bb1, 0x895cd7be, 0x6b901122, 0xfd987193, 0xa679438e, 0x49b40821,
   0xf61e2562, 0xc040b340, 0x265e5a51, 0xe9b6c7aa, 0xd62f105d, 0x02441453, 0xd8a1e681, 0xe7d3fbc8,
   0x21e1cde6, 0xc33707d6, 0xf4d50d87, 0x455a14ed, 0xa9e3e905, 0xfcefa3f8, 0x676f02d9, 0x8d2a4c8a,
   0xfffa3942, 0x8771f681, 0x6d9d6122, 0xfde5380c, 0xa4beea44, 0x4bdecfa9, 0xf6bb4b60, 0xbebfbc70,
   0x289b7ec6, 0xeaa127fa, 0xd4ef3085, 0x04881d05, 0xd9d4d039, 0xe6db99e5, 0x1fa27cf8, 0xc4ac5665,
   0xf4292244, 0x432aff97, 0xab9423a7, 0xfc93a039, 0x655b59c3, 0x8f0ccc92, 0xffeff47d, 0x85845dd1,
   0x6fa87e4f, 0xfe2ce6e0, 0xa3014314, 0x4e0811a1, 0xf7537e82, 0xbd3af235, 0x2ad7d2bb, 0xeb86d391]

/-- The rotation of step `i`: four amounts in turn, other ones in each round. -/
def rotation (i : Nat) : UInt32 :=
  let amounts : List UInt32 :=
    match i / 16 with
    | 0 => [7, 12, 17, 22]
    | 1 => [5, 9, 14, 20]
    | 2 => [4, 11, 16, 23]
    | _ => [6, 10, 15, 21]
  amounts.getD (i % 4) 0

/-- The message word that step `i` adds. -/
def wordIndex (i : Nat) : Nat :=
  match i / 16 with
  | 0 => i
  | 1 => (5 * i + 1) % 16
  | 2 => (3 * i + 5) % 16
  | _ => (7 * i) % 16

/-- The mixing function of step `i`. -/
def mix (i : Nat) (b c d : UInt32) : UInt32 :=
  match i / 16 with
  | 0 => (b &&& c) ||| (~~~b &&& d)
  | 1 => (d &&& b) ||| (~~~d &&& c)
  | 2 => b ^^^ c ^^^ d
  | _ => c ^^^ (b ||| ~~~d)

/-- Rotates a word to the left, by more than 0 and less than 32 bits. -/
def rotateLeft (x n : UInt32) : UInt32 := (x <<< n) ||| (x >>> (32 - n))

/-- Step `i` on the words of a block, with its constant `k`. -/
def step (words : Array UInt32) (s : State) (i : Nat) (k : UInt32) : State :=
  let sum := s.a + mix i s.b s.c s.d + k + words.getD (wordIndex i) 0
  ⟨s.d, s.b + rotateLeft sum (rotation i), s.b, s.c⟩

/-- The words of a block, least significant byte first. -/
def words : Bytes → List UInt32
  | a :: b :: c :: d :: rest =>
    (a.toUInt32 ||| (b.toUInt32 <<< 8) ||| (c.toUInt32 <<< 16) ||| (d.toUInt32 <<< 24)) ::
      words rest
  | _ => []

/-- The state after one more block. -/
def compress (s : State) (block : Bytes) : State :=
  let ws := (words block).toArray
  let t := (sines.zipIdx).foldl (fun t (k, i) => step ws t i k) s
  ⟨s.a + t.a, s.b + t.b, s.c + t.c, s.d + t.d⟩

/-- Takes full blocks off the front of `data`: the state after them and the
bytes that make no full block. -/
def absorb (s : State) (data : Bytes) : State × Bytes :=
  if (data.drop 63).isEmpty then (s, data)
  else absorb (compress s (data.take 64)) (data.drop 64)
termination_by data.length
decreasing_by
  rename_i h
  simp only [List.isEmpty_iff, List.drop_eq_nil_iff] at h
  simp; omega

/-- A message read so far. -/
structure Context where
  state : State
  /-- The bytes of the unfinished block, fewer than 64. -/
  pending : Bytes
  length : Nat
  deriving DecidableEq

/-- The empty message. -/
def Context.empty : Context := ⟨.initial, [], 0⟩

/-- The message with `data` at its end. -/
def Context.consume (c : Context) (data : Bytes) : Context :=
  let (state, pending) := absorb c.state (c.pending ++ data)
  ⟨state, pending, c.length + data.length⟩

/-- The `n` bytes of a number, least significant first. -/
def littleEndian : Nat → Nat → Bytes
  | 0, _ => []
  | n + 1, value => UInt8.ofNat value :: littleEndian n (value / 256)

/-- The end of a message of `length` bytes: a one bit, zeros up to eight bytes
before the end of a block, and the length in bits. -/
def padding (length : Nat) : Bytes :=
  0x80 :: List.replicate ((119 - length % 64) % 64) 0 ++ littleEndian 8 (8 * length)

/-- The sixteen bytes of the digest. -/
def Context.finish (c : Context) : Bytes :=
  let s := (absorb c.state (c.pending ++ padding c.length)).1
  [s.a, s.b, s.c, s.d].flatMap fun w => littleEndian 4 w.toNat

/-- The digest of a whole message. -/
def digest (data : Bytes) : Bytes := (Context.empty.consume data).finish

/-- The digest of a whole message in lower-case hexadecimal digits. -/
def hex (data : Bytes) : String := Hex.lower (digest data)

end Deposit.Md5
