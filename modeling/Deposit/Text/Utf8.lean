/-!
UTF-8 on lists: the bytes of a text, and the text of bytes.

`encode` writes each character on its own. `decode` reads one character at a
time and stops at the first sequence that is none, saying where it starts and
how many of its bytes are wrong together; a sequence that the end cuts off has
no such length.
-/

namespace Deposit

/-- The content of a file, a message body or a document. -/
abbrev Bytes := List UInt8

namespace Utf8

/-- The bytes of a text. -/
def encode (text : List Char) : Bytes :=
  text.flatMap String.utf8EncodeChar

/-- Where bytes stop being text: the index of the first byte of the faulty
sequence, and the number of bytes that cannot go on, or `none` when the input
ends inside the sequence. -/
structure Fault where
  start : Nat
  length : Option Nat
  deriving DecidableEq, Repr

/-- The wording of a fault. -/
def Fault.message (f : Fault) : String :=
  match f.length with
  | some n => s!"invalid utf-8 sequence of {n} bytes from index {f.start}"
  | none => s!"incomplete utf-8 byte sequence from index {f.start}"

/-- A continuation byte, `10xxxxxx`. -/
def isTail (b : UInt8) : Bool := 0x80 ≤ b && b ≤ 0xBF

/-- The six payload bits of a continuation byte. -/
def tailBits (b : UInt8) : Nat := b.toNat % 0x40

/-- One step of reading: a character with what follows it, or the number of
bytes that are wrong together. -/
inductive Step where
  | char (c : Char) (rest : Bytes)
  | bad (length : Option Nat)
  deriving DecidableEq

/-- Whether `b` may follow the lead byte of a sequence of three bytes: no
overlong forms, no surrogates. -/
def secondOfThree (lead b : UInt8) : Bool :=
  isTail b && (lead != 0xE0 || 0xA0 ≤ b) && (lead != 0xED || b ≤ 0x9F)

/-- Whether `b` may follow the lead byte of a sequence of four bytes: no
overlong forms, nothing above U+10FFFF. -/
def secondOfFour (lead b : UInt8) : Bool :=
  isTail b && (lead != 0xF0 || 0x90 ≤ b) && (lead != 0xF4 || b ≤ 0x8F)

/-- Reads the first character of `lead :: rest`. -/
def step (lead : UInt8) (rest : Bytes) : Step :=
  if lead < 0x80 then .char (Char.ofNat lead.toNat) rest
  else if lead < 0xC2 then .bad (some 1)
  else if lead < 0xE0 then
    match rest with
    | [] => .bad none
    | b :: rest =>
      if isTail b then .char (Char.ofNat ((lead.toNat - 0xC0) * 0x40 + tailBits b)) rest
      else .bad (some 1)
  else if lead < 0xF0 then
    match rest with
    | [] => .bad none
    | b :: rest =>
      if secondOfThree lead b then
        match rest with
        | [] => .bad none
        | c :: rest =>
          if isTail c then
            .char (Char.ofNat (((lead.toNat - 0xE0) * 0x40 + tailBits b) * 0x40 + tailBits c)) rest
          else .bad (some 2)
      else .bad (some 1)
  else if lead < 0xF5 then
    match rest with
    | [] => .bad none
    | b :: rest =>
      if secondOfFour lead b then
        match rest with
        | [] => .bad none
        | c :: rest =>
          if isTail c then
            match rest with
            | [] => .bad none
            | d :: rest =>
              if isTail d then
                .char (Char.ofNat ((((lead.toNat - 0xF0) * 0x40 + tailBits b) * 0x40
                  + tailBits c) * 0x40 + tailBits d)) rest
              else .bad (some 3)
          else .bad (some 2)
      else .bad (some 1)
  else .bad (some 1)

/-- Each step takes at least the lead byte. -/
theorem step_rest_length {lead : UInt8} {rest rest' : Bytes} {c : Char}
    (h : step lead rest = .char c rest') : rest'.length ≤ rest.length := by
  unfold step at h
  repeat' split at h
  all_goals
    first
    | (simp only [Step.char.injEq] at h; obtain ⟨-, rfl⟩ := h; simp; try omega)
    | simp at h

/-- Reads the text of `bytes`, which start at index `start` of their source. -/
def decodeFrom (start : Nat) : Bytes → Except Fault (List Char)
  | [] => .ok []
  | lead :: rest =>
    match h : step lead rest with
    | .bad length => .error ⟨start, length⟩
    | .char c rest' =>
      have : rest'.length ≤ rest.length := step_rest_length h
      match decodeFrom (start + c.utf8Size) rest' with
      | .ok cs => .ok (c :: cs)
      | .error f => .error f
termination_by bytes => bytes.length
decreasing_by exact Nat.lt_succ_of_le (by assumption)

/-- The text of `bytes`, or the first fault. -/
def decode (bytes : Bytes) : Except Fault (List Char) := decodeFrom 0 bytes

/-- The text of `bytes`, each faulty sequence shown as U+FFFD. -/
def decodeLossy : Bytes → List Char
  | [] => []
  | lead :: rest =>
    match h : step lead rest with
    | .char c rest' =>
      have : rest'.length ≤ rest.length := step_rest_length h
      c :: decodeLossy rest'
    | .bad none => ['\uFFFD']
    | .bad (some n) =>
      '\uFFFD' :: decodeLossy (rest.drop (n - 1))
termination_by bytes => bytes.length
decreasing_by
  · exact Nat.lt_succ_of_le (by assumption)
  · exact Nat.lt_succ_of_le (List.length_drop ▸ Nat.sub_le _ _)

/-- Whether `bytes` are text. -/
def isText (bytes : Bytes) : Bool :=
  match decode bytes with
  | .ok _ => true
  | .error _ => false

/-- The bytes of a string. -/
def bytes (s : String) : Bytes := encode s.toList

end Utf8

end Deposit
