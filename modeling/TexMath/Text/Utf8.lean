/-
UTF-8, read strictly.

The first byte of a character says how many bytes follow it and bounds
the second byte, so that neither a longer form than needed, nor a
surrogate, nor a code point above U+10FFFF is read. A byte sequence that
is not well formed is refused at the first character that cannot be
completed; the refusal names the bytes of that character that were
acceptable, at least its first, and one of three reasons.
-/
namespace TexMath.Text.Utf8

-- =============================================================== refusals

/-- Why a byte sequence is refused. -/
inductive Reason where
  /-- No character starts with this byte. -/
  | startByte
  /-- A byte cannot continue the character. -/
  | continuation
  /-- The sequence ends within a character. -/
  | endOfData
deriving DecidableEq, Repr

/-- The reason in words. -/
def Reason.message : Reason → String
  | startByte => "invalid start byte"
  | continuation => "invalid continuation byte"
  | endOfData => "unexpected end of data"

/-- A refused sequence: where its bad character starts, the first byte
of it, and how many of its bytes were acceptable. -/
structure Refusal where
  position : Nat
  byte : UInt8
  length : Nat
  reason : Reason
deriving DecidableEq, Repr

/-- A byte in two hexadecimal digits. -/
def hexByte (b : UInt8) : String :=
  String.ofList [(b.toNat / 16).digitChar, (b.toNat % 16).digitChar]

/-- The refusal in words. -/
def Refusal.message (r : Refusal) : String :=
  let place :=
    if r.length = 1 then s!"byte 0x{hexByte r.byte} in position {r.position}"
    else s!"bytes in position {r.position}-{r.position + r.length - 1}"
  s!"'utf-8' codec can't decode {place}: {r.reason.message}"

-- =============================================================== decoding

/-- A character of which some bytes have been read. -/
structure Unfinished where
  /-- The first byte. -/
  byte : UInt8
  /-- The number of bytes read. -/
  length : Nat
  /-- The bits read, as a number. -/
  value : Nat
  /-- The number of bytes that follow the next one. -/
  owed : Nat
  /-- The bounds of the next byte. -/
  low : Nat
  high : Nat
deriving DecidableEq, Repr

/-- What a first byte announces. -/
inductive First where
  | whole (c : Char)
  | part (u : Unfinished)
  | invalid
deriving DecidableEq, Repr

/-- Reads the first byte of a character. -/
def first (byte : UInt8) : First :=
  let b := byte.toNat
  if b ≤ 0x7f then .whole (Char.ofNat b)
  else if b < 0xc2 then .invalid
  else if b ≤ 0xdf then .part ⟨byte, 1, b - 0xc0, 0, 0x80, 0xbf⟩
  else if b = 0xe0 then .part ⟨byte, 1, 0, 1, 0xa0, 0xbf⟩
  else if b = 0xed then .part ⟨byte, 1, 0xd, 1, 0x80, 0x9f⟩
  else if b ≤ 0xef then .part ⟨byte, 1, b - 0xe0, 1, 0x80, 0xbf⟩
  else if b = 0xf0 then .part ⟨byte, 1, 0, 2, 0x90, 0xbf⟩
  else if b ≤ 0xf3 then .part ⟨byte, 1, b - 0xf0, 2, 0x80, 0xbf⟩
  else if b = 0xf4 then .part ⟨byte, 1, 4, 2, 0x80, 0x8f⟩
  else .invalid

/-- The bits of a character with those of a following byte. -/
def Unfinished.bits (u : Unfinished) (b : UInt8) : Nat :=
  64 * u.value + (b.toNat - 0x80)

/-- The character with one more byte, which is not its last. -/
def Unfinished.push (u : Unfinished) (b : UInt8) (owed : Nat) : Unfinished :=
  ⟨u.byte, u.length + 1, u.bits b, owed, 0x80, 0xbf⟩

/-- The refusal of a character at a position. -/
def Unfinished.refuse (u : Unfinished) (position : Nat) (reason : Reason) : Refusal :=
  ⟨position, u.byte, u.length, reason⟩

/-- Reads on behind the characters `found`, the last one first. The
character that starts at `position` may be unfinished. -/
def decodeFrom (found : List Char) (position : Nat) :
    Option Unfinished → List UInt8 → Except Refusal (List Char)
  | none, [] => .ok found.reverse
  | some u, [] => .error (u.refuse position .endOfData)
  | none, b :: rest =>
    match first b with
    | .whole c => decodeFrom (c :: found) (position + 1) none rest
    | .part u => decodeFrom found position (some u) rest
    | .invalid => .error ⟨position, b, 1, .startByte⟩
  | some u, b :: rest =>
    if u.low ≤ b.toNat ∧ b.toNat ≤ u.high then
      match u.owed with
      | 0 => decodeFrom (Char.ofNat (u.bits b) :: found) (position + u.length + 1) none rest
      | owed + 1 => decodeFrom found position (some (u.push b owed)) rest
    else .error (u.refuse position .continuation)

/-- The characters that a byte sequence encodes. -/
def decode (bytes : List UInt8) : Except Refusal (List Char) :=
  decodeFrom [] 0 none bytes

/-- The bytes that encode a text. -/
def encode (text : List Char) : List UInt8 :=
  text.flatMap String.utf8EncodeChar

example : decode [0xc3, 0xa9, 0x41] = .ok ['é', 'A'] := rfl

example : decode [0x41, 0xe2, 0x82] = .error ⟨1, 0xe2, 2, .endOfData⟩ := rfl

example : decode [0xf0, 0x80] = .error ⟨0, 0xf0, 1, .continuation⟩ := rfl

end TexMath.Text.Utf8
