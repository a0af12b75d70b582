/-!
# UTF-8

Text from bytes and bytes from text. Decoding never fails: each maximal part of the input that is
no character, nor the beginning of one that the input completes, becomes one replacement
character. The decoder is a machine that takes one byte at a time, so decoding a concatenation
continues where the first part stopped: see `feed_append`.
-/

namespace MakeDeps.Text.Utf8

/-- The character that stands for bytes that are no text. -/
def replacement : Char := '\uFFFD'

/-- A character that has begun: how many bytes are still to come after the next one, the range in
which the next one must lie, and the bits read so far. -/
structure Pending where
  later : Nat
  low : UInt8
  high : UInt8
  bits : Nat
  deriving DecidableEq, Repr

/-- The decoder between two bytes: the text so far, last character first, and the character that
has begun, if any. -/
structure Decoder where
  decoded : List Char
  pending : Option Pending
  deriving DecidableEq

/-- The decoder before the first byte. -/
def Decoder.start : Decoder := ⟨[], none⟩

/-- Takes a byte that begins a character, or stands for none. -/
def Decoder.begin (decoded : List Char) (b : UInt8) : Decoder :=
  if b < 0x80 then ⟨Char.ofNat b.toNat :: decoded, none⟩
  else if 0xC2 ≤ b ∧ b ≤ 0xDF then ⟨decoded, some ⟨0, 0x80, 0xBF, b.toNat - 0xC0⟩⟩
  else if b = 0xE0 then ⟨decoded, some ⟨1, 0xA0, 0xBF, 0⟩⟩
  else if b = 0xED then ⟨decoded, some ⟨1, 0x80, 0x9F, 0xD⟩⟩
  else if 0xE1 ≤ b ∧ b ≤ 0xEF then ⟨decoded, some ⟨1, 0x80, 0xBF, b.toNat - 0xE0⟩⟩
  else if b = 0xF0 then ⟨decoded, some ⟨2, 0x90, 0xBF, 0⟩⟩
  else if 0xF1 ≤ b ∧ b ≤ 0xF3 then ⟨decoded, some ⟨2, 0x80, 0xBF, b.toNat - 0xF0⟩⟩
  else if b = 0xF4 then ⟨decoded, some ⟨2, 0x80, 0x8F, 4⟩⟩
  else ⟨replacement :: decoded, none⟩

/-- Takes one byte. A byte that cannot continue the character that has begun ends it as
ill-formed, and is then looked at on its own. -/
def Decoder.step (d : Decoder) (b : UInt8) : Decoder :=
  match d.pending with
  | none => .begin d.decoded b
  | some p =>
    if p.low ≤ b ∧ b ≤ p.high then
      let bits := p.bits * 64 + (b.toNat - 0x80)
      match p.later with
      | 0 => ⟨Char.ofNat bits :: d.decoded, none⟩
      | later + 1 => ⟨d.decoded, some ⟨later, 0x80, 0xBF, bits⟩⟩
    else .begin (replacement :: d.decoded) b

/-- Takes bytes from left to right. -/
def Decoder.feed (d : Decoder) (bytes : List UInt8) : Decoder :=
  bytes.foldl Decoder.step d

/-- The text at the end of the input, where a character that has begun stays incomplete. -/
def Decoder.finish (d : Decoder) : List Char :=
  match d.pending with
  | none => d.decoded.reverse
  | some _ => (replacement :: d.decoded).reverse

/-- The text that the bytes stand for. -/
def decode (bytes : List UInt8) : List Char :=
  (Decoder.start.feed bytes).finish

/-- The bytes of a text. -/
def encode (cs : List Char) : List UInt8 :=
  cs.flatMap String.utf8EncodeChar

/-- Decoding a concatenation goes on from where the first part left the decoder. -/
theorem Decoder.feed_append (d : Decoder) (xs ys : List UInt8) :
    d.feed (xs ++ ys) = (d.feed xs).feed ys := by
  simp [feed]

end MakeDeps.Text.Utf8
