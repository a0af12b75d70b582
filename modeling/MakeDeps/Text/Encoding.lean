import MakeDeps.Text.Quoted
import MakeDeps.Text.Utf8

/-!
# Encodings

Text files are written in an encoding, which has bytes for some characters and none for others. A
text with a character that has no bytes is not written at all; the refusal names the first run of
such characters.

A name or an argument need not be text: the bytes that are none are held by characters of their
own, lone surrogates, for which UTF-8 has no bytes. A `Char` is no surrogate, so an encoding says
which characters stand for them.
-/

namespace MakeDeps.Text

/-- How characters are written as bytes. -/
structure Encoding where
  /-- What the encoding is called in messages. -/
  name : String
  /-- The bytes of a character, if it has any. -/
  bytes? : Char → Option (List UInt8)
  /-- What is said of a character without bytes. -/
  complaint : String

/-- Characters that an encoding has no bytes for, with the place in the text where they start. -/
structure EncodingError where
  encoding : String
  position : Nat
  characters : List Char
  complaint : String
  deriving DecidableEq, Repr

namespace EncodingError

/-- A character by its number. -/
def escape (c : Char) : List Char :=
  if c.toNat < 0x100 then '\\' :: 'x' :: hexDigits 2 c.toNat
  else if c.toNat < 0x10000 then '\\' :: 'u' :: hexDigits 4 c.toNat
  else '\\' :: 'U' :: hexDigits 8 c.toNat

/-- Which characters cannot be written, in words. -/
def subject (e : EncodingError) : String :=
  match e.characters with
  | [c] => "character '" ++ String.ofList (escape c) ++ "' in position " ++ toString e.position
  | cs => "characters in position " ++ toString e.position ++ "-" ++
      toString (e.position + cs.length - 1)

/-- The refusal in words. -/
def message (e : EncodingError) : String :=
  "'" ++ e.encoding ++ "' codec can't encode " ++ e.subject ++ ": " ++ e.complaint

end EncodingError

namespace Encoding

/-- Does the encoding have bytes for the character? -/
def has (enc : Encoding) (c : Char) : Bool :=
  (enc.bytes? c).isSome

/-- The first characters of a text that the encoding has no bytes for, as far as they follow one
another. -/
def firstLack? (enc : Encoding) (cs : List Char) : Option EncodingError :=
  match cs.dropWhile enc.has with
  | [] => none
  | c :: rest => some ⟨enc.name, (cs.takeWhile enc.has).length,
      c :: rest.takeWhile (!enc.has ·), enc.complaint⟩

/-- The bytes of a text, or why it has none. -/
def encode (enc : Encoding) (s : String) : Except EncodingError (List UInt8) :=
  match enc.firstLack? s.toList with
  | some e => .error e
  | none => .ok (s.toList.flatMap fun c => (enc.bytes? c).getD [])

/-- UTF-8, with a choice of the characters that stand for lone surrogates and for nothing else. -/
def utf8 (isSurrogate : Char → Bool) : Encoding where
  name := "utf-8"
  bytes? c := if isSurrogate c then none else some (String.utf8EncodeChar c)
  complaint := "surrogates not allowed"

end Encoding

end MakeDeps.Text
