import Mathlib.Data.List.Basic
import Mathlib.Data.List.TakeWhile
import MakeDeps.Text.Encoding

/-!
# What can be encoded

A text has bytes where each of its characters has, and its bytes are theirs in turn
(`encode_eq_ok_iff`). UTF-8 has the bytes of every text without surrogates
(`encode_utf8_eq_ok_iff`).
-/

namespace MakeDeps.Text.Encoding

variable {enc : Encoding} {cs : List Char} {s : String} {bytes : List UInt8}

/-- Nothing is lacking exactly where every character has bytes. -/
lemma firstLack?_eq_none_iff : enc.firstLack? cs = none ↔ ∀ c ∈ cs, enc.has c = true := by
  rw [← List.dropWhile_eq_nil_iff, firstLack?]
  cases cs.dropWhile enc.has <;> simp

/-- A text has bytes exactly where all of its characters have. -/
lemma encode_eq_ok_iff : enc.encode s = .ok bytes ↔ (∀ c ∈ s.toList, enc.has c = true) ∧
    bytes = s.toList.flatMap fun c => (enc.bytes? c).getD [] := by
  rw [← firstLack?_eq_none_iff, encode]
  cases enc.firstLack? s.toList with
  | none => simp [eq_comm]
  | some e => simp

/-- UTF-8 writes the texts without surrogates, as the bytes that they have. -/
lemma encode_utf8_eq_ok_iff {isSurrogate : Char → Bool} :
    (utf8 isSurrogate).encode s = .ok bytes ↔
      (∀ c ∈ s.toList, isSurrogate c = false) ∧ bytes = Utf8.encode s.toList := by
  have hhas (c : Char) : (utf8 isSurrogate).has c = true ↔ isSurrogate c = false := by
    cases h : isSurrogate c <;> simp [has, utf8, h]
  rw [encode_eq_ok_iff]
  simp only [hhas]
  refine and_congr_right fun hnone => ?_
  have hbytes : ∀ c ∈ s.toList,
      ((utf8 isSurrogate).bytes? c).getD [] = String.utf8EncodeChar c := by
    intro c hc
    simp [utf8, hnone c hc]
  rw [List.flatMap_congr hbytes, Utf8.encode]

end MakeDeps.Text.Encoding
