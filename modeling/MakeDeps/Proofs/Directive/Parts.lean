import Mathlib.Tactic.Lemma
import MakeDeps.Directive

/-!
# Directives of a file in parts

A line end cuts a file in two, whatever the bytes around it are: a byte of ASCII ends a character
that has begun (`decode_append_ascii`), and a line break ends a line (`filledLines_append_break`).
So the directives of a file are those of the parts between its line ends, one after the other,
whichever way lines are ended: `ofContent_lineEnd`, `ofContent_joined`.
-/

namespace MakeDeps

namespace Text.Utf8

variable {d : Decoder} {b : UInt8}

namespace Decoder

/-- No byte of ASCII can continue a character that has begun. -/
def IsSound (d : Decoder) : Prop :=
  ∀ p ∈ d.pending, 0x80 ≤ p.low

/-- The decoder is sound at the start. -/
lemma isSound_start : start.IsSound := by
  simp [IsSound, start]

/-- A decoder that begins a character is sound. -/
lemma isSound_begin (decoded : List Char) (b : UInt8) : (begin decoded b).IsSound := by
  unfold begin
  repeat' split
  all_goals simp [IsSound]

/-- A step leads to a sound decoder. -/
lemma isSound_step (d : Decoder) (b : UInt8) : (d.step b).IsSound := by
  unfold Decoder.step
  split
  · exact isSound_begin _ b
  · split
    · split
      · simp [IsSound]
      · simp [IsSound]
    · exact isSound_begin _ b

/-- A sound decoder stays sound. -/
lemma IsSound.feed (h : d.IsSound) (bytes : List UInt8) : (d.feed bytes).IsSound := by
  induction bytes generalizing d with
  | nil => exact h
  | cons b bytes ih => exact ih (d.isSound_step b)

/-- A byte of ASCII ends a character that has begun as the end of the input does, and stands for
itself. -/
lemma IsSound.step_ascii (h : d.IsSound) (hb : b < 0x80) :
    d.step b = ⟨Char.ofNat b.toNat :: d.finish.reverse, none⟩ := by
  cases hpending : d.pending with
  | none => simp [Decoder.step, finish, hpending, begin, hb]
  | some p =>
    have hlow : ¬(p.low ≤ b ∧ b ≤ p.high) := by
      rintro ⟨hle, -⟩
      exact absurd (UInt8.le_trans (h p hpending) hle) (UInt8.not_le.2 hb)
    simp [Decoder.step, finish, hpending, begin, hb, hlow]

/-- The decoder with text in front of what it has decoded. -/
def after (text : List Char) (d : Decoder) : Decoder :=
  ⟨d.decoded ++ text.reverse, d.pending⟩

/-- What has been decoded before does not matter to the beginning of a character. -/
lemma begin_after (text decoded : List Char) (b : UInt8) :
    begin (decoded ++ text.reverse) b = (begin decoded b).after text := by
  unfold begin
  repeat' split
  all_goals rfl

/-- What has been decoded before does not matter to a step. -/
lemma step_after (text : List Char) (d : Decoder) (b : UInt8) :
    (d.after text).step b = (d.step b).after text := by
  unfold Decoder.step after
  dsimp only
  split
  · exact begin_after text d.decoded b
  · split
    · split
      · rfl
      · rfl
    · exact begin_after text (replacement :: d.decoded) b

/-- What has been decoded before does not matter to any bytes. -/
lemma feed_after (text : List Char) (d : Decoder) (bytes : List UInt8) :
    (d.after text).feed bytes = (d.feed bytes).after text := by
  induction bytes generalizing d with
  | nil => rfl
  | cons b bytes ih =>
    rw [feed, List.foldl_cons, step_after]
    exact ih (d.step b)

/-- What has been decoded before comes first in the end. -/
lemma finish_after (text : List Char) (d : Decoder) : (d.after text).finish = text ++ d.finish := by
  unfold finish after
  cases d.pending <;> simp

end Decoder

/-- Decoding starts anew behind a byte of ASCII. -/
lemma decode_append_ascii (hb : b < 0x80) (xs ys : List UInt8) :
    decode (xs ++ b :: ys) = decode xs ++ Char.ofNat b.toNat :: decode ys := by
  have hstep : (Decoder.start.feed xs).step b =
      Decoder.start.after (decode xs ++ [Char.ofNat b.toNat]) := by
    rw [(Decoder.isSound_start.feed xs).step_ascii hb]
    simp [Decoder.after, Decoder.start, decode]
  calc decode (xs ++ b :: ys)
      = (((Decoder.start.feed xs).step b).feed ys).finish := by
        rw [decode, Decoder.feed_append]
        rfl
    _ = decode xs ++ [Char.ofNat b.toNat] ++ decode ys := by
        rw [hstep, Decoder.feed_after, Decoder.finish_after]
        rfl
    _ = decode xs ++ Char.ofNat b.toNat :: decode ys := by
        rw [List.append_assoc, List.singleton_append]

end Text.Utf8

namespace Text

/-- The lines of a text that are not empty. -/
def filledLines (cs : List Char) : List (List Char) :=
  (cs.splitOnP isLineBreak).filter (· ≠ [])

/-- The lines before a break and those behind it make up the lines. -/
lemma filledLines_append_break {c : Char} (hc : isLineBreak c = true) (xs ys : List Char) :
    filledLines (xs ++ c :: ys) = filledLines xs ++ filledLines ys := by
  rw [filledLines, List.splitOnP_append_cons xs ys hc, List.filter_append]
  rfl

/-- A text without breaks is one line, unless it is empty. -/
lemma filledLines_of_not_break {cs : List Char} (h : ∀ c ∈ cs, isLineBreak c = false) :
    filledLines cs = if cs = [] then [] else [cs] := by
  rw [filledLines, List.splitOnP_eq_singleton h]
  cases cs <;> simp

/-- What a splitter has in the end: the lines that were finished, and those of the line in progress
and the rest of the text. -/
lemma filter_finish_feed {s : Splitter} (hreturn : s.afterReturn = true → s.current = [])
    (hcurrent : ∀ c ∈ s.current, isLineBreak c = false) (cs : List Char) :
    (s.feed cs).finish.filter (· ≠ []) =
      s.finished.reverse.filter (· ≠ []) ++ filledLines (s.current.reverse ++ cs) := by
  induction cs generalizing s with
  | nil =>
    have hline : filledLines s.current.reverse = _ :=
      filledLines_of_not_break (by simpa using hcurrent)
    rw [List.append_nil, hline, Splitter.feed, List.foldl_nil, Splitter.finish]
    by_cases hnil : s.current = [] <;> simp [hnil]
  | cons c cs ih =>
    rw [Splitter.feed, List.foldl_cons, ← Splitter.feed]
    unfold Splitter.step
    split
    · next hsecond =>
      -- the second character of a break of two
      obtain ⟨rfl, hafter⟩ := hsecond
      have hnil := hreturn hafter
      have hbreak := filledLines_append_break (c := '\n') (by decide) [] cs
      rw [ih (by simp) (by simpa using hcurrent)]
      simp only [hnil, List.reverse_nil, List.nil_append] at hbreak ⊢
      rw [hbreak]
      rfl
    · split
      · next hbreak =>
        have hline : filledLines s.current.reverse = _ :=
          filledLines_of_not_break (by simpa using hcurrent)
        rw [ih (by simp) (by simp), filledLines_append_break hbreak, hline]
        by_cases hnil : s.current = [] <;> simp [hnil]
      · next hplain =>
        have hcurrent' : ∀ d ∈ c :: s.current, isLineBreak d = false :=
          List.forall_mem_cons.2 ⟨Bool.eq_false_iff.2 hplain, hcurrent⟩
        rw [ih (by simp) hcurrent', List.reverse_cons, List.append_assoc, List.singleton_append]

/-- The lines that are not empty are the filled ones. -/
lemma filter_lines (cs : List Char) : (lines cs).filter (· ≠ []) = filledLines cs := by
  rw [lines, filter_finish_feed (by simp [Splitter.start]) (by simp [Splitter.start])]
  rfl

end Text

namespace Directive
open Text

/-- How a line is ended in a file. -/
inductive LineEnd where
  | lineFeed
  | carriageReturn
  | both
  deriving DecidableEq

/-- The bytes of an end of a line. -/
def LineEnd.bytes : LineEnd → List UInt8
  | lineFeed => [0x0A]
  | carriageReturn => [0x0D]
  | both => [0x0D, 0x0A]

/-- Parts of a file with line ends between them. -/
def joined (first : List UInt8) (rest : List (LineEnd × List UInt8)) : List UInt8 :=
  first ++ rest.flatMap fun part => part.1.bytes ++ part.2

/-- An empty line is no directive, so only the other lines count. -/
lemma ofContent_eq (content : List UInt8) :
    ofContent content = (filledLines (Utf8.decode content)).filterMap ofLine := by
  have hempty : ofLine [] = none := by decide
  rw [ofContent, ← filter_lines, List.filterMap_filter]
  congr 1
  funext line
  by_cases hline : line = [] <;> simp [hline, hempty]

/-- Without content there are no directives. -/
lemma ofContent_nil : ofContent [] = [] := by
  decide

/-- A byte that is a line break cuts a file in two. -/
lemma ofContent_append_break {b : UInt8} (hb : b < 0x80)
    (hbreak : isLineBreak (Char.ofNat b.toNat) = true) (xs ys : List UInt8) :
    ofContent (xs ++ b :: ys) = ofContent xs ++ ofContent ys := by
  rw [ofContent_eq, Utf8.decode_append_ascii hb, filledLines_append_break hbreak,
    List.filterMap_append, ← ofContent_eq, ← ofContent_eq]

/-- The directives before a line end and those behind it make up the directives. -/
lemma ofContent_lineEnd (xs ys : List UInt8) (lineEnd : LineEnd) :
    ofContent (xs ++ lineEnd.bytes ++ ys) = ofContent xs ++ ofContent ys := by
  rw [List.append_assoc]
  cases lineEnd with
  | lineFeed => exact ofContent_append_break (by decide) (by decide) xs ys
  | carriageReturn => exact ofContent_append_break (by decide) (by decide) xs ys
  | both =>
    -- between the two characters there is an empty line
    have hsecond : ofContent ([] ++ 0x0A :: ys) = ofContent [] ++ ofContent ys :=
      ofContent_append_break (by decide) (by decide) [] ys
    rw [ofContent_nil, List.nil_append, List.nil_append] at hsecond
    exact (ofContent_append_break (by decide) (by decide) xs (0x0A :: ys)).trans (by rw [hsecond])

/-- The directives of a file are those of its parts. -/
lemma ofContent_joined (first : List UInt8) (rest : List (LineEnd × List UInt8)) :
    ofContent (joined first rest) =
      ofContent first ++ rest.flatMap fun part => ofContent part.2 := by
  induction rest generalizing first with
  | nil => simp [joined]
  | cons part rest ih =>
    have hsplit : joined first (part :: rest) = first ++ part.1.bytes ++ joined part.2 rest := by
      simp [joined]
    rw [hsplit, ofContent_lineEnd, ih, List.flatMap_cons]

end Directive

end MakeDeps
