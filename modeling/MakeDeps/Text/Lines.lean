/-!
# Lines of a text

A text is a sequence of lines, each ended by a line break or by the end of the text. A carriage
return followed by a line feed is one break. The splitter takes one character at a time, so the
lines of a concatenation continue where the first part stopped: see `Splitter.feed_append`.
-/

namespace MakeDeps.Text

/-- The characters that end a line. -/
def isLineBreak (c : Char) : Bool :=
  let n := c.toNat
  (0x0A ≤ n && n ≤ 0x0D) || (0x1C ≤ n && n ≤ 0x1E) || n == 0x85 || n == 0x2028 || n == 0x2029

/-- The splitter between two characters: the finished lines, last one first, the line in
progress, last character first, and whether the last character was a carriage return. -/
structure Splitter where
  finished : List (List Char)
  current : List Char
  afterReturn : Bool
  deriving DecidableEq

/-- The splitter before the first character. -/
def Splitter.start : Splitter := ⟨[], [], false⟩

/-- Takes one character. A line feed after a carriage return belongs to the same break. -/
def Splitter.step (s : Splitter) (c : Char) : Splitter :=
  if c = '\n' ∧ s.afterReturn then { s with afterReturn := false }
  else if isLineBreak c then ⟨s.current.reverse :: s.finished, [], c = '\r'⟩
  else ⟨s.finished, c :: s.current, false⟩

/-- Takes characters from left to right. -/
def Splitter.feed (s : Splitter) (cs : List Char) : Splitter :=
  cs.foldl Splitter.step s

/-- The lines at the end of the text; after a final break there is no further line. -/
def Splitter.finish (s : Splitter) : List (List Char) :=
  if s.current = [] then s.finished.reverse else (s.current.reverse :: s.finished).reverse

/-- The lines of a text, without their breaks. -/
def lines (cs : List Char) : List (List Char) :=
  (Splitter.start.feed cs).finish

/-- Splitting a concatenation goes on from where the first part left the splitter. -/
theorem Splitter.feed_append (s : Splitter) (xs ys : List Char) :
    s.feed (xs ++ ys) = (s.feed xs).feed ys := by
  simp [feed]

end MakeDeps.Text
