import MakeDeps.Text.Blank
import MakeDeps.Text.Cut
import MakeDeps.Text.Quoted

/-!
# Libraries of system headers

A system header is never opened; all that matters is whether a program that includes it must be
linked with a library. A `LibraryTable` answers that. Users extend it by pairs `HEADER=LIB`, and
the last pair for a header counts.
-/

namespace MakeDeps

/-- Which library a header needs: pairs of header and library, at most one for each header. -/
structure LibraryTable where
  entries : List (String × String)
  deriving DecidableEq

namespace LibraryTable

/-- The table without any header. -/
def empty : LibraryTable := ⟨[]⟩

/-- The library of a header. -/
def library? (t : LibraryTable) (header : String) : Option String :=
  t.entries.lookup header

/-- The table in which `header` needs `library`, whatever it needed before. -/
def insert (t : LibraryTable) (header library : String) : LibraryTable :=
  ⟨t.entries.filter (fun entry => entry.1 ≠ header) ++ [(header, library)]⟩

/-- The table extended by pairs from left to right. -/
def extend (t : LibraryTable) (pairs : List (String × String)) : LibraryTable :=
  pairs.foldl (fun t pair => t.insert pair.1 pair.2) t

/-- The table of the pairs; of two pairs with one header the later one counts. -/
def ofList (pairs : List (String × String)) : LibraryTable :=
  empty.extend pairs

/-- The headers of common libraries. -/
def standard : LibraryTable := ⟨[
  ("math.h", "m"),
  ("pthread.h", "pthread"),
  ("thread", "pthread"),
  ("ncurses.h", "ncurses"),
  ("curses.h", "ncurses"),
  ("zlib.h", "z"),
  ("dlfcn.h", "dl")]⟩

/-- An insertion changes the library of its header and of no other. -/
theorem library?_insert (t : LibraryTable) (header library other : String) :
    (t.insert header library).library? other =
      if other = header then some library else t.library? other := by
  have filtered : ∀ xs : List (String × String),
      (xs.filter fun entry => entry.1 ≠ header).lookup other =
        if other = header then none else xs.lookup other := by
    intro xs
    induction xs with
    | nil => simp
    | cons x xs ih =>
      obtain ⟨k, v⟩ := x
      by_cases hk : k = header
      · by_cases ho : other = header
        · simp [hk, ho] at ih ⊢
          exact ih
        · simp only [hk, ne_eq, not_true_eq_false, decide_false, Bool.false_eq_true,
            not_false_eq_true, List.filter_cons_of_neg, ih, ho, if_false, List.lookup_cons,
            beq_eq_false_iff_ne.2 ho]
      · by_cases ho : other = k
        · subst ho
          simp [hk]
        · simp only [ne_eq, hk, not_false_eq_true, decide_true, List.filter_cons_of_pos,
            List.lookup_cons, beq_eq_false_iff_ne.2 ho, ih]
  unfold insert library?
  rw [List.lookup_append, filtered]
  by_cases ho : other = header
  · simp [ho]
  · simp [ho, List.lookup_cons, beq_eq_false_iff_ne.2 ho]

end LibraryTable

/-- The flag that may be written before a library name. -/
def libraryFlag : String := "-l"

/-- Reads a pair `HEADER=LIB`, or gives back the text that is none. Neither side may be blank; a
flag before the library is dropped after that check. -/
def readPair (spec : String) : Except String (String × String) :=
  match Text.cutFirst '=' spec.toList with
  | none => .error spec
  | some (left, right) =>
    let header := Text.trim left
    let library := Text.trim right
    if header = [] ∨ library = [] then .error spec
    else .ok (String.ofList header, Text.withoutStart libraryFlag (String.ofList library))

/-- Reads pairs, or gives back the first text that is none. -/
def readPairs (specs : List String) : Except String (List (String × String)) :=
  specs.mapM readPair

/-- What is said of a text that is no pair. -/
def badPairMessage (spec : String) : String :=
  "expected HEADER=LIB, got " ++ Text.quote spec

end MakeDeps
