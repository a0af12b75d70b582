import Mathlib.Data.List.Induction
import MakeDeps.Library
import MakeDeps.Proofs.Resolver.Includes

/-!
# Which library a header needs

A table that is extended by pairs answers with the last pair for a header, and as before where there
is none: `library?_extend`. It makes no difference if the pairs are collected in a table of their
own first: `extend_ofList`. So with pairs that the user gave, the last text that names a header
decides (`library?_of_readPairs`).
-/

namespace MakeDeps

namespace LibraryTable

variable {t t' : LibraryTable} {header : String}

/-- A table extended twice is extended by both lists. -/
lemma extend_append (t : LibraryTable) (xs ys : List (String × String)) :
    t.extend (xs ++ ys) = (t.extend xs).extend ys :=
  List.foldl_append

/-- The last pair for a header counts; without any, the table is asked. -/
lemma library?_extend (t : LibraryTable) (pairs : List (String × String)) (header : String) :
    (t.extend pairs).library? header = (pairs.reverse.lookup header).or (t.library? header) := by
  induction pairs generalizing t with
  | nil => rfl
  | cons pair pairs ih =>
    have hfirst : (t.insert pair.1 pair.2).library? header =
        ([pair].lookup header).or (t.library? header) := by
      rw [library?_insert, List.lookup_cons]
      by_cases heq : header = pair.1
      · simp [heq]
      · simp [heq, beq_eq_false_iff_ne.2 heq]
    rw [List.reverse_cons, List.lookup_append, Option.or_assoc, ← hfirst]
    exact ih _

/-- Apart from one header, a table is extended in the same way whether or not the pairs for that
header are left out. -/
lemma filter_extend
    (h : t.entries.filter (fun entry => entry.1 ≠ header) =
      t'.entries.filter fun entry => entry.1 ≠ header) (pairs : List (String × String)) :
    (t.extend (pairs.filter fun pair => pair.1 ≠ header)).entries.filter
        (fun entry => entry.1 ≠ header) =
      (t'.extend pairs).entries.filter fun entry => entry.1 ≠ header := by
  induction pairs generalizing t t' with
  | nil => exact h
  | cons pair pairs ih =>
    by_cases hpair : pair.1 = header
    · -- the pair is left out, and what it adds is not looked at
      have hleft : t.entries.filter (fun entry => entry.1 ≠ header) =
          (t'.insert pair.1 pair.2).entries.filter fun entry => entry.1 ≠ header := by
        simpa [insert, hpair] using h
      rw [List.filter_cons_of_neg (by simpa using hpair)]
      exact ih hleft
    · have hboth : (t.insert pair.1 pair.2).entries.filter (fun entry => entry.1 ≠ header) =
          (t'.insert pair.1 pair.2).entries.filter fun entry => entry.1 ≠ header := by
        simp only [insert, List.filter_append]
        rw [List.filter_comm, h, List.filter_comm]
      rw [List.filter_cons_of_pos (by simpa using hpair)]
      exact ih hboth

/-- The last pair goes to the end of a table, in place of what was there for its header. -/
lemma entries_ofList_concat (pairs : List (String × String)) (pair : String × String) :
    (ofList (pairs ++ [pair])).entries =
      (ofList pairs).entries.filter (fun entry => entry.1 ≠ pair.1) ++ [pair] := by
  rw [ofList, extend_append]
  rfl

/-- Pairs that are collected in a table first extend another one in the same way. -/
lemma extend_ofList (t : LibraryTable) (pairs : List (String × String)) :
    t.extend (ofList pairs).entries = t.extend pairs := by
  induction pairs using List.reverseRecOn with
  | nil => rfl
  | append_singleton pairs pair ih =>
    have hsame := filter_extend (rfl : t.entries.filter (fun entry => entry.1 ≠ pair.1) = _)
      (ofList pairs).entries
    rw [entries_ofList_concat, extend_append, extend_append]
    show insert _ pair.1 pair.2 = insert _ pair.1 pair.2
    rw [insert, hsame, ih]
    rfl

end LibraryTable

/-- The library that the last of the texts for a header names, or else the usual one. -/
def libraryFor? (specs : List String) (header : String) : Option String :=
  let named := specs.reverse.findSome? fun spec =>
    match readPair spec with
    | .ok (name, library) => if header = name then some library else none
    | .error _ => none
  named.or (LibraryTable.standard.library? header)

/-- The table that the texts make of the standard one. -/
lemma library?_of_readPairs {specs : List String} {pairs : List (String × String)}
    (h : readPairs specs = .ok pairs) (header : String) :
    (LibraryTable.standard.extend pairs).library? header = libraryFor? specs header := by
  have hread := Resolver.mapM_eq_ok_iff.1 h
  rw [LibraryTable.library?_extend, libraryFor?]
  congr 1
  -- both look for the last one
  rw [← List.forall₂_reverse_iff] at hread
  generalize specs.reverse = given at hread
  generalize pairs.reverse = found at hread
  induction hread with
  | nil => rfl
  | @cons spec pair given found hspec _ ih =>
    rw [List.lookup_cons, List.findSome?_cons, hspec]
    by_cases heq : header = pair.1
    · simp [heq]
    · simp [heq, beq_eq_false_iff_ne.2 heq, ih]

/-- A flag without a name takes the usual library away. -/
example : libraryFor? ["math.h=fast", "math.h = -l"] "math.h" = some "" := by
  cbv

end MakeDeps
