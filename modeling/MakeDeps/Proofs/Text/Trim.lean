import Mathlib.Data.List.DropRight
import Mathlib.Tactic.Lemma
import MakeDeps.Text.Blank

/-!
# Trimming

Trimming takes blanks from the two ends of a text and stops at characters that are none. So it takes
everything from blanks (`trim_eq_nil_iff`), and what it has left it leaves alone (`trim_trim`).
-/

namespace MakeDeps.Text

variable {c : Char} {cs xs ys : List Char}

/-- Trimming takes blanks from the start of a text. -/
lemma exists_blanks_trimLeft (cs : List Char) :
    ∃ blanks, cs = blanks ++ trimLeft cs ∧ ∀ c ∈ blanks, isBlank c = true :=
  ⟨cs.takeWhile isBlank, List.takeWhile_append_dropWhile.symm,
    List.all_eq_true.1 List.all_takeWhile⟩

/-- Blanks are trimmed up to the first character that is none. -/
lemma trimLeft_append_cons (hxs : ∀ x ∈ xs, isBlank x = true) (hc : isBlank c = false) :
    trimLeft (xs ++ c :: ys) = c :: ys := by
  rw [trimLeft, List.dropWhile_append_of_pos hxs]
  exact trimLeft_cons_of_not_blank hc ys

/-- Trimming takes blanks from the end of a text. -/
lemma exists_blanks (cs : List Char) :
    ∃ blanks, cs = trimRight cs ++ blanks ∧ ∀ c ∈ blanks, isBlank c = true := by
  refine ⟨(cs.reverse.takeWhile isBlank).reverse, ?_, ?_⟩
  · rw [trimRight, ← List.reverse_append, List.takeWhile_append_dropWhile, List.reverse_reverse]
  · intro c hc
    exact List.all_eq_true.1 List.all_takeWhile c (List.mem_reverse.1 hc)

/-- What is not in a text is not in the trimmed one. -/
lemma not_mem_trimRight (h : c ∉ cs) : c ∉ trimRight cs := by
  obtain ⟨blanks, hcs, -⟩ := exists_blanks cs
  intro hmem
  apply h
  rw [hcs]
  exact List.mem_append_left _ hmem

/-- Trimming goes no further than to the last character that is no blank. -/
lemma trimRight_append_cons (h : isBlank c = false) (xs ys : List Char) :
    trimRight (xs ++ c :: ys) = xs ++ c :: trimRight ys := by
  unfold trimRight
  rw [List.reverse_append, List.reverse_cons, List.append_assoc, List.dropWhile_append]
  split
  · next hall =>
    rw [List.isEmpty_iff] at hall
    simp [hall, h]
  · simp

/-- What is trimmed lies between blanks. -/
lemma exists_blanks_trim (cs : List Char) : ∃ front back, cs = front ++ trim cs ++ back ∧
    (∀ c ∈ front, isBlank c = true) ∧ ∀ c ∈ back, isBlank c = true := by
  obtain ⟨front, hcs, hfront⟩ := exists_blanks_trimLeft cs
  obtain ⟨back, hleft, hback⟩ := exists_blanks (trimLeft cs)
  refine ⟨front, back, ?_, hfront, hback⟩
  calc cs = front ++ trimLeft cs := hcs
    _ = front ++ (trim cs ++ back) := congrArg _ hleft
    _ = front ++ trim cs ++ back := (List.append_assoc _ _ _).symm

/-- What is in a trimmed text is in the text. -/
lemma mem_of_mem_trim (h : c ∈ trim cs) : c ∈ cs := by
  obtain ⟨front, back, hcs, -, -⟩ := exists_blanks_trim cs
  rw [hcs]
  exact List.mem_append_left _ (List.mem_append_right _ h)

/-- A trimmed text is a part of the text. -/
lemma trim_isInfix (cs : List Char) : trim cs <:+: cs := by
  obtain ⟨front, back, hcs, -, -⟩ := exists_blanks_trim cs
  exact ⟨front, back, hcs.symm⟩

/-- Nothing is left of a text exactly if it consists of blanks. -/
lemma trim_eq_nil_iff : trim cs = [] ↔ ∀ c ∈ cs, isBlank c = true := by
  constructor
  · intro hnil
    obtain ⟨front, back, hcs, hfront, hback⟩ := exists_blanks_trim cs
    rw [hnil, List.append_nil] at hcs
    rw [hcs]
    exact List.forall_mem_append.2 ⟨hfront, hback⟩
  · intro hblank
    have hleft : trimLeft cs = [] := List.dropWhile_eq_nil_iff.2 hblank
    rw [trim, hleft]
    rfl

/-- Taking blanks from the end brings none to the start. -/
lemma trimLeft_trim (cs : List Char) : trimLeft (trim cs) = trim cs := by
  obtain ⟨back, hleft, -⟩ := exists_blanks (trimLeft cs)
  change cs.dropWhile isBlank = trim cs ++ back at hleft
  cases htrim : trim cs with
  | nil => rfl
  | cons c rest =>
    have hhead := List.head?_dropWhile_not isBlank cs
    rw [hleft, htrim] at hhead
    exact trimLeft_cons_of_not_blank hhead rest

/-- A trimmed text has no blanks at its end. -/
lemma trimRight_trim (cs : List Char) : trimRight (trim cs) = trim cs :=
  List.rdropWhile_idempotent isBlank (trimLeft cs)

/-- What is left of a text by trimming is left alone. -/
lemma trim_trim (cs : List Char) : trim (trim cs) = trim cs := by
  rw [trim, trimLeft_trim, trimRight_trim]

/-- No blanks are taken from the end of a text if there are none at the end of a longer one. -/
lemma trimRight_of_suffix (h : ys <:+ xs) (hxs : trimRight xs = xs) : trimRight ys = ys := by
  obtain ⟨front, rfl⟩ := h
  change List.rdropWhile isBlank (front ++ ys) = front ++ ys at hxs
  show List.rdropWhile isBlank ys = ys
  rw [List.rdropWhile_eq_self_iff] at hxs ⊢
  intro hne
  have hlast := hxs (List.append_ne_nil_of_right_ne_nil front hne)
  rwa [List.getLast_append_of_ne_nil _ hne] at hlast

end MakeDeps.Text
