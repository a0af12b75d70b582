import Mathlib.Data.List.TakeWhile
import Mathlib.Tactic.Lemma
import MakeDeps.Text.Cut

/-!
# Where a text is cut

A text is cut in one way at the first or last occurrence of a character, so the parts are known from
what they hold. What is taken off the start of a text was there, and what has nothing to be taken
off stays as it is.
-/

namespace MakeDeps.Text

variable {c : Char} {cs l l' r r' : List Char} {start rest s : String}

/-- A character comes first in a text at one place only. -/
lemma eq_of_append_cons (hl : c ∉ l) (hl' : c ∉ l') (h : l ++ c :: r = l' ++ c :: r') :
    l = l' ∧ r = r' := by
  have hcut := cutFirst_append_cons hl r
  rw [h, cutFirst_append_cons hl'] at hcut
  cases hcut
  exact ⟨rfl, rfl⟩

/-- A text is cut at the last separator of its second part, if that has one. -/
lemma cutLast_append (c : Char) (start cs : List Char) : cutLast c (start ++ c :: cs) =
    match cutLast c cs with
    | some (l, r) => some (start ++ c :: l, r)
    | none => some (start, cs) := by
  induction start with
  | nil =>
    rw [List.nil_append, cutLast]
    cases cutLast c cs <;> simp
  | cons d start ih =>
    rw [List.cons_append, cutLast, ih]
    cases cutLast c cs <;> rfl

/-- A text is cut where a character stands for the last time. -/
lemma cutLast_eq_some_iff : cutLast c cs = some (l, r) ↔ cs = l ++ c :: r ∧ c ∉ r := by
  constructor
  · exact eq_of_cutLast
  · rintro ⟨rfl, hr⟩
    rw [cutLast_append, cutLast_eq_none_iff.2 hr]

/-- A start that stands in front is taken away. -/
lemma withoutStart_append (start rest : String) : withoutStart start (start ++ rest) = rest := by
  have hdrop : dropStart? start.toList (start ++ rest).toList = some rest.toList :=
    dropStart?_eq_some_iff.2 String.toList_append.symm
  rw [withoutStart, hdrop]
  exact String.ofList_toList

/-- A text that does not begin with the start stays as it is. -/
lemma withoutStart_eq_self (h : ¬ start.toList <+: s.toList) : withoutStart start s = s := by
  have hdrop : dropStart? start.toList s.toList = none :=
    Option.eq_none_iff_forall_ne_some.2 fun rest hrest => h ⟨rest, dropStart?_eq_some_iff.1 hrest⟩
  rw [withoutStart, hdrop]

/-- What is left without a start is the whole text, or it followed the start. -/
lemma eq_or_eq_append (start s : String) :
    (¬ start.toList <+: s.toList ∧ withoutStart start s = s) ∨
      s = start ++ withoutStart start s := by
  by_cases h : start.toList <+: s.toList
  · obtain ⟨rest, hrest⟩ := h
    right
    have hs : s = start ++ String.ofList rest := by
      rw [← String.toList_inj, String.toList_append, String.toList_ofList, hrest]
    rw [hs, withoutStart_append]
  · exact .inl ⟨h, withoutStart_eq_self h⟩

/-- A text stays as it is only if it does not begin with the start. -/
lemma withoutStart_eq_self_iff (hne : start ≠ "") :
    withoutStart start s = s ↔ ¬ start.toList <+: s.toList := by
  constructor
  · intro h hprefix
    rcases eq_or_eq_append start s with ⟨hno, -⟩ | heq
    · exact hno hprefix
    · rw [h] at heq
      have hlength := congrArg (fun s => s.toList.length) heq
      simp [hne] at hlength
  · exact withoutStart_eq_self

/-- What is left of a text does not start with what has been taken off. -/
lemma head?_withoutLeading (c : Char) (s : String) :
    (withoutLeading c s).toList.head? ≠ some c := by
  intro h
  have hhead := List.head?_dropWhile_not (· == c) s.toList
  rw [withoutLeading, String.toList_ofList] at h
  simp [h] at hhead

/-- A text with another character in front stays as it is. -/
lemma withoutLeading_of_head? (h : s.toList.head? ≠ some c) : withoutLeading c s = s := by
  have hdrop : s.toList.dropWhile (· == c) = s.toList := by
    cases hs : s.toList with
    | nil => rfl
    | cons d cs =>
      rw [hs] at h
      exact List.dropWhile_cons_of_neg (by simpa using h)
  rw [withoutLeading, hdrop, String.ofList_toList]

/-- Nothing is left of a text if it has no other character. -/
lemma withoutLeading_eq_empty_iff : withoutLeading c s = "" ↔ ∀ d ∈ s.toList, d = c := by
  rw [withoutLeading, String.ofList_eq_empty_iff, List.dropWhile_eq_nil_iff]
  simp

end MakeDeps.Text
