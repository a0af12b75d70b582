/-!
# Cutting text

`cutFirst` and `cutLast` take a text apart at the first or last occurrence of a character; nothing
but that character is lost, as `eq_of_cutFirst` and `eq_of_cutLast` say. `withoutStart` and
`withoutLeading` take something off its beginning.
-/

namespace MakeDeps.Text

/-- The text before and the text after the first `c`, if there is one. -/
def cutFirst (c : Char) : List Char → Option (List Char × List Char)
  | [] => none
  | d :: cs => if d = c then some ([], cs) else (cutFirst c cs).map fun (l, r) => (d :: l, r)

/-- The text before and the text after the last `c`, if there is one. -/
def cutLast (c : Char) : List Char → Option (List Char × List Char)
  | [] => none
  | d :: cs =>
    match cutLast c cs with
    | some (l, r) => some (d :: l, r)
    | none => if d = c then some ([], cs) else none

/-- What follows `start` in a list that begins with it. -/
def dropStart? {α : Type} [DecidableEq α] (start : List α) (xs : List α) : Option (List α) :=
  match start, xs with
  | [], rest => some rest
  | _ :: _, [] => none
  | a :: start, x :: xs => if a = x then dropStart? start xs else none

/-- The text without one leading occurrence of `start`, if it has one. -/
def withoutStart (start s : String) : String :=
  match dropStart? start.toList s.toList with
  | some rest => String.ofList rest
  | none => s

/-- The text without its leading occurrences of a character. -/
def withoutLeading (c : Char) (s : String) : String :=
  String.ofList (s.toList.dropWhile (· == c))

/-- A start and what follows it make up the list. -/
theorem dropStart?_eq_some_iff {α : Type} [DecidableEq α] {start xs rest : List α} :
    dropStart? start xs = some rest ↔ start ++ rest = xs := by
  induction start generalizing xs with
  | nil => simp [dropStart?, eq_comm]
  | cons a start ih =>
    cases xs with
    | nil => simp [dropStart?]
    | cons x xs => by_cases h : a = x <;> simp [dropStart?, h, ih]

/-- Cutting at the first `c` loses only that `c`, and leaves none before it. -/
theorem eq_of_cutFirst {c : Char} {cs l r : List Char} (h : cutFirst c cs = some (l, r)) :
    cs = l ++ c :: r ∧ c ∉ l := by
  induction cs generalizing l with
  | nil => simp [cutFirst] at h
  | cons d cs ih =>
    by_cases hd : d = c
    · simp only [cutFirst, hd, if_true, Option.some.injEq, Prod.mk.injEq] at h
      simp [← h.1, ← h.2, hd]
    · simp only [cutFirst, hd, if_false, Option.map_eq_some_iff, Prod.mk.injEq] at h
      obtain ⟨⟨l', r'⟩, hcut, hl, hr⟩ := h
      subst hl hr
      obtain ⟨heq, hnot⟩ := ih hcut
      exact ⟨by simp [heq], by simp [hnot, Ne.symm hd]⟩

/-- A text is cut at the `c` that comes first. -/
theorem cutFirst_append_cons {c : Char} {l : List Char} (h : c ∉ l) (r : List Char) :
    cutFirst c (l ++ c :: r) = some (l, r) := by
  induction l with
  | nil => simp [cutFirst]
  | cons d l ih =>
    obtain ⟨hd, hl⟩ := not_or.1 (mt List.mem_cons.2 h)
    simp [cutFirst, Ne.symm hd, ih hl]

/-- A text cannot be cut exactly when it lacks the character. -/
theorem cutLast_eq_none_iff {c : Char} {cs : List Char} : cutLast c cs = none ↔ c ∉ cs := by
  induction cs with
  | nil => simp [cutLast]
  | cons d cs ih =>
    cases h : cutLast c cs with
    | some p =>
      have : c ∈ cs := by
        refine Decidable.byContradiction fun hc => ?_
        rw [ih.2 hc] at h
        cases h
      simp [cutLast, h, this]
    | none => by_cases hd : d = c <;> simp [cutLast, h, ih.1 h, hd, Ne.symm]

/-- Cutting at the last `c` loses only that `c`, and leaves none after it. -/
theorem eq_of_cutLast {c : Char} {cs l r : List Char} (h : cutLast c cs = some (l, r)) :
    cs = l ++ c :: r ∧ c ∉ r := by
  induction cs generalizing l r with
  | nil => simp [cutLast] at h
  | cons d cs ih =>
    cases hcut : cutLast c cs with
    | some p =>
      obtain ⟨l', r'⟩ := p
      simp only [cutLast, hcut, Option.some.injEq, Prod.mk.injEq] at h
      obtain ⟨rfl, rfl⟩ := h
      obtain ⟨heq, hnot⟩ := ih hcut
      exact ⟨by simp [heq], hnot⟩
    | none =>
      by_cases hd : d = c
      · simp only [cutLast, hcut, hd, if_true, Option.some.injEq, Prod.mk.injEq] at h
        obtain ⟨rfl, rfl⟩ := h
        exact ⟨by simp [hd], cutLast_eq_none_iff.1 hcut⟩
      · simp [cutLast, hcut, hd] at h

end MakeDeps.Text
