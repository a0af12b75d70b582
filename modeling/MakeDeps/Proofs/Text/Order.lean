import Mathlib.Data.String.Basic
import Mathlib.Tactic.Lemma
import MakeDeps.Text.Order

/-!
# Sets of texts

The set of some texts holds each of them once, in increasing order. So a set is the set of its own
texts: `sortedSet_eq_self`.
-/

namespace MakeDeps.Text

variable {items : List String} {item : String}

/-- Of two items at the front the first is left out if they are the same. -/
lemma eraseReps_cons_cons (a b : String) (items : List String) : (a :: b :: items).eraseReps =
    if a = b then (a :: items).eraseReps else a :: (b :: items).eraseReps := by
  have hloop : ∀ (items : List String) (a : String) (done : List String),
      List.eraseRepsBy.loop (· == ·) a items done = done.reverse ++ (a :: items).eraseReps := by
    intro items
    induction items with
    | nil =>
      intro a done
      exact List.reverse_cons
    | cons b items ih =>
      intro a done
      rw [List.eraseReps, List.eraseRepsBy, List.eraseRepsBy.loop, List.eraseRepsBy.loop]
      cases a == b <;> simp [ih]
  rw [List.eraseReps, List.eraseRepsBy, List.eraseRepsBy.loop]
  by_cases h : a = b
  · simp [h, hloop]
  · simp [beq_eq_false_iff_ne.2 h, h, hloop]

/-- Erasing repetitions leaves the same items. -/
@[simp] lemma mem_eraseReps : item ∈ items.eraseReps ↔ item ∈ items := by
  cases items with
  | nil => rfl
  | cons a items =>
    induction items generalizing a with
    | nil => rfl
    | cons b items ih =>
      rw [eraseReps_cons_cons]
      split
      · next h => simp [ih, h]
      · simp [ih]

/-- Of texts in order, repetitions are erased. -/
lemma pairwise_eraseReps (h : items.Pairwise (· ≤ ·)) : items.eraseReps.Pairwise (· < ·) := by
  cases items with
  | nil => exact List.Pairwise.nil
  | cons a items =>
    induction items generalizing a with
    | nil => exact List.pairwise_singleton _ _
    | cons b items ih =>
      obtain ⟨hfirst, hrest⟩ := List.pairwise_cons.1 h
      rw [eraseReps_cons_cons]
      split
      · next heq => exact ih a (heq ▸ hrest)
      · next hne =>
        refine List.pairwise_cons.2 ⟨fun c hc => ?_, ih b hrest⟩
        have hab : a < b := lt_of_le_of_ne (hfirst b (by simp)) hne
        rcases List.mem_cons.1 (mem_eraseReps.1 hc) with rfl | hc
        · exact hab
        · exact lt_of_lt_of_le hab ((List.pairwise_cons.1 hrest).1 c hc)

/-- A sorted set has the same items. -/
@[simp] lemma mem_sortedSet : item ∈ sortedSet items ↔ item ∈ items := by
  rw [sortedSet, mem_eraseReps, mem_sorted]

/-- The items of a sorted set are in strict order. -/
lemma pairwise_sortedSet (items : List String) : (sortedSet items).Pairwise (· < ·) :=
  pairwise_eraseReps (pairwise_sorted items)

/-- A list in increasing order is the set of its texts. -/
lemma sortedSet_eq_self (h : items.Pairwise (· < ·)) : sortedSet items = items := by
  have hset := pairwise_sortedSet items
  exact eq_of_pairwise_le (hset.imp le_of_lt) (h.imp le_of_lt) (hset.imp ne_of_lt)
    (h.imp ne_of_lt) fun item => mem_sortedSet

end MakeDeps.Text
