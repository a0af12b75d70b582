/-!
# Sets of texts in order

A set of texts is kept as its list in increasing order of code points, each text once.
-/

namespace MakeDeps.Text

/-- The texts in increasing order of code points. -/
def sorted (items : List String) : List String :=
  items.mergeSort (· ≤ ·)

/-- Sorting keeps what is there. -/
@[simp] theorem mem_sorted {items : List String} {item : String} :
    item ∈ sorted items ↔ item ∈ items :=
  List.mem_mergeSort

/-- Sorting repeats nothing. -/
theorem nodup_sorted {items : List String} (h : items.Nodup) : (sorted items).Nodup :=
  (List.mergeSort_perm items _).nodup_iff.2 h

/-- Sorted items are in order. -/
theorem pairwise_sorted (items : List String) : (sorted items).Pairwise (· ≤ ·) := by
  have htrans : ∀ a b c : String, decide (a ≤ b) = true → decide (b ≤ c) = true →
      decide (a ≤ c) = true := by
    intro a b c hab hbc
    simpa using String.le_trans (of_decide_eq_true hab) (of_decide_eq_true hbc)
  have htotal : ∀ a b : String, (decide (a ≤ b) || decide (b ≤ a)) = true := by
    intro a b
    simpa using String.le_total a b
  exact (List.pairwise_mergeSort htrans htotal items).imp of_decide_eq_true

/-- There is one list of the same texts in increasing order. -/
theorem eq_of_pairwise_le {xs ys : List String} (hxs : xs.Pairwise (· ≤ ·))
    (hys : ys.Pairwise (· ≤ ·)) (hxs' : xs.Nodup) (hys' : ys.Nodup)
    (h : ∀ item, item ∈ xs ↔ item ∈ ys) : xs = ys :=
  List.Perm.eq_of_pairwise (fun _ _ _ _ => String.le_antisymm) hxs hys
    ((List.perm_ext_iff_of_nodup hxs' hys').2 h)

/-- The texts in increasing order, each of them once. -/
def sortedSet (items : List String) : List String :=
  (sorted items).eraseReps

end MakeDeps.Text
