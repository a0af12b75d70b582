import MakeDeps.Proofs.Search.Finish

/-!
# Lists in order

In a list that keeps to an order, an item comes before another exactly if the order says so. So the
first item that passes a test is the least one that does, and the items before the first one that
fails a test are those that are less than all that fail.
-/

namespace MakeDeps

namespace Search

variable {α : Type} {R : α → α → Prop} {xs : List α} {a b : α} {p : α → Bool}

/-- What stands in one list comes in the order that the list keeps to. -/
lemma precedes_iff_of_pairwise [DecidableEq α] (h : xs.Pairwise R) (hasymm : ∀ a b, R a b → ¬R b a)
    (ha : a ∈ xs) (hb : b ∈ xs) : Precedes xs a b ↔ R a b := by
  have hlt {a b : α} (hb : b ∈ xs) (hidx : xs.idxOf a < xs.idxOf b) : R a b := by
    have hidx' : xs.idxOf b < xs.length := List.idxOf_lt_length_of_mem hb
    simpa using List.pairwise_iff_getElem.1 h _ _ (Nat.lt_trans hidx hidx') hidx' hidx
  constructor
  · rintro ⟨-, hidx⟩
    exact hlt hb hidx
  · intro hab
    refine ⟨hb, ?_⟩
    by_contra hidx
    rcases Nat.lt_or_eq_of_le (Nat.le_of_not_lt hidx) with hidx | hidx
    · exact hasymm a b hab (hlt ha hidx)
    · have heq : b = a := (List.idxOf_inj hb).1 hidx
      subst heq
      exact hasymm b b hab hab

/-- The items before the first one that fails a test are those that come before all that fail. -/
lemma mem_takeWhile_iff_of_pairwise (h : xs.Pairwise R) (hasymm : ∀ a b, R a b → ¬R b a) :
    a ∈ xs.takeWhile p ↔ a ∈ xs ∧ ∀ b ∈ xs, p b = false → R a b := by
  induction xs with
  | nil => simp
  | cons x xs ih =>
    obtain ⟨hx, hxs⟩ := List.pairwise_cons.1 h
    cases hp : p x with
    | true =>
      rw [List.takeWhile_cons_of_pos hp, List.mem_cons, ih hxs, List.mem_cons, List.forall_mem_cons]
      constructor
      · rintro (rfl | ⟨hmem, hfirst⟩)
        · exact ⟨.inl rfl, by simp [hp], fun b hb _ => hx b hb⟩
        · exact ⟨.inr hmem, by simp [hp], hfirst⟩
      · rintro ⟨rfl | hmem, -, hfirst⟩
        · exact .inl rfl
        · exact .inr ⟨hmem, hfirst⟩
    | false =>
      rw [List.takeWhile_cons_of_neg (by simp [hp])]
      refine iff_of_false List.not_mem_nil ?_
      rintro ⟨hmem, hfirst⟩
      have hax := hfirst x List.mem_cons_self hp
      rcases List.mem_cons.1 hmem with rfl | hmem
      · exact hasymm a a hax hax
      · exact hasymm a x hax (hx a hmem)

/-- The first item that passes a test is the one that comes before all others that do. -/
lemma find?_eq_some_iff_of_pairwise (h : xs.Pairwise R)
    (hantisymm : ∀ a b, R a b → R b a → a = b) :
    xs.find? p = some a ↔ a ∈ xs ∧ p a = true ∧ ∀ b ∈ xs, p b = true → b = a ∨ R a b := by
  induction xs with
  | nil => simp
  | cons x xs ih =>
    obtain ⟨hx, hxs⟩ := List.pairwise_cons.1 h
    cases hp : p x with
    | true =>
      rw [List.find?_cons_of_pos hp]
      constructor
      · intro heq
        cases heq
        refine ⟨List.mem_cons_self, hp, fun b hb _ => ?_⟩
        exact (List.mem_cons.1 hb).imp_right (hx b)
      · rintro ⟨hmem, -, hfirst⟩
        rcases hfirst x List.mem_cons_self hp with rfl | hax
        · rfl
        · rcases List.mem_cons.1 hmem with rfl | hmem
          · rfl
          · rw [hantisymm x a (hx a hmem) hax]
    | false =>
      rw [List.find?_cons_of_neg (by simp [hp]), ih hxs, List.mem_cons, List.forall_mem_cons]
      constructor
      · rintro ⟨hmem, hpa, hfirst⟩
        exact ⟨.inr hmem, hpa, by simp [hp], hfirst⟩
      · rintro ⟨rfl | hmem, hpa, -, hfirst⟩
        · cases hp.symm.trans hpa
        · exact ⟨hmem, hpa, hfirst⟩

/-- The first result is that of the item that comes before all others that have one. -/
lemma findSome?_eq_some_iff_of_pairwise {β : Type} {f : α → Option β} {result : β}
    (h : xs.Pairwise R) (hantisymm : ∀ a b, R a b → R b a → a = b) :
    xs.findSome? f = some result ↔
      ∃ a ∈ xs, f a = some result ∧ ∀ b ∈ xs, ∀ other, f b = some other → b = a ∨ R a b := by
  have hfind (a : α) : xs.find? (fun b => (f b).isSome) = some a ↔
      a ∈ xs ∧ (f a).isSome = true ∧ ∀ b ∈ xs, (f b).isSome = true → b = a ∨ R a b :=
    find?_eq_some_iff_of_pairwise h hantisymm
  simp only [List.find?_eq_some_iff_append, Option.isSome_iff_exists] at hfind
  rw [List.findSome?_eq_some_iff]
  constructor
  · rintro ⟨before, a, after, hxs, hresult, hbefore⟩
    obtain ⟨hmem, -, hfirst⟩ := (hfind a).1
      ⟨⟨result, hresult⟩, before, after, hxs, fun b hb => by simp [hbefore b hb]⟩
    exact ⟨a, hmem, hresult, fun b hb other hother => hfirst b hb ⟨other, hother⟩⟩
  · rintro ⟨a, hmem, hresult, hfirst⟩
    obtain ⟨-, before, after, hxs, hbefore⟩ := (hfind a).2
      ⟨hmem, ⟨result, hresult⟩, fun b hb ⟨other, hother⟩ => hfirst b hb other hother⟩
    exact ⟨before, a, after, hxs, hresult, fun b hb => by simpa using hbefore b hb⟩

end Search

end MakeDeps
