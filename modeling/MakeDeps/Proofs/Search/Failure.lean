import MakeDeps.Proofs.Search.Recursion

/-!
# The first failure

Steps that can fail are taken one after the other until the first of them fails. A search opens the
nodes that a traversal lists in which nodes whose scan fails have no successors, and it ends with
the first failure of a scan in that order: `Visits.follows`.
-/

namespace MakeDeps.Search

variable {α β ε : Type}

section
variable {γ : Type} {f : α → Except ε γ} {a : α} {failure : ε}

/-- The failure of a step, if it fails. -/
def failure? (f : α → Except ε γ) (a : α) : Option ε :=
  match f a with
  | .ok _ => none
  | .error failure => some failure

/-- There is no failure where something is found. -/
lemma failure?_eq_none_iff : failure? f a = none ↔ ∃ found, f a = .ok found := by
  unfold failure?
  cases f a <;> simp

/-- There is a failure where the step fails. -/
lemma failure?_eq_some_iff : failure? f a = some failure ↔ f a = .error failure := by
  unfold failure?
  cases f a <;> simp

/-- The first failure is that of an item before which no item fails. -/
lemma findSome?_failure?_eq_some_iff {items : List α} :
    items.findSome? (failure? f) = some failure ↔ ∃ before a after, items = before ++ a :: after ∧
      (∀ b ∈ before, ∃ found, f b = .ok found) ∧ f a = .error failure := by
  simp only [List.findSome?_eq_some_iff, failure?_eq_none_iff, failure?_eq_some_iff]
  constructor
  · rintro ⟨before, a, after, heq, hfail, hbefore⟩
    exact ⟨before, a, after, heq, hbefore, hfail⟩
  · rintro ⟨before, a, after, heq, hbefore, hfail⟩
    exact ⟨before, a, after, heq, hfail, hbefore⟩

/-- No item fails if, and only if, something is found for each. -/
lemma findSome?_failure?_eq_none_iff {items : List α} :
    items.findSome? (failure? f) = none ↔ ∀ a ∈ items, ∃ found, f a = .ok found := by
  simp only [List.findSome?_eq_none_iff, failure?_eq_none_iff]

/-- A step taken for all items fails with the first failure. -/
lemma mapM_eq_error_iff {items : List α} :
    items.mapM f = .error failure ↔ items.findSome? (failure? f) = some failure := by
  induction items with
  | nil => simp [pure, Except.pure]
  | cons a items ih =>
    rw [List.mapM_cons]
    cases ha : f a with
    | error e => simp [failure?_eq_some_iff.2 ha, bind, Except.bind]
    | ok found =>
      rw [List.findSome?_cons, failure?_eq_none_iff.2 ⟨found, ha⟩, ← ih]
      cases items.mapM f <;> simp [bind, Except.bind, pure, Except.pure]

/-- All items are found if, and only if, each is. -/
lemma exists_mapM_eq_ok_iff {items : List α} :
    (∃ found, items.mapM f = .ok found) ↔ ∀ a ∈ items, ∃ found, f a = .ok found := by
  rw [← findSome?_failure?_eq_none_iff]
  cases h : items.mapM f with
  | error e => simp [mapM_eq_error_iff.1 h]
  | ok found =>
    have hnone : items.findSome? (failure? f) = none :=
      Option.eq_none_iff_forall_ne_some.2 fun e he => by
        rw [mapM_eq_error_iff.2 he] at h
        cases h
    simp [hnone]

end

namespace Visits
variable [DecidableEq α] {scan : α → Except ε (List α)} {note : β → α → β} {m n : Memory α β}
  {nodes order : List α} {e : Option ε}

/-- A search opens the nodes in the order of the traversal in which a node whose scan fails has no
successors, up to the first such node. -/
lemma follows (v : Visits scan note m nodes n e)
    (t : Traversal (successors scan) m.seen nodes order) :
    e = order.findSome? (failure? scan) ∧ (e = none → n.seen = m.seen ++ order) := by
  induction v generalizing order with
  | nil =>
    cases t
    simp
  | skip hmem _ ih =>
    cases t with
    | skip _ t => exact ih t
    | visit hnot _ _ => exact absurd hmem hnot
  | fail hnot hscan =>
    cases t with
    | skip hmem _ => exact absurd hmem hnot
    | visit _ _ _ => simp [failure?_eq_some_iff.2 hscan]
  | stop hnot hscan _ ih =>
    cases t with
    | skip hmem _ => exact absurd hmem hnot
    | visit _ tBelow _ =>
      rw [successors_of_ok hscan] at tBelow
      obtain ⟨hfailure, -⟩ := ih tBelow
      simp [failure?_eq_none_iff.2 ⟨_, hscan⟩, List.findSome?_append, ← hfailure]
  | @visit m n q a nodes found e hnot hscan _ _ ihBelow ihRest =>
    cases t with
    | skip hmem _ => exact absurd hmem hnot
    | @visit _ _ _ below rest _ tBelow tRest =>
      rw [successors_of_ok hscan] at tBelow
      obtain ⟨hbelow, hseen⟩ := ihBelow tBelow
      have hfinish : (n.finish a found).seen = m.seen ++ a :: below := by
        rw [Memory.seen_finish, hseen rfl, Memory.seen_enter]
        simp
      rw [← hfinish] at tRest
      obtain ⟨hrest, hseen'⟩ := ihRest tRest
      refine ⟨?_, fun he => ?_⟩
      · simp [failure?_eq_none_iff.2 ⟨_, hscan⟩, List.findSome?_append, ← hbelow, hrest]
      · rw [hseen' he, hfinish]
        simp

/-- A visit sees no node twice. -/
lemma nodup_seen (v : Visits scan note m nodes n e) (h : m.seen.Nodup) : n.seen.Nodup := by
  have enter {m : Memory α β} {a : α} (h : m.seen.Nodup) (hnot : a ∉ m.seen) :
      (m.enter note a).seen.Nodup := by
    rw [Memory.seen_enter]
    exact List.nodup_append.2 ⟨h, by simp, by rintro b hb _ (_ | ⟨_, ⟨⟩⟩) rfl; exact hnot hb⟩
  induction v with
  | nil => exact h
  | skip _ _ ih => exact ih h
  | fail hnot _ => exact enter h hnot
  | stop hnot _ _ ih => exact ih (enter h hnot)
  | visit hnot _ _ _ ihBelow ihRest =>
    refine ihRest ?_
    rw [Memory.seen_finish]
    exact ihBelow (enter h hnot)

end Visits

end MakeDeps.Search
