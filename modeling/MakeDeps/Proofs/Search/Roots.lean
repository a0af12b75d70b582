import Mathlib.Data.List.Induction
import MakeDeps.Proofs.Search.Traversal

/-!
# Traversals from several roots

A traversal from several roots passes over what earlier roots have led to, and no step leads out of
that. So it lists what the separate traversals from its roots list, each node where it comes first:
`Traversal.roots`.
-/

namespace MakeDeps.Search

variable {α : Type} {next : α → List α}

/-- A list without repetitions has none to erase. -/
lemma eraseDups_eq_self [DecidableEq α] {xs : List α} (h : xs.Nodup) : xs.eraseDups = xs := by
  induction xs with
  | nil => rfl
  | cons x xs ih =>
    obtain ⟨hnot, hxs⟩ := List.nodup_cons.1 h
    have hkeep : xs.filter (fun y => !y == x) = xs :=
      List.filter_eq_self.2 fun y hy => by
        simpa using fun heq : y = x => hnot (heq ▸ hy)
    rw [List.eraseDups_cons, hkeep, ih hxs]

/-- Where a set of nodes is closed, nothing else is reached from it. -/
lemma Closed.mem_of_reaches {domain : List α} (hc : Closed next domain) {a b : α}
    (ha : a ∈ domain) (path : Reaches next a b) : b ∈ domain := by
  induction path with
  | refl => exact ha
  | tail _ step ih => exact hc _ ih _ step

namespace Traversal

/-- A traversal has one order. -/
lemma unique {seen nodes order order'} (t : Traversal next seen nodes order)
    (t' : Traversal next seen nodes order') : order = order' := by
  induction t generalizing order' with
  | nil =>
    cases t'
    rfl
  | skip hmem _ ih =>
    cases t' with
    | skip _ t' => exact ih t'
    | visit hnot _ _ => exact absurd hmem hnot
  | visit hnot _ _ ihBelow ihRest =>
    cases t' with
    | skip hmem _ => exact absurd hmem hnot
    | visit _ tBelow tRest =>
      cases ihBelow tBelow
      cases ihRest tRest
      rfl

/-- Two visits one after the other. -/
lemma append {seen before after order order'} (t : Traversal next seen before order)
    (t' : Traversal next (seen ++ order) after order') :
    Traversal next seen (before ++ after) (order ++ order') := by
  induction t with
  | nil => simpa using t'
  | skip hmem _ ih => exact .skip hmem (ih t')
  | @visit seen a nodes below order hnot tBelow _ _ ihRest =>
    rw [List.append_assoc]
    refine .visit hnot tBelow (ihRest ?_)
    rwa [List.append_assoc]

/-- Only the successors of what is listed matter. -/
lemma congr {next' : α → List α} {seen nodes order} (t : Traversal next seen nodes order)
    (h : ∀ a ∈ order, next a = next' a) : Traversal next' seen nodes order := by
  induction t with
  | nil => exact .nil
  | skip hmem _ ih => exact .skip hmem (ih h)
  | @visit seen a nodes below order hnot _ _ ihBelow ihRest =>
    refine .visit hnot ?_ (ihRest fun b hb => h b (List.mem_append_right _ hb))
    rw [← h a (by simp)]
    exact ihBelow fun b hb => h b (by simp [hb])

/-- No step leads out of what a traversal from nothing lists. -/
lemma closed_order {nodes order} (t : Traversal next [] nodes order) : Closed next order :=
  fun a ha b hb => by simpa using t.closed.2 a ha b hb

section
variable [DecidableEq α]

/-- When a closed set of nodes counts as seen from the start, it is left out of the order, and
nothing else changes. -/
lemma filter {seen nodes order} (t : Traversal next seen nodes order) {domain all : List α}
    (hc : Closed next domain) (hall : ∀ a, a ∈ all ↔ a ∈ seen ∨ a ∈ domain) :
    Traversal next all nodes (order.filter (· ∉ domain)) := by
  induction t generalizing all with
  | nil => exact .nil
  | skip hmem _ ih => exact .skip ((hall _).2 (.inl hmem)) (ih hall)
  | @visit seen a nodes below order hnot tBelow _ ihBelow ihRest =>
    rw [List.filter_append]
    by_cases ha : a ∈ domain
    · -- everything below `a` lies in the closed set too, so the whole visit is left out
      have hvisit : ∀ b ∈ a :: below, b ∈ domain := by
        rintro b (_ | ⟨_, hb⟩)
        · exact ha
        · obtain ⟨c, hcmem, path⟩ := tBelow.reachable b hb
          exact hc.mem_of_reaches (hc a ha c hcmem) path
      have hnone : (a :: below).filter (· ∉ domain) = [] :=
        List.filter_eq_nil_iff.2 fun b hb => by simpa using hvisit b hb
      rw [hnone, List.nil_append]
      refine .skip ((hall a).2 (.inr ha)) (ihRest fun b => ?_)
      rw [hall, List.mem_append]
      have := hvisit b
      tauto
    · have hnew : a ∉ all := fun hmem => ((hall a).1 hmem).elim hnot ha
      rw [List.filter_cons_of_pos (by simpa using ha)]
      refine .visit hnew (ihBelow fun b => ?_) (ihRest fun b => ?_)
      · simp only [List.mem_append, hall]
        tauto
      · -- what is left out of the order below `a` lies in the closed set
        simp only [List.mem_append, List.mem_cons, List.mem_filter, decide_eq_true_eq, hall]
        tauto

/-- A traversal from several roots lists what the traversals from each of them list, every node
where it comes first. -/
theorem roots {order : α → List α} : ∀ {roots : List α},
    (∀ root ∈ roots, Traversal next [] [root] (order root)) →
      Traversal next [] roots (roots.flatMap order).eraseDups := by
  intro roots h
  induction roots using List.reverseRecOn with
  | nil => exact .nil
  | append_singleton roots root ih =>
    have before := ih fun other hother => h other (List.mem_append_left _ hother)
    have last := h root (by simp)
    -- after the earlier roots all that they reach is seen, and that is closed
    have after : Traversal next (roots.flatMap order).eraseDups [root]
        ((order root).filter (· ∉ (roots.flatMap order).eraseDups)) :=
      last.filter before.closed_order (by simp)
    have hnew : ((order root).removeAll (roots.flatMap order)).eraseDups =
        (order root).filter (· ∉ (roots.flatMap order).eraseDups) := by
      rw [List.removeAll, eraseDups_eq_self (last.nodup.1.filter _)]
      exact List.filter_congr fun a _ => by
        simp only [List.elem_eq_mem, List.mem_eraseDups, decide_not]
    rw [List.flatMap_append, List.flatMap_singleton, List.eraseDups_append, hnew]
    exact before.append after

end

end Traversal

end MakeDeps.Search
