import Mathlib.Logic.Relation
import Mathlib.Tactic.Lemma
import Mathlib.Tactic.Tauto
import MakeDeps.Graph.Search

/-!
# The order of a depth-first search

`Traversal` is the recursive preorder traversal of a graph, as a relation: a node is listed before
its successors, these are visited from left to right, and what has been visited is skipped. `Loop`
is the same search with a stack of nodes and without a bound on what it may visit.

* `Traversal.loop_steps`: the loop lists what the recursion lists, and comes to its end.
* `Traversal.preorder_append`: so does `preorder`, whose stack holds the work of all pending calls.
* `Traversal.iff_preorder`: hence on a finite graph the recursion gives exactly one order.
* `Traversal.mem_iff`: it lists what can be reached.
-/

namespace MakeDeps.Search

variable {α : Type} {next : α → List α}

/-- Visiting `nodes` from left to right, when `seen` has been visited before, lists `order`. -/
inductive Traversal (next : α → List α) : (seen nodes order : List α) → Prop where
  | nil {seen} : Traversal next seen [] []
  | skip {seen a nodes order} :
    a ∈ seen → Traversal next seen nodes order → Traversal next seen (a :: nodes) order
  | visit {seen a nodes below order} :
    a ∉ seen →
    Traversal next (seen ++ [a]) (next a) below →
    Traversal next (seen ++ a :: below) nodes order →
    Traversal next seen (a :: nodes) (a :: below ++ order)

/-- One step of a graph. -/
def Edge (next : α → List α) (a b : α) : Prop :=
  b ∈ next a

/-- A chain of steps in a graph, possibly empty. -/
def Reaches (next : α → List α) : α → α → Prop :=
  Relation.ReflTransGen (Edge next)

namespace Traversal

/-- What is listed had not been seen, and is listed once. -/
lemma nodup {seen nodes order} (t : Traversal next seen nodes order) :
    order.Nodup ∧ ∀ a ∈ order, a ∉ seen := by
  induction t with
  | nil => simp
  | skip _ _ ih => exact ih
  | @visit seen a nodes below order ha _ _ ihBelow ihRest =>
    -- `a` counts as seen below it, and `a` with all below it counts as seen afterwards
    obtain ⟨ndBelow, newBelow⟩ := ihBelow
    obtain ⟨ndRest, newRest⟩ := ihRest
    have hnot : a ∉ below := fun h => newBelow a h (by simp)
    refine ⟨?_, ?_⟩
    · refine List.nodup_append.2 ⟨List.nodup_cons.2 ⟨hnot, ndBelow⟩, ndRest, ?_⟩
      rintro x hx y hy rfl
      exact newRest x hy (List.mem_append_right _ hx)
    · intro x hx hseen
      rcases List.mem_append.1 hx with hx | hx
      · rcases List.mem_cons.1 hx with rfl | hx
        · exact ha hseen
        · exact newBelow x hx (List.mem_append_left _ hseen)
      · exact newRest x hx (List.mem_append_left _ hseen)

/-- What is listed can be reached from the nodes to visit. -/
lemma reachable {seen nodes order} (t : Traversal next seen nodes order) :
    ∀ b ∈ order, ∃ a ∈ nodes, Reaches next a b := by
  induction t with
  | nil => simp
  | skip _ _ ih =>
    intro b hb
    obtain ⟨a, ha, path⟩ := ih b hb
    exact ⟨a, List.mem_cons_of_mem _ ha, path⟩
  | @visit seen a nodes below order _ _ _ ihBelow ihRest =>
    intro b hb
    rcases List.mem_append.1 hb with hb | hb
    · rcases List.mem_cons.1 hb with rfl | hb
      · exact ⟨b, List.mem_cons_self, .refl⟩
      · obtain ⟨c, hc, path⟩ := ihBelow b hb
        exact ⟨a, List.mem_cons_self, path.head hc⟩
    · obtain ⟨c, hc, path⟩ := ihRest b hb
      exact ⟨c, List.mem_cons_of_mem _ hc, path⟩

/-- Every node to visit has been seen or is listed, and so are the successors of what is listed. -/
lemma closed {seen nodes order} (t : Traversal next seen nodes order) :
    (∀ a ∈ nodes, a ∈ seen ++ order) ∧ ∀ a ∈ order, ∀ b ∈ next a, b ∈ seen ++ order := by
  induction t with
  | nil => simp
  | skip hmem _ ih =>
    refine ⟨?_, ih.2⟩
    intro b hb
    rcases List.mem_cons.1 hb with rfl | hb
    · exact List.mem_append_left _ hmem
    · exact ih.1 b hb
  | @visit seen a nodes below order _ _ _ ihBelow ihRest =>
    -- both induction hypotheses speak of parts of what has been visited in the end
    have hbelow : ∀ b, b ∈ seen ++ [a] ++ below → b ∈ seen ++ (a :: below ++ order) := by
      intro b hb
      simp only [List.mem_append, List.mem_cons, List.not_mem_nil, or_false] at hb ⊢
      tauto
    have hrest : ∀ b, b ∈ seen ++ a :: below ++ order → b ∈ seen ++ (a :: below ++ order) := by
      intro b hb
      rwa [List.append_assoc] at hb
    refine ⟨?_, ?_⟩
    · intro b hb
      rcases List.mem_cons.1 hb with rfl | hb
      · simp
      · exact hrest b (ihRest.1 b hb)
    · intro c hc b hb
      rcases List.mem_append.1 hc with hc | hc
      · rcases List.mem_cons.1 hc with rfl | hc
        · exact hbelow b (ihBelow.1 b hb)
        · exact hbelow b (ihBelow.2 c hc b hb)
      · exact hrest b (ihRest.2 c hc b hb)

/-- From nothing seen, a traversal lists exactly what can be reached from the nodes to visit. -/
theorem mem_iff {nodes order} (t : Traversal next [] nodes order) {b : α} :
    b ∈ order ↔ ∃ a ∈ nodes, Reaches next a b := by
  constructor
  · exact t.reachable b
  · rintro ⟨a, ha, path⟩
    induction path with
    | refl => exact t.closed.1 a ha
    | tail _ step ih => exact t.closed.2 _ ih _ step

end Traversal

/-- The search with a stack, between two turns: what it has visited, in order, and what it still
has to look at, next node first. -/
structure Loop (α : Type) where
  order : List α
  stack : List α

section
variable [DecidableEq α]

/-- One turn of the loop; there is none when the stack is empty. A node that has been visited is
dropped, and the successors of any other node go on top of the stack. -/
def Loop.step? (next : α → List α) : Loop α → Option (Loop α)
  | ⟨_, []⟩ => none
  | ⟨order, a :: stack⟩ =>
    if a ∈ order then some ⟨order, stack⟩ else some ⟨order ++ [a], next a ++ stack⟩

/-- Some number of turns lead from one state of the loop to another. -/
def Loop.Runs (next : α → List α) : Loop α → Loop α → Prop :=
  Relation.ReflTransGen fun l l' => l.step? next = some l'

/-- The loop works off the nodes that a recursive call would visit, and leaves the rest of the
stack as it is. -/
lemma Traversal.loop_steps {seen nodes order} (t : Traversal next seen nodes order)
    (stack : List α) : Loop.Runs next ⟨seen, nodes ++ stack⟩ ⟨seen ++ order, stack⟩ := by
  induction t generalizing stack with
  | nil =>
    rw [List.nil_append, List.append_nil]
    exact .refl
  | skip hmem _ ih => exact (ih stack).head (by simp [Loop.step?, hmem])
  | @visit seen a nodes below order hnot _ _ ihBelow ihRest =>
    have hstep : Loop.step? next ⟨seen, a :: nodes ++ stack⟩ =
        some ⟨seen ++ [a], next a ++ (nodes ++ stack)⟩ := by
      simp [Loop.step?, hnot]
    -- the call for the successors runs on top of the nodes that are left
    have hbelow := ihBelow (nodes ++ stack)
    rw [List.append_assoc, List.singleton_append] at hbelow
    have hrest := ihRest stack
    rw [List.append_assoc] at hrest
    exact (hbelow.trans hrest).head hstep

/-- The nodes of the domain that have not been seen. -/
def unseen (domain seen : List α) : List α :=
  domain.filter (· ∉ seen)

/-- A node is unseen if it is in the domain and has not been seen. -/
@[simp] lemma mem_unseen {domain seen : List α} {a : α} :
    a ∈ unseen domain seen ↔ a ∈ domain ∧ a ∉ seen := by
  simp [unseen]

/-- At the start all nodes are unseen. -/
@[simp] lemma unseen_nil (domain : List α) : unseen domain [] = domain := by
  simp [unseen]

/-- Leaving out a node that is unseen is to see it. -/
lemma without_unseen (domain seen : List α) (a : α) :
    without a (unseen domain seen) = unseen domain (seen ++ [a]) := by
  simp only [without, unseen, List.filter_filter, List.mem_append, List.mem_singleton, not_or]
  refine List.filter_congr fun b _ => ?_
  simp [and_comm]

/-- The more is seen, the less is unseen. -/
lemma length_unseen_le {domain seen seen' : List α} (h : ∀ a ∈ seen, a ∈ seen') :
    (unseen domain seen').length ≤ (unseen domain seen).length := by
  simp only [unseen, ← List.countP_eq_length_filter]
  exact List.countP_mono_left fun a _ => by simpa using mt (h a)

/-- Seeing a node of the domain for the first time leaves less unseen. -/
lemma length_unseen_lt {domain seen : List α} {a : α} (ha : a ∈ domain) (hnot : a ∉ seen) :
    (unseen domain (seen ++ [a])).length < (unseen domain seen).length := by
  rw [← without_unseen]
  exact length_without_lt (mem_unseen.2 ⟨ha, hnot⟩)

/-- A set of nodes that no step leads out of. -/
def Closed (next : α → List α) (domain : List α) : Prop :=
  ∀ a ∈ domain, ∀ b ∈ next a, b ∈ domain

/-- The stack of `preorder` holds the pending work of all recursive calls: the nodes on top of it
are worked off as by a traversal, and the rest of the stack afterwards. -/
lemma Traversal.preorder_append {domain seen nodes order} (t : Traversal next seen nodes order)
    (hc : Closed next domain) (hn : ∀ a ∈ nodes, a ∈ domain) (stack : List α) :
    preorder next (unseen domain seen) (nodes ++ stack) =
      order ++ preorder next (unseen domain (seen ++ order)) stack := by
  induction t generalizing stack with
  | nil => simp
  | skip hmem _ ih =>
    rw [List.cons_append, preorder, if_neg (by simp [hmem])]
    exact ih (fun b hb => hn b (List.mem_cons_of_mem _ hb)) stack
  | @visit seen a nodes below order hnot _ _ ihBelow ihRest =>
    have ha : a ∈ domain := hn a List.mem_cons_self
    have hrest := ihRest (fun b hb => hn b (List.mem_cons_of_mem _ hb)) stack
    have hbelow := ihBelow (hc a ha) (nodes ++ stack)
    rw [List.append_assoc, List.singleton_append] at hbelow
    rw [List.cons_append, preorder, if_pos (mem_unseen.2 ⟨ha, hnot⟩), without_unseen, hbelow,
      hrest]
    simp

/-- On a finite graph the recursion comes to an end. -/
lemma Traversal.exists_order {domain : List α} (hc : Closed next domain) (seen : List α) :
    ∀ nodes, (∀ a ∈ nodes, a ∈ domain) → ∃ order, Traversal next seen nodes order
  | [], _ => ⟨[], .nil⟩
  | a :: nodes, hn => by
    have ha : a ∈ domain := hn a List.mem_cons_self
    have hnodes : ∀ b ∈ nodes, b ∈ domain := fun b hb => hn b (List.mem_cons_of_mem _ hb)
    by_cases hmem : a ∈ seen
    · obtain ⟨order, t⟩ := exists_order hc seen nodes hnodes
      exact ⟨order, .skip hmem t⟩
    · -- opening `a` leaves fewer unseen nodes, for the call below it and for the one after it
      have hlt := length_unseen_lt ha hmem
      obtain ⟨below, tBelow⟩ := exists_order hc (seen ++ [a]) (next a) (hc a ha)
      have hle : (unseen domain (seen ++ a :: below)).length ≤
          (unseen domain (seen ++ [a])).length := length_unseen_le (by simp; tauto)
      obtain ⟨order, tRest⟩ := exists_order hc (seen ++ a :: below) nodes hnodes
      exact ⟨_, .visit hmem tBelow tRest⟩
  termination_by nodes => ((unseen domain seen).length, nodes.length)

/-- On a finite graph `preorder` is the one order in which the recursion lists its nodes. -/
theorem Traversal.iff_preorder {domain seen nodes : List α} (hc : Closed next domain)
    (hn : ∀ a ∈ nodes, a ∈ domain) {order : List α} :
    Traversal next seen nodes order ↔ order = preorder next (unseen domain seen) nodes := by
  have agrees : ∀ {order}, Traversal next seen nodes order →
      order = preorder next (unseen domain seen) nodes := by
    intro order t
    have h := t.preorder_append hc hn []
    rw [List.append_nil, preorder, List.append_nil] at h
    exact h.symm
  constructor
  · exact agrees
  · rintro rfl
    obtain ⟨order, t⟩ := Traversal.exists_order hc seen nodes hn
    rwa [← agrees t]

end

end MakeDeps.Search
