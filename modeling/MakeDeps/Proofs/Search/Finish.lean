import Mathlib.Data.List.Basic
import MakeDeps.Proofs.Search.Recursion

/-!
# The order in which nodes are finished

A node is finished after its successors, except for those that are still open when they are met
again. The open nodes are a chain that leads to the node being visited, so a successor that is
still open leads on to its predecessor.

* `Visits.precedes_or_reaches`: every step goes to a node that was finished before, or that leads
  back.
* `precedes_of_reaches`: without cycles, whatever a node leads to was finished before the node.
-/

namespace MakeDeps.Search

variable {α β ε : Type} [DecidableEq α]

/-- Both nodes are in the list, the first one before the second one. -/
def Precedes (order : List α) (a b : α) : Prop :=
  b ∈ order ∧ order.idxOf a < order.idxOf b

namespace Precedes
variable {order : List α} {a b c : α}

/-- What comes before something is in the order. -/
lemma mem (h : Precedes order a b) : a ∈ order :=
  List.idxOf_lt_length_iff.1 (Nat.lt_trans h.2 (List.idxOf_lt_length_of_mem h.1))

/-- What comes before something comes before what that comes before. -/
lemma trans (h : Precedes order a b) (h' : Precedes order b c) : Precedes order a c :=
  ⟨h'.1, Nat.lt_trans h.2 h'.2⟩

/-- What is added behind an order does not change it. -/
lemma append (h : Precedes order a b) (added : List α) : Precedes (order ++ added) a b := by
  refine ⟨List.mem_append_left _ h.1, ?_⟩
  rw [List.idxOf_append_of_mem h.mem, List.idxOf_append_of_mem h.1]
  exact h.2

/-- What is put at the end comes after everything else. -/
lemma concat (ha : a ∈ order) (hb : b ∉ order) : Precedes (order ++ [b]) a b := by
  refine ⟨by simp, ?_⟩
  rw [List.idxOf_append_of_mem ha, List.idxOf_append_of_notMem hb]
  exact Nat.lt_add_right _ (List.idxOf_lt_length_of_mem ha)

end Precedes

/-- A node that is finished for the first time becomes the last key. -/
lemma Memory.keys_finish {m : Memory α β} {a : α} (h : a ∉ m.keys) (successors : List α) :
    (m.finish a successors).keys = m.keys ++ [a] := by
  simp [Memory.keys, Memory.finished_finish h]

namespace Visits
variable {scan : α → Except ε (List α)} {note : β → α → β} {m n : Memory α β} {nodes : List α}
  {e : Option ε}

/-- What is finished keeps its place. -/
lemma keys_append (v : Visits scan note m nodes n e) : ∃ added, n.keys = m.keys ++ added := by
  have finish (m : Memory α β) (a : α) (found : List α) :
      ∃ added, (m.finish a found).keys = m.keys ++ added := by
    by_cases h : a ∈ m.keys
    · exact ⟨[], by simp [Memory.finish, h]⟩
    · exact ⟨[a], Memory.keys_finish h found⟩
  induction v with
  | nil => exact ⟨[], by simp⟩
  | skip _ _ ih => exact ih
  | fail _ _ => exact ⟨[], by simp⟩
  | stop _ _ _ ih => exact ih
  | @visit m n q a nodes found e _ _ _ _ ihBelow ihRest =>
    obtain ⟨below, hbelow⟩ := ihBelow
    obtain ⟨here, hhere⟩ := finish n a found
    obtain ⟨rest, hrest⟩ := ihRest
    exact ⟨below ++ here ++ rest, by simp [hrest, hhere, hbelow]⟩

/-- A visit does not change the order of the keys. -/
lemma precedes (v : Visits scan note m nodes n e) {a b : α} (h : Precedes m.keys a b) :
    Precedes n.keys a b := by
  obtain ⟨added, hkeys⟩ := v.keys_append
  rw [hkeys]
  exact h.append added

/-- Every node that is open, which is to say seen and not finished, leads to the nodes to visit. -/
def OpenLead (scan : α → Except ε (List α)) (m : Memory α β) (nodes : List α) : Prop :=
  ∀ x ∈ m.seen, x ∉ m.keys → ∀ a ∈ nodes, Reaches (successors scan) x a

omit [DecidableEq α] in
/-- Where a node has been entered, the open nodes lead to what was found at it. -/
lemma openLead_enter {a : α} {found : List α} (hopen : OpenLead scan m (a :: nodes))
    (hscan : scan a = .ok found) : OpenLead scan (m.enter note a) found := by
  intro x hx hkey b hb
  have edge : Edge (successors scan) a b := by rwa [Edge, successors_of_ok hscan]
  rcases Memory.mem_seen_enter.1 hx with hx | rfl
  · exact (hopen x hx hkey a List.mem_cons_self).tail edge
  · exact .single edge

/-- Visiting a node leaves those nodes open that were open before. -/
lemma openLead_finish {a : α} {found : List α} (v : Visits scan note (m.enter note a) found n none)
    (hopen : OpenLead scan m (a :: nodes)) : OpenLead scan (n.finish a found) nodes := by
  intro x hx hkey b hb
  rw [Memory.mem_keys_finish, not_or] at hkey
  rw [Memory.seen_finish] at hx
  rcases (v.settled rfl).2.1 x hx with hx | hx
  · rcases Memory.mem_seen_enter.1 hx with hx | rfl
    · have hkey' : x ∉ m.keys := fun h => hkey.1 (v.mem_keys_of_mem h)
      exact hopen x hx hkey' b (List.mem_cons_of_mem _ hb)
    · exact absurd rfl hkey.2
  · exact absurd hx hkey.1

/-- When a node gets finished, each of its successors has been finished before or leads back. -/
lemma precedes_or_reaches_finish {a : α} {found : List α}
    (v : Visits scan note (m.enter note a) found n none) (hopen : OpenLead scan m (a :: nodes))
    (hnot : a ∉ n.keys) {b : α} (hb : b ∈ found) :
    Precedes (n.finish a found).keys b a ∨ Reaches (successors scan) b a := by
  by_cases hdone : b ∈ n.keys
  · rw [Memory.keys_finish hnot]
    exact .inl (.concat hdone hnot)
  · -- a successor that is not finished was open when `a` was opened
    right
    rcases (v.settled rfl).2.1 b ((v.settled rfl).1 b hb) with hseen | hfinished
    · rcases Memory.mem_seen_enter.1 hseen with hseen | rfl
      · have hkey' : b ∉ m.keys := fun h => hdone (v.mem_keys_of_mem h)
        exact hopen b hseen hkey' a List.mem_cons_self
      · exact .refl
    · exact absurd hfinished hdone

/-- Each successor of a node that gets finished comes before the node or leads back to it. -/
lemma precedes_or_reaches (v : Visits scan note m nodes n e) (hm : m.Coherent)
    (hopen : OpenLead scan m nodes) : ∀ x ∈ n.finished, x ∈ m.finished ∨
      ∀ b ∈ x.2, Precedes n.keys b x.1 ∨ Reaches (successors scan) b x.1 := by
  induction v with
  | nil => exact fun _ h => .inl h
  | skip _ _ ih => exact ih hm fun x hx hkey a ha => hopen x hx hkey a (List.mem_cons_of_mem _ ha)
  | fail _ _ => exact fun _ h => .inl h
  | stop _ hscan _ ih => exact ih (hm.enter _ _) (openLead_enter hopen hscan)
  | @visit m n q a nodes found e hnot hscan vBelow vRest ihBelow ihRest =>
    have hkey : a ∉ m.keys := fun h => hnot (hm.seen a h)
    have hkey' : a ∉ n.keys := vBelow.not_mem_keys hkey
    have hseen : a ∈ n.seen := vBelow.mem_seen_of_enter
    have later {b c : α}
        (h : Precedes (n.finish a found).keys b c ∨ Reaches (successors scan) b c) :
        Precedes q.keys b c ∨ Reaches (successors scan) b c :=
      h.imp_left vRest.precedes
    intro x hx
    rcases ihRest ((vBelow.coherent (hm.enter _ _)).finish hseen found)
      (openLead_finish vBelow hopen) x hx with hx | hx
    · rcases Memory.mem_finished_finish hx with hx | rfl
      · refine (ihBelow (hm.enter _ _) (openLead_enter hopen hscan) x hx).imp_right fun h b hb => ?_
        refine later ((h b hb).imp_left fun hbefore => ?_)
        rw [Memory.keys_finish hkey']
        exact hbefore.append _
      · exact .inr fun b hb => later (precedes_or_reaches_finish vBelow hopen hkey' hb)
    · exact .inr hx

end Visits

/-- Without cycles, what can be reached from a node comes before the node. -/
lemma precedes_of_reaches {next : α → List α} {order : List α}
    (hedge : ∀ a ∈ order, ∀ b ∈ next a, Precedes order b a ∨ Reaches next b a)
    (hacyclic : ∀ a ∈ order, ¬Relation.TransGen (Edge next) a a) {a b : α} (ha : a ∈ order)
    (path : Relation.TransGen (Edge next) a b) : Precedes order b a := by
  -- a successor that leads back would close a cycle
  have step {a b : α} (ha : a ∈ order) (edge : Edge next a b) : Precedes order b a := by
    refine (hedge a ha b edge).resolve_right fun back => ?_
    exact hacyclic a ha (Relation.TransGen.head' edge back)
  induction path with
  | single edge => exact step ha edge
  | tail _ edge ih => exact (step ih.mem edge).trans ih

end MakeDeps.Search
