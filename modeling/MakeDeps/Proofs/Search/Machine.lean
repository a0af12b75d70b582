import MakeDeps.Proofs.Search.Recursion

/-!
# The search as a machine

`Machine` is the search with a stack of frames, turn by turn and without a bound on the nodes that
it may open. Every turn of it has one outcome, and no turn follows once it has ended.

* `Visits.machine_runs`: the machine works off the pending nodes of its top frame as a recursive
  call visits them.
* `Searches.machine_runs`: so it comes to an end, the end of the recursive search.
-/

namespace MakeDeps.Search

variable {α β ε : Type}

/-- The search between two turns. While it goes on, there is what it remembers, the frames of the
open nodes, innermost first, and the roots still to come. -/
inductive Machine (α β ε : Type) where
  | going (memory : Memory α β) (stack : List (Frame α)) (roots : List α)
  | ended (memory : Memory α β) (failure : Option ε)

namespace Machine
variable [DecidableEq α] (scan : α → Except ε (List α)) (note : β → α → β)

/-- Opens a node: it is scanned, and gets a frame unless that fails. -/
def enter (m : Memory α β) (a : α) (stack : List (Frame α)) (roots : List α) : Machine α β ε :=
  match scan a with
  | .error failure => .ended (m.enter note a) (some failure)
  | .ok found => .going (m.enter note a) (⟨a, found, found⟩ :: stack) roots

/-- One turn. A root is passed over if it is finished, a successor if it is finished or seen. -/
def step? : Machine α β ε → Option (Machine α β ε)
  | .ended _ _ => none
  | .going m [] [] => some (.ended m none)
  | .going m [] (root :: roots) =>
    if root ∈ m.keys then some (.going m [] roots) else some (enter scan note m root [] roots)
  | .going m (⟨a, all, []⟩ :: stack) roots => some (.going (m.finish a all) stack roots)
  | .going m (⟨a, all, b :: pending⟩ :: stack) roots =>
    if b ∈ m.keys ∨ b ∈ m.seen then some (.going m (⟨a, all, pending⟩ :: stack) roots)
    else some (enter scan note m b (⟨a, all, pending⟩ :: stack) roots)

/-- Some number of turns lead from one state of the machine to another. -/
def Runs : Machine α β ε → Machine α β ε → Prop :=
  Relation.ReflTransGen fun s s' => step? scan note s = some s'

/-- What the machine comes to when the pending nodes of its top frame have been visited: after a
failure it has ended, otherwise the frame has nothing pending any more. -/
def afterVisit (m : Memory α β) (a : α) (all : List α) (stack : List (Frame α)) (roots : List α) :
    Option ε → Machine α β ε
  | none => .going m (⟨a, all, []⟩ :: stack) roots
  | some failure => .ended m (some failure)

variable {scan note}

/-- A run after a step is a run from before the step. -/
lemma runs_step {s s' t : Machine α β ε} (h : step? scan note s = some s')
    (runs : Runs scan note s' t) : Runs scan note s t :=
  runs.head h

omit [DecidableEq α] in
/-- A node at which something is found is entered, with that to be visited. -/
lemma enter_of_ok {m : Memory α β} {a : α} {found : List α} (h : scan a = .ok found)
    (stack : List (Frame α)) (roots : List α) : enter scan note m a stack roots =
      .going (m.enter note a) (⟨a, found, found⟩ :: stack) roots := by
  simp [enter, h]

omit [DecidableEq α] in
/-- A node at which the scan fails ends the search. -/
lemma enter_of_error {m : Memory α β} {a : α} {failure : ε} (h : scan a = .error failure)
    (stack : List (Frame α)) (roots : List α) :
    enter scan note m a stack roots = .ended (m.enter note a) (some failure) := by
  simp [enter, h]

end Machine

section
variable [DecidableEq α] {scan : α → Except ε (List α)} {note : β → α → β}
  {m n : Memory α β} {nodes roots : List α} {e : Option ε}
open Machine

/-- The machine works off the pending nodes of its top frame as a recursive call visits them. -/
lemma Visits.machine_runs (v : Visits scan note m nodes n e) (hm : m.Coherent)
    (b : α) (all : List α) (stack : List (Frame α)) (roots : List α) :
    Runs scan note (.going m (⟨b, all, nodes⟩ :: stack) roots)
      (afterVisit n b all stack roots e) := by
  -- a node that has not been seen is not finished either, so the machine opens it
  have opens {m : Memory α β} {a : α} {nodes : List α} (hm : m.Coherent) (hnot : a ∉ m.seen)
      (b : α) (all : List α) (stack : List (Frame α)) :
      step? scan note (.going m (⟨b, all, a :: nodes⟩ :: stack) roots) =
        some (enter scan note m a (⟨b, all, nodes⟩ :: stack) roots) := by
    have hkey : a ∉ m.keys := fun h => hnot (hm.seen a h)
    simp [step?, hnot, hkey]
  induction v generalizing b all stack with
  | nil => exact .refl
  | skip hmem _ ih => exact runs_step (by simp [step?, hmem]) (ih hm b all stack)
  | fail hnot hscan =>
    refine runs_step (opens hm hnot b all stack) ?_
    rw [enter_of_error hscan]
    exact .refl
  | @stop m n a nodes found e hnot hscan _ ih =>
    refine runs_step (opens hm hnot b all stack) ?_
    rw [enter_of_ok hscan]
    exact ih (hm.enter _ _) a found _
  | @visit m n q a nodes found e hnot hscan vBelow _ ihBelow ihRest =>
    have hseen : a ∈ n.seen := vBelow.mem_seen_of_enter
    refine runs_step (opens hm hnot b all stack) ?_
    rw [enter_of_ok hscan]
    -- the frame of `a` is worked off first and then taken away
    refine (ihBelow (hm.enter _ _) a found (⟨b, all, nodes⟩ :: stack)).trans (runs_step rfl ?_)
    exact ihRest ((vBelow.coherent (hm.enter _ _)).finish hseen found) b all stack

/-- The machine comes to the end of the recursive search. -/
theorem Searches.machine_runs (s : Searches scan note m roots n e) (hm : m.Coherent)
    (hs : ∀ a ∈ m.seen, a ∈ m.keys) :
    Runs scan note (.going m [] roots) (.ended n e) := by
  have opens {m : Memory α β} {a : α} {roots : List α} (hkey : a ∉ m.keys) :
      step? scan note (.going m [] (a :: roots)) = some (enter scan note m a [] roots) := by
    simp [step?, hkey]
  induction s with
  | nil => exact runs_step rfl .refl
  | skip hkey _ ih => exact runs_step (by simp [step?, hkey]) (ih hm hs)
  | @stop m n a roots e hkey v =>
    refine runs_step (opens hkey) ?_
    cases v with
    | skip _ v => cases v
    | fail _ hscan =>
      rw [enter_of_error hscan]
      exact .refl
    | @stop _ _ _ _ found _ _ hscan v =>
      rw [enter_of_ok hscan]
      exact v.machine_runs (hm.enter _ _) a found [] roots
    | visit _ _ _ v => cases v
  | @visit m n q a roots e hkey v _ ih =>
    -- after a root without a failure, again whatever is seen is finished
    have rest := ih (v.coherent hm) (v.finished_of_seen hs)
    refine runs_step (opens hkey) ?_
    cases v with
    | skip hmem _ => exact absurd (hs a hmem) hkey
    | @visit _ _ _ _ _ found _ _ hscan vBelow v =>
      cases v
      rw [enter_of_ok hscan]
      refine (vBelow.machine_runs (hm.enter _ _) a found [] roots).trans (runs_step rfl ?_)
      exact rest

end

end MakeDeps.Search
