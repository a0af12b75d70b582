/-!
# Depth-first search

Two searches over the same kind of graph, in which `next` or `scan` gives the successors of a node
in order. `preorder` lists what can be reached, each node when it is met first. `explore` asks for
the successors of every node it meets once, stops at the first failure, and tells in which order
nodes were opened and in which order they were finished. Both keep the nodes that they may still
open in a list `fresh`, which shrinks whenever a node is opened; that is why they end, on cyclic
graphs too.
-/

namespace MakeDeps.Search

variable {α ε : Type} [DecidableEq α]

/-- The nodes of a list other than `a`. -/
def without (a : α) (fresh : List α) : List α :=
  fresh.filter (· ≠ a)

/-- What is left are the other nodes. -/
@[simp] theorem mem_without {a b : α} {fresh : List α} :
    b ∈ without a fresh ↔ b ∈ fresh ∧ b ≠ a := by
  simp [without]

/-- Opening a fresh node leaves fewer of them. -/
theorem length_without_lt {a : α} {fresh : List α} (h : a ∈ fresh) :
    (without a fresh).length < fresh.length :=
  List.length_filter_lt_length_iff_exists.2 ⟨a, h, by simp⟩

/-- The fresh nodes that can be reached from the nodes on the stack, in depth-first preorder: the
first of them, what can be reached from it, and so on. -/
def preorder (next : α → List α) (fresh : List α) : List α → List α
  | [] => []
  | a :: stack =>
    if a ∈ fresh then a :: preorder next (without a fresh) (next a ++ stack)
    else preorder next fresh stack
  termination_by stack => (fresh.length, stack.length)
  decreasing_by
    · rename_i h
      exact Prod.Lex.left _ _ (length_without_lt h)
    · exact Prod.Lex.right _ (by simp)

/-- A node that has been opened and not finished: all its successors, and those still to visit. -/
structure Frame (α : Type) where
  node : α
  successors : List α
  pending : List α

/-- What a search has done so far: the nodes that it may still open, those opened, and those
finished with their successors, both in the order in which that happened. -/
structure Progress (α : Type) where
  fresh : List α
  opened : List α
  finished : List (α × List α)

namespace Progress

/-- The search before the first node. -/
def start (fresh : List α) : Progress α := ⟨fresh, [], []⟩

/-- Opens a node. -/
def markOpened (p : Progress α) (a : α) : Progress α :=
  { p with fresh := without a p.fresh, opened := p.opened ++ [a] }

/-- Finishes a node. -/
def markFinished (p : Progress α) (a : α) (successors : List α) : Progress α :=
  { p with finished := p.finished ++ [(a, successors)] }

end Progress

/-- How a search ended: with a failure, or because nothing was left to do. -/
structure Result (α ε : Type) where
  progress : Progress α
  failure : Option ε

/-- The steps that a stack of frames stands for, apart from nodes still to be opened. -/
def weight : List (Frame α) → Nat
  | [] => 0
  | frame :: stack => frame.pending.length + 1 + weight stack

/-- Works off a stack of frames: visits the next pending successor of the top frame, or finishes
its node if there is none left. -/
def work (scan : α → Except ε (List α)) (p : Progress α) : List (Frame α) → Result α ε
  | [] => ⟨p, none⟩
  | ⟨a, successors, []⟩ :: stack => work scan (p.markFinished a successors) stack
  | ⟨a, successors, b :: pending⟩ :: stack =>
    if b ∈ p.fresh then
      match scan b with
      | .error e => ⟨p.markOpened b, some e⟩
      | .ok found =>
        work scan (p.markOpened b) (⟨b, found, found⟩ :: ⟨a, successors, pending⟩ :: stack)
    else work scan p (⟨a, successors, pending⟩ :: stack)
  termination_by stack => (p.fresh.length, weight stack)
  decreasing_by
    · exact Prod.Lex.right _ (by simp [weight])
    · rename_i h
      exact Prod.Lex.left _ _ (length_without_lt h)
    · exact Prod.Lex.right _ (by simp [weight])

/-- Searches from each root in turn that has not been opened by then. -/
def explore (scan : α → Except ε (List α)) (p : Progress α) : List α → Result α ε
  | [] => ⟨p, none⟩
  | root :: roots =>
    if root ∈ p.fresh then
      match scan root with
      | .error e => ⟨p.markOpened root, some e⟩
      | .ok found =>
        match work scan (p.markOpened root) [⟨root, found, found⟩] with
        | ⟨p, none⟩ => explore scan p roots
        | failed => failed
    else explore scan p roots

end MakeDeps.Search
