import Mathlib
import MakeDeps.Graph.Basic
import MakeDeps.Proofs.Search.Traversal

/-!
# The closure of a file

Whatever a graph looks like (cycles, files that depend on themselves or on a file twice, files that
it does not list), the closure of a file is the recursive preorder of what the file reaches:
`closure_preorder`. The file itself comes first: `closure_eq_cons`.
-/

namespace MakeDeps.Graph
open Search

/-- What a file depends on is mentioned in the graph. -/
lemma mem_mentioned_of_mem_dependenciesOf {g : Graph} {file other : String}
    (h : other ∈ g.dependenciesOf file) : other ∈ g.mentioned := by
  unfold dependenciesOf at h
  cases hl : g.dependencies.lookup file with
  | none => simp [hl] at h
  | some includes =>
    rw [hl, Option.getD_some] at h
    obtain ⟨before, after, heq, -⟩ := List.lookup_eq_some_iff.1 hl
    exact List.mem_flatMap.2
      ⟨(file, includes), by rw [heq]; simp, List.mem_cons_of_mem _ h⟩

/-- The files that a closure may open: no dependency leads out of them. -/
lemma closed_mentioned (g : Graph) (path : String) :
    Closed g.dependenciesOf (path :: g.mentioned).eraseDups := by
  intro file _ other h
  exact List.mem_eraseDups.2 (List.mem_cons_of_mem _ (mem_mentioned_of_mem_dependenciesOf h))

/-- A recursive traversal from a file comes to an end, and lists its closure. -/
lemma traversal_iff_closure (g : Graph) (path : String) (order : List String) :
    Traversal g.dependenciesOf [] [path] order ↔ order = g.closure path := by
  have h : Traversal g.dependenciesOf [] [path] order ↔
      order = preorder g.dependenciesOf (unseen (path :: g.mentioned).eraseDups []) [path] :=
    Traversal.iff_preorder (g.closed_mentioned path) (by simp)
  rwa [unseen_nil] at h

/-- The closure is a traversal from one file. -/
lemma closure_traversal (g : Graph) (path : String) :
    Traversal g.dependenciesOf [] [path] (g.closure path) :=
  (g.traversal_iff_closure path _).2 rfl

/-- The closure is what can be reached. -/
lemma mem_closure_iff {g : Graph} {path file : String} :
    file ∈ g.closure path ↔ Reaches g.dependenciesOf path file := by
  simpa using (g.closure_traversal path).mem_iff

/-- The closure starts with the file itself. -/
lemma closure_eq_cons (g : Graph) (path : String) : ∃ rest, g.closure path = path :: rest := by
  have t := g.closure_traversal path
  generalize g.closure path = order at t
  cases t with
  | skip hmem _ => simp at hmem
  | visit _ _ _ => exact ⟨_, rfl⟩

/-- The closure of a file is what the loop ends with, and the one order in which a recursive
traversal lists the files; it holds what the file reaches, each file once. -/
theorem closure_preorder (g : Graph) (path : String) :
    Loop.Runs g.dependenciesOf ⟨[], [path]⟩ ⟨g.closure path, []⟩ ∧
    (∀ order, Traversal g.dependenciesOf [] [path] order ↔ order = g.closure path) ∧
    (g.closure path).Nodup ∧
    ∀ file, file ∈ g.closure path ↔ Reaches g.dependenciesOf path file := by
  have t := g.closure_traversal path
  refine ⟨?_, g.traversal_iff_closure path, t.nodup.1, fun _ => mem_closure_iff⟩
  exact t.loop_steps []

/-- A cycle with a diamond on it, and a file that is not listed. -/
example :
    (Graph.mk [("a", ["b", "c", "b"]), ("b", ["d"]), ("c", ["d", "c", "a"])] []).closure "a" =
      ["a", "b", "d", "c"] := by
  cbv

end MakeDeps.Graph
