import MakeDeps.Proofs.Resolver.Graph
import MakeDeps.Proofs.Search.Finish

/-!
# In which order files are listed

The graph lists a file after the files that it includes, except for those that lead back to it. So
without cycles a file comes after everything that it reaches: `resolve_precedes`.
-/

namespace MakeDeps.Resolver
open Search

variable {r : Resolver} {fs : FileSystem} {g : Graph}

/-- An include goes to a file that is listed before, or that leads back. -/
lemma precedes_or_reaches (h : (r.resolve fs).result = .ok g) {file other : String}
    (hfile : file ∈ g.files) (hother : other ∈ g.dependenciesOf file) :
    Precedes g.files other file ∨ Reaches g.dependenciesOf other file := by
  have hlisted := mem_files_of_mem_dependenciesOf h hfile hother
  obtain ⟨⟨file, includes⟩, hmem, rfl⟩ := List.mem_map.1 hfile
  rw [dependenciesOf_eq h hmem] at hother
  obtain ⟨m, v, hg, -⟩ := exists_visits_of_resolve h
  -- before the first source nothing is open
  have hopen : Visits.OpenLead (r.includesOf fs) (.start ⟨[], []⟩ : Memory String Findings)
      (r.listing fs).sources := by
    intro x hx
    simp [Memory.start] at hx
  have hfinished : (file, includes) ∈ m.finished := by rwa [hg] at hmem
  rcases v.precedes_or_reaches (Memory.coherent_start _) hopen _ hfinished with hstart | horder
  · simp [Memory.start] at hstart
  · refine (horder other hother).imp (fun before => ?_) fun path => ?_
    · rw [hg]
      exact before
    · rw [reaches_iff h hlisted]
      exact Relation.ReflTransGen.mono (fun _ _ => includes_of_edge) _ _ path

/-- A file comes after each file that it includes, unless that one leads back to it. If no file of
the graph leads to itself, a file comes after every file that it reaches. -/
theorem resolve_precedes (h : (r.resolve fs).result = .ok g) :
    (∀ file ∈ g.files, ∀ other ∈ g.dependenciesOf file,
      Precedes g.files other file ∨ Reaches g.dependenciesOf other file) ∧
    ((∀ file ∈ g.files, ¬Relation.TransGen (Edge g.dependenciesOf) file file) →
      ∀ file ∈ g.files, ∀ other, Relation.TransGen (Edge g.dependenciesOf) file other →
        Precedes g.files other file) := by
  have hedges : ∀ file ∈ g.files, ∀ other ∈ g.dependenciesOf file,
      Precedes g.files other file ∨ Reaches g.dependenciesOf other file :=
    fun file hfile other hother => precedes_or_reaches h hfile hother
  refine ⟨hedges, fun hacyclic file hfile other path => ?_⟩
  exact precedes_of_reaches hedges hacyclic hfile path

/-- The header comes before the file that it includes, to which it leads back. -/
theorem resolve_precedes_cyclic :
    (cyclic.resolve cyclicTree).result = .ok cyclicGraph ∧
    ¬Precedes cyclicGraph.files "a.c" "h" ∧ Reaches cyclicGraph.dependenciesOf "a.c" "h" := by
  have hnot : ¬Precedes cyclicGraph.files "a.c" "h" := by
    unfold Precedes
    decide
  refine ⟨resolve_cyclic, hnot, ?_⟩
  have hedges := (resolve_precedes resolve_cyclic).1 "h" (by decide) "a.c" (by decide)
  exact hedges.resolve_left hnot

end MakeDeps.Resolver
