import MakeDeps.Proofs.Resolver.Includes

/-!
# Resolving by recursion

`ResolvesTo` describes the resolution of a project without a stack: to visit a file is to scan it,
to visit those of its includes that have not been seen, in order, and then to add it to the graph.
This has one outcome, and it is the one of `resolve`: `resolvesTo_iff`.
-/

namespace MakeDeps.Resolver
open Search

/-- The files that a file includes, as a scan finds them. -/
def includesOf (r : Resolver) (fs : FileSystem) (file : String) : Except Failure (List String) :=
  (r.scan fs file).includes

/-- Adds what the scan of a file brings to light. -/
def noteScan (r : Resolver) (fs : FileSystem) (f : Findings) (file : String) : Findings :=
  f.addFile file (r.scan fs file)

/-- The outcome when a search has ended, which may have been because the walk for sources did. -/
def conclude (walkFailure : Option Failure) (m : Memory String Findings)
    (failure : Option Failure) : Outcome Graph :=
  match failure.or walkFailure with
  | some e => ⟨.error e, m.notes.log⟩
  | none => ⟨.ok ⟨m.finished, m.notes.libraries⟩,
      m.notes.log ++ [.resolved m.finished.length m.notes.libraries]⟩

/-- The recursive search from the sources of the project ends with this outcome. -/
def ResolvesTo (r : Resolver) (fs : FileSystem) (outcome : Outcome Graph) : Prop :=
  ∃ m failure,
    Searches (r.includesOf fs) (r.noteScan fs) (.start ⟨[], []⟩) (r.listing fs).sources m failure ∧
    outcome = conclude (r.listing fs).failure m failure

/-- Visiting all sources of the project, one after the other, ends like this. -/
def VisitsSources (r : Resolver) (fs : FileSystem) (m : Memory String Findings)
    (failure : Option Failure) : Prop :=
  Visits (r.includesOf fs) (r.noteScan fs) (.start ⟨[], []⟩) (r.listing fs).sources m failure

variable {r : Resolver} {fs : FileSystem} {m : Memory String Findings} {failure : Option Failure}

/-- The sources are among the files of a search from them. -/
lemma mem_files_of_mem_sources {sources : List String} {file : String} (h : file ∈ sources) :
    file ∈ r.files fs sources :=
  List.mem_append_left _ h

/-- A visit of all sources determines the outcome. -/
lemma VisitsSources.resolve_eq (v : r.VisitsSources fs m failure) :
    r.resolve fs = conclude (r.listing fs).failure m failure := by
  have hsearch : r.search fs (r.listing fs).sources =
      ⟨m.progress (r.files fs (r.listing fs).sources), failure⟩ := by
    have h := v.explore_eq (r.closed_files fs _) (fun _ => mem_files_of_mem_sources)
      (Memory.coherent_start _)
    rwa [Memory.progress_start] at h
  have hfindings : r.findings fs m.seen = m.notes := by
    obtain ⟨added, hseen, hnotes⟩ := v.seen_append
    rw [hnotes, hseen]
    rfl
  cases hend : failure.or (r.listing fs).failure with
  | none => simp only [resolve, conclude, hsearch, Memory.progress, hfindings, hend]
  | some e => simp only [resolve, conclude, hsearch, Memory.progress, hfindings, hend]

/-- The visit of all sources comes to an end. -/
lemma exists_visitsSources (r : Resolver) (fs : FileSystem) :
    ∃ m failure, r.VisitsSources fs m failure :=
  Search.exists_visits (r.closed_files fs _) _ _ fun _ => mem_files_of_mem_sources

/-- Before the first source nothing is seen, so whatever is seen is finished. That is why a search
may take a source for finished when it has been seen. -/
lemma searches_iff :
    Searches (r.includesOf fs) (r.noteScan fs) (.start ⟨[], []⟩) (r.listing fs).sources m failure ↔
      r.VisitsSources fs m failure :=
  searches_iff_visits (Memory.coherent_start _) (by simp [Memory.start])

/-- The recursion and the search with a stack have the same outcome: the same graph with its files
in the same order, the same libraries and the same log, or the same failure. -/
theorem resolvesTo_iff (r : Resolver) (fs : FileSystem) (outcome : Outcome Graph) :
    r.ResolvesTo fs outcome ↔ outcome = r.resolve fs := by
  constructor
  · rintro ⟨m, failure, s, rfl⟩
    have v := searches_iff.1 s
    exact v.resolve_eq.symm
  · rintro rfl
    obtain ⟨m, failure, v⟩ := r.exists_visitsSources fs
    exact ⟨m, failure, searches_iff.2 v, v.resolve_eq⟩

end MakeDeps.Resolver
