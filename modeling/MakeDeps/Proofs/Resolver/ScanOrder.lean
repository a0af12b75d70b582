import MakeDeps.Proofs.Graph.Closure
import MakeDeps.Proofs.Resolver.Graph
import MakeDeps.Proofs.Search.Failure
import MakeDeps.Proofs.Search.Machine
import MakeDeps.Proofs.Search.Roots

/-!
# In which order files are scanned

A resolution scans no file twice, and it comes to an end without any bound on the files that it
may scan. If it succeeds, it has scanned the closures of the sources one after the other, each file
where it comes first: `resolve_scanned`.
-/

namespace MakeDeps
open Search

/-- The file that is scanned, if that is what the event tells. -/
def Event.scanned? : Event → Option String
  | .scanning path => some path
  | _ => none

/-- The files that were scanned according to a log, in order. -/
def scanned (log : List Event) : List String :=
  log.filterMap Event.scanned?

/-- The scans of two logs are those of the first and those of the second. -/
@[simp] lemma scanned_append (log log' : List Event) :
    scanned (log ++ log') = scanned log ++ scanned log' :=
  List.filterMap_append

namespace Findings

/-- Looking up a library scans nothing. -/
lemma scanned_addNeed (file : String) (f : Findings) (need : String × String) :
    scanned (f.addNeed file need).log = scanned f.log := by
  unfold addNeed
  split
  · rfl
  · simp [scanned, Event.scanned?]

/-- Putting a file down is its scan. -/
lemma scanned_addFile (f : Findings) (file : String) (scan : Scan) :
    scanned (f.addFile file scan).log = scanned f.log ++ [file] := by
  have needs : ∀ (needs : List (String × String)) (f : Findings),
      scanned (needs.foldl (addNeed file) f).log = scanned f.log := by
    intro needs
    induction needs with
    | nil => exact fun _ => rfl
    | cons need needs ih =>
      intro f
      rw [List.foldl_cons, ih, scanned_addNeed]
  rw [addFile, needs, scanned_append]
  rfl

end Findings

namespace Resolver

variable {r : Resolver} {fs : FileSystem} {g : Graph} {m : Memory String Findings}
  {failure : Option Failure}

/-- What is noted about files tells that they were scanned. -/
lemma scanned_foldl_noteScan (files : List String) (f : Findings) :
    scanned (files.foldl (r.noteScan fs) f).log = scanned f.log ++ files := by
  induction files generalizing f with
  | nil => simp
  | cons file files ih =>
    rw [List.foldl_cons, ih, noteScan, Findings.scanned_addFile]
    simp

/-- The files that have been scanned are those that have been opened. -/
lemma VisitsSources.scanned_eq (v : r.VisitsSources fs m failure) :
    scanned (r.resolve fs).log = m.seen := by
  have hnotes : scanned m.notes.log = m.seen := by
    obtain ⟨added, hseen, hnotes⟩ := v.seen_append
    rw [hnotes, hseen]
    exact scanned_foldl_noteScan added ⟨[], []⟩
  rw [v.resolve_eq, conclude]
  split
  · exact hnotes
  · rw [scanned_append, hnotes]
    exact List.append_nil _

/-- The search for the dependencies ends, as a machine that is not told which files there are. -/
lemma VisitsSources.machine_runs (v : r.VisitsSources fs m failure) :
    Machine.Runs (r.includesOf fs) (r.noteScan fs)
      (.going (.start ⟨[], []⟩) [] (r.listing fs).sources) (.ended m failure) :=
  (searches_iff.2 v).machine_runs (Memory.coherent_start _) (by simp [Memory.start])

/-- A listed file includes what the graph says. -/
lemma successors_eq (h : (r.resolve fs).result = .ok g) {file : String} (hfile : file ∈ g.files) :
    successors (r.includesOf fs) file = g.dependenciesOf file := by
  obtain ⟨located, hlocated, heq⟩ := located_of_mem_files h hfile
  rw [heq]
  exact successors_of_ok (scan_includes_eq_ok_iff.2 ⟨located, hlocated, rfl⟩)

/-- The files that a resolution that succeeds has scanned are those of the graph. -/
lemma mem_scanned_iff (h : (r.resolve fs).result = .ok g) {file : String} :
    file ∈ scanned (r.resolve fs).log ↔ file ∈ g.files := by
  obtain ⟨m, v, rfl, -⟩ := exists_visits_of_resolve h
  rw [v.scanned_eq]
  constructor
  · intro hseen
    rcases (v.settled rfl).2.1 file hseen with hstart | hkey
    · simp [Memory.start] at hstart
    · exact hkey
  · exact (v.coherent (Memory.coherent_start _)).seen file

/-- A resolution that succeeds has scanned files as a traversal of its graph lists them. -/
lemma traversal_scanned (h : (r.resolve fs).result = .ok g) :
    Traversal g.dependenciesOf [] (r.listing fs).sources (scanned (r.resolve fs).log) := by
  obtain ⟨m, v, -, -⟩ := exists_visits_of_resolve h
  obtain ⟨order, t⟩ := Traversal.exists_order (r.closed_files fs (r.listing fs).sources) []
    (r.listing fs).sources fun _ => mem_files_of_mem_sources
  have hscanned : scanned (r.resolve fs).log = order := v.scanned_eq.trans ((v.follows t).2 rfl)
  rw [hscanned]
  exact t.congr fun file hfile => successors_eq h ((mem_scanned_iff h).1 (hscanned ▸ hfile))

/-- What is scanned are the closures of the sources, one after the other. -/
lemma scanned_eq_closures (h : (r.resolve fs).result = .ok g) :
    scanned (r.resolve fs).log = ((r.listing fs).sources.flatMap g.closure).eraseDups := by
  have closures : Traversal g.dependenciesOf [] (r.listing fs).sources
      ((r.listing fs).sources.flatMap g.closure).eraseDups :=
    .roots fun source _ => g.closure_traversal source
  exact (traversal_scanned h).unique closures

/-- No file is scanned twice. -/
lemma nodup_scanned (r : Resolver) (fs : FileSystem) : (scanned (r.resolve fs).log).Nodup := by
  obtain ⟨m, failure, v⟩ := r.exists_visitsSources fs
  rw [v.scanned_eq]
  exact v.nodup_seen List.nodup_nil

/-- The search for the dependencies of a project comes to an end, and the outcome is read off that
end. No file is scanned twice. If the resolution succeeds, the files have been scanned in the order
of the closures of the sources, one closure after the other and each file where it comes first; so
as many files have been scanned as are listed. -/
theorem resolve_scanned (r : Resolver) (fs : FileSystem) :
    (∃ m failure, Machine.Runs (r.includesOf fs) (r.noteScan fs)
        (.going (.start ⟨[], []⟩) [] (r.listing fs).sources) (.ended m failure) ∧
      r.resolve fs = conclude (r.listing fs).failure m failure ∧
      scanned (r.resolve fs).log = m.seen) ∧
    (scanned (r.resolve fs).log).Nodup ∧
    ∀ g, (r.resolve fs).result = .ok g →
      (r.listing fs).complete = .ok (r.listing fs).sources ∧
      scanned (r.resolve fs).log = ((r.listing fs).sources.flatMap g.closure).eraseDups ∧
      (scanned (r.resolve fs).log).length = g.files.length := by
  refine ⟨?_, r.nodup_scanned fs, fun g h => ⟨?_, ?_, ?_⟩⟩
  · obtain ⟨m, failure, v⟩ := r.exists_visitsSources fs
    exact ⟨m, failure, v.machine_runs, v.resolve_eq, v.scanned_eq⟩
  · obtain ⟨-, -, -, hwalk⟩ := exists_visits_of_resolve h
    rw [Listing.complete, hwalk]
  · exact scanned_eq_closures h
  · have hperm : (scanned (r.resolve fs).log).Perm g.files :=
      (List.perm_ext_iff_of_nodup (r.nodup_scanned fs) (nodup_files h)).2
        fun _ => mem_scanned_iff h
    exact hperm.length_eq

/-- The sources include each other here, so most of the second closure is passed over. -/
theorem resolve_scanned_cyclic :
    (cyclic.resolve cyclicTree).result = .ok cyclicGraph ∧
    scanned (cyclic.resolve cyclicTree).log = ["a.c", "h", "t.c"] ∧
    (["a.c", "t.c"].flatMap cyclicGraph.closure) = ["a.c", "h", "t.c", "a.c", "h"] := by
  have hsources : (cyclic.listing cyclicTree).sources = ["a.c", "t.c"] := by cbv
  have hclosures : (["a.c", "t.c"].flatMap cyclicGraph.closure) =
      ["a.c", "h", "t.c", "a.c", "h"] := by
    cbv
  refine ⟨resolve_cyclic, ?_, hclosures⟩
  obtain ⟨-, hscanned, -⟩ := (resolve_scanned cyclic cyclicTree).2.2 cyclicGraph resolve_cyclic
  rw [hscanned, hsources, hclosures]
  decide

end Resolver

end MakeDeps
