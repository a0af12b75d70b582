import MakeDeps.Graph.Basic
import MakeDeps.Log
import MakeDeps.Resolver.Scan

/-!
# Finding the dependencies of a project

The sources of a project and everything they include, directly or not, make up its graph. The
search visits each file once, depth first, and a file joins the graph when everything that it
includes has been looked at. The libraries are listed as the files are opened.
-/

namespace MakeDeps

/-- The libraries known to be needed so far, and what has been told. -/
structure Findings where
  libraries : List String
  log : List Event

namespace Findings

/-- Adds a library that a header in a file needs, unless it is known already. -/
def addNeed (file : String) (f : Findings) (need : String × String) : Findings :=
  if need.2 ∈ f.libraries then f
  else ⟨f.libraries ++ [need.2], f.log ++ [.needsLibrary file need.1 need.2]⟩

/-- Adds what a scanned file needs. -/
def addFile (f : Findings) (file : String) (scan : Scan) : Findings :=
  scan.needs.foldl (addNeed file) { f with log := f.log ++ [.scanning file] }

end Findings

namespace Resolver

/-- What the scanned files need, in the order in which they were scanned. -/
def findings (r : Resolver) (fs : FileSystem) (opened : List String) : Findings :=
  opened.foldl (fun f file => f.addFile file (r.scan fs file)) ⟨[], []⟩

/-- Every file that the search can meet: the sources, and whatever lies below the root. -/
def files (r : Resolver) (fs : FileSystem) (sources : List String) : List String :=
  sources ++ ([] :: fs.below r.root).map fileName

/-- The search from the sources through all includes. -/
def search (r : Resolver) (fs : FileSystem) (sources : List String) :
    Search.Result String Failure :=
  Search.explore (fun file => (r.scan fs file).includes) (.start (r.files fs sources)) sources

/-- The graph of the project, or the first failure. The walk for sources and the search take
turns, so a failing file among the sources before the place where the walk failed comes first. -/
def resolve (r : Resolver) (fs : FileSystem) : Outcome Graph :=
  let listing := r.listing fs
  let found := r.search fs listing.sources
  let findings := r.findings fs found.progress.opened
  match found.failure.or listing.failure with
  | some failure => ⟨.error failure, findings.log⟩
  | none =>
    let graph : Graph := ⟨found.progress.finished, findings.libraries⟩
    ⟨.ok graph, findings.log ++ [.resolved graph.dependencies.length graph.libraries]⟩

end Resolver

end MakeDeps
