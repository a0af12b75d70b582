import MakeDeps.Graph.Search
import MakeDeps.Path.Extension
import MakeDeps.Text.Order

/-!
# Dependency graphs

A graph lists the files of a project with the files each of them includes, in the order in which
they were completed, and the libraries that the whole program needs. Cycles are allowed, and a
file may depend on one that the graph does not list.
-/

namespace MakeDeps

/-- Which files include which, and the libraries to link with. -/
structure Graph where
  dependencies : List (String × List String)
  libraries : List String
  deriving DecidableEq

namespace Graph

/-- The listed files, in the order of the graph. -/
def files (g : Graph) : List String :=
  g.dependencies.map Prod.fst

/-- The files that a file includes; none if the graph does not list it. -/
def dependenciesOf (g : Graph) (path : String) : List String :=
  (g.dependencies.lookup path).getD []

/-- The listed files with an extension, in increasing order. -/
def sources (g : Graph) (extension : String) : List String :=
  Text.sorted (g.files.filter (Path.hasExtension · extension))

/-- Every file that the graph mentions. -/
def mentioned (g : Graph) : List String :=
  g.dependencies.flatMap fun (path, includes) => path :: includes

/-- A file and everything it reaches, in depth-first preorder. -/
def closure (g : Graph) (path : String) : List String :=
  Search.preorder g.dependenciesOf (path :: g.mentioned).eraseDups [path]

end Graph

end MakeDeps
