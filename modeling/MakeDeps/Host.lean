import MakeDeps.Text.Encoding

/-!
# What a run relies on

Besides the files, a run depends on how deep its calls may be nested and on the encoding in which
it writes. Neither is fixed here; a run is given both.
-/

namespace MakeDeps

/-- How many calls of a kind may be open at the same time. -/
structure Nesting where
  /-- Links that are resolved within one another. -/
  links : Nat
  /-- Directories that are walked within one another. -/
  folders : Nat
  deriving DecidableEq, Repr

/-- What a run relies on besides its files. -/
structure Host where
  nesting : Nesting
  encoding : Text.Encoding

end MakeDeps
