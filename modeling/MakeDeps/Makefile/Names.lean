import MakeDeps.Config
import MakeDeps.Failure
import MakeDeps.Graph.Basic

/-!
# Names in a Makefile

From the path of a source come the names of its variable, its object file and, for a test, its
program. Different sources may get the same name; `check` finds that out before anything is
written.
-/

namespace MakeDeps.Makefile

/-- The directory for object files. -/
def objectDirectory : String := ".OBJ"

/-- The targets that every Makefile has. -/
def reservedTargets : List String := ["all", "bin", "tests", "clean", objectDirectory]

/-- May the character stand in the name of a variable? -/
def isWordChar (c : Char) : Bool :=
  c.isAlphanum || c == '_'

/-- The variable that holds the files a source depends on. -/
def variableName (path : String) : String :=
  String.ofList ((Path.stripExtension path).toList.map fun c =>
    if isWordChar c then c.toUpper else '_') ++ "_DEPS"

/-- A path as one word without directories. -/
def flatten (path : String) : String :=
  String.ofList (path.toList.map fun c => if c = '/' then '_' else c)

/-- The path without extension and without directories. -/
def flatName (path : String) : String :=
  flatten (Path.stripExtension path)

/-- The object file with this name. -/
def inObjectDirectory (name : String) : String :=
  "$(ODIR)/" ++ name ++ ".o"

/-- The object file of a source. -/
def objectFile (path : String) : String :=
  inObjectDirectory (flatName path)

/-- The program that is built from a test source. -/
def testProgram (path : String) : String :=
  Path.stripExtension path

/-- The first source whose variable belongs to another source already, after that other one;
`owners` are the variables of the sources before, each with the first source that has it. -/
def findClash (owners : List (String × String)) : List String → Option (String × String)
  | [] => none
  | source :: sources =>
    match owners.lookup (variableName source) with
    | some owner => if owner = source then findClash owners sources else some (owner, source)
    | none => findClash (owners ++ [(variableName source, source)]) sources

/-- Says why the names do not do, if they do not: two sources with one variable, or else a test
whose program is the name of another target. -/
def check (sources tests : List String) (c : Config) : Except GenerateError Unit :=
  match findClash [] sources with
  | some (first, second) => .error (.nameClash first second (variableName second))
  | none =>
    match tests.find? fun test => testProgram test ∈ c.program :: reservedTargets with
    | some test => .error (.reservedName test (testProgram test))
    | none => .ok ()

end MakeDeps.Makefile
