import MakeDeps.Log
import MakeDeps.Makefile.Line
import MakeDeps.Makefile.Names

/-!
# The Makefile of a graph

The sources of a graph are divided into tests and the rest. The rest is compiled file by file and
linked to the program; each test is compiled and linked by itself with the objects of the program
other than its entry point. A variable for each source holds the files that it depends on.
-/

namespace MakeDeps.Makefile

/-- The compiler, as rules refer to it. -/
def compiler : String := "$(CC)"

/-- The flags of the compiler, as rules refer to them. -/
def compilerFlags : String := "$(CFLAGS)"

/-- The libraries to link with, as rules refer to them. -/
def linkerFlags : String := "$(LFLAGS)"

/-- The directory for object files, as rules refer to it. -/
def objectDirectoryRef : String := "$(ODIR)"

/-- The object files of the program, as rules refer to them. -/
def programObjects : String := "$(BIN_OBJ_FILES)"

/-- The object files that tests are linked with, as rules refer to them. -/
def testedObjects : String := "$(ALL_BIN_OBJS_WO_MAIN)"

/-- A reference to the files that a source depends on. -/
def dependenciesRef (source : String) : String :=
  "$(" ++ variableName source ++ ")"

/-- The compiler and its flags. -/
def toolchainLines (g : Graph) (c : Config) : List Line :=
  [ .assign "CC" [c.compiler],
    .assign "CFLAGS" ["-Wall"],
    .append "CFLAGS" ["-std=" ++ c.standard],
    .append "CFLAGS" ["-" ++ c.optimization],
    .assignTrimmed "LFLAGS" (g.libraries.map ("-l" ++ ·)) ]

/-- The directory for objects, and what each source depends on. -/
def variableLines (g : Graph) (sources : List String) : List Line :=
  [.blank, .assign "ODIR" [objectDirectory], .blank] ++
    sources.map fun source => .assign (variableName source) (g.closure source)

/-- The rules that link the program. -/
def programLines (programSources : List String) (c : Config) : List Line :=
  [ .blank,
    .rule "all" ["bin"] [],
    .blank,
    .rule objectDirectoryRef [] [],
    .recipe ["@mkdir", "-p", objectDirectoryRef],
    .blank,
    .assignTrimmed "BIN_OBJ_FILES" (programSources.map objectFile),
    .blank,
    .rule "bin" [objectDirectoryRef, programObjects] [],
    .recipe [compiler, programObjects, "-o", c.program, linkerFlags] ]

/-- The rule that compiles one source of the program. -/
def objectLines (source : String) : List Line :=
  [ .blank,
    .rule (objectFile source) [dependenciesRef source] [objectDirectoryRef],
    .recipe [compiler, "-c", source, compilerFlags, "-o", objectFile source] ]

/-- The object of the entry point, which tests are not linked with. -/
def entryObject (c : Config) : String :=
  inObjectDirectory (flatten c.entryPoint)

/-- The rule that builds one test. -/
def testLines (test : String) : List Line :=
  [ .blank,
    .rule (testProgram test) [dependenciesRef test, testedObjects] [],
    .recipe [compiler, compilerFlags, test, testedObjects, "-o", testProgram test, linkerFlags] ]

/-- The rules that build the tests, if there are any. -/
def testsLines (tests : List String) (c : Config) : List Line :=
  if tests.isEmpty then []
  else
    [ .blank,
      .assign "ALL_BIN_OBJS_WO_MAIN"
        ["$(filter-out", entryObject c ++ ",", programObjects ++ ")"],
      .blank,
      .rule "tests" (tests.map testProgram) [] ] ++
    tests.flatMap testLines

/-- The rule that removes what was built. -/
def cleanLines (tests : List String) (c : Config) : List Line :=
  [ .blank,
    .rule ".PHONY" (["all", "bin"] ++ (if tests.isEmpty then [] else ["tests"]) ++ ["clean"]) [],
    .blank,
    .rule "clean" [] [],
    .recipe (["rm", "-rf", objectDirectoryRef, c.program] ++ tests.map testProgram) ]

/-- The sources of the program itself. -/
def programSources (g : Graph) (c : Config) : List String :=
  (g.sources c.extension).filter fun source => !c.isTest source

/-- The sources of the tests. -/
def testSources (g : Graph) (c : Config) : List String :=
  (g.sources c.extension).filter c.isTest

/-- The lines of the Makefile. -/
def lines (g : Graph) (c : Config) : List Line :=
  toolchainLines g c ++ variableLines g (g.sources c.extension) ++
    programLines (programSources g c) c ++ (programSources g c).flatMap objectLines ++
    testsLines (testSources g c) c ++ cleanLines (testSources g c) c

/-- The text of the Makefile, unless its names would clash. -/
def render (g : Graph) (c : Config) : Except GenerateError String :=
  match check (g.sources c.extension) (testSources g c) c with
  | .error e => .error e
  | .ok () => .ok (print (lines g c))

/-- What is told while the Makefile is rendered. -/
def renderLog (g : Graph) (c : Config) : List Event :=
  [.programSources (programSources g c), .testSources (testSources g c)]

end MakeDeps.Makefile
