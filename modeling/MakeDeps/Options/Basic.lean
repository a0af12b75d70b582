import MakeDeps.Config
import MakeDeps.Text.Quoted

/-!
# Options

The options of the command line with their spellings, what each of them takes, and the arguments
that a command line amounts to.
-/

namespace MakeDeps

/-- The options of the command line. -/
inductive Opt where
  | help
  | version
  | extension
  | binary
  | compiler
  | std
  | opt
  | tests
  | entry
  | link
  | directory
  | output
  | verbose
  | debug
  deriving DecidableEq, Repr

/-- How many values an option takes. -/
inductive Arity where
  | none
  | one
  | some
  deriving DecidableEq, Repr

namespace Opt

/-- All options, in the order in which they are listed. -/
def all : List Opt :=
  [help, version, extension, binary, compiler, std, opt, tests, entry, link, directory, output,
    verbose, debug]

/-- How an option is written. -/
def spellings : Opt → List String
  | help => ["-h", "--help"]
  | version => ["--version"]
  | extension => ["-e", "--extension"]
  | binary => ["-b", "--binary"]
  | compiler => ["-c", "--compiler"]
  | std => ["--std"]
  | opt => ["--opt"]
  | tests => ["-t", "--tests"]
  | entry => ["--entry"]
  | link => ["-l", "--link"]
  | directory => ["-C", "--directory"]
  | output => ["-o", "--output"]
  | verbose => ["-v", "--verbose"]
  | debug => ["--debug"]

/-- How many values an option takes. -/
def arity : Opt → Arity
  | help => .none
  | version => .none
  | verbose => .none
  | debug => .none
  | tests => .some
  | _ => .one

/-- What the values of an option stand for. -/
def metavar? : Opt → Option String
  | extension => some "EXTENSION"
  | binary => some "PROGRAM_NAME"
  | compiler => some "COMPILER"
  | std => some "STANDARD"
  | opt => some "OPTIMIZATION_LEVEL"
  | tests => some "TEST_FILE|TEST_DIRECTORY"
  | entry => some "STEM"
  | link => some "HEADER=LIB"
  | directory => some "DIRECTORY"
  | output => some "OUTPUT"
  | help => none
  | version => none
  | verbose => none
  | debug => none

/-- What an option is for. -/
def purpose : Opt → String
  | help => "show this help message and exit"
  | version => "show program's version number and exit"
  | extension => "Extension of the source files to look for: c for C, cpp for C++"
  | binary => "Name of the generated executable"
  | compiler => "Compiler to use (default: gcc for c, g++ for cpp)"
  | std => "Language standard (default: c99 for c, c++11 for cpp)"
  | opt =>
    "Optimization level for the compiler flags (default: " ++ Config.defaultOptimization ++ ")"
  | tests =>
    "Files or directories holding test programs with their own main() (default: tests)"
  | entry =>
    "Source (path without extension) holding the program's main(), left out when linking tests " ++
      "(default: main)"
  | link => "Extra system header to library mapping, e.g. png.h=png"
  | directory => "Project root to scan (default: current directory)"
  | output => "Output file, relative to the project root (default: Makefile)"
  | verbose => "Verbose output"
  | debug => "Debug output"

/-- All spellings of an option at once. -/
def title (o : Opt) : String :=
  "/".intercalate o.spellings

/-- Every spelling with its option. -/
def table : List (String × Opt) :=
  all.flatMap fun o => o.spellings.map fun spelling => (spelling, o)

/-- The option that is written like this. -/
def ofSpelling? (s : String) : Option Opt :=
  table.lookup s

end Opt

/-- What an option with one value was given. The separator `--` in the place of the value is taken
away, and nothing is left. -/
inductive Value where
  | nothing
  | text (s : String)
  deriving DecidableEq, Repr

/-- The text that was given, if there is one. -/
def Value.text? : Value → Option String
  | nothing => none
  | text s => some s

/-- What a command line asks for. -/
structure Arguments where
  extension : Value
  binary : Value
  compiler : Option Value
  std : Option Value
  opt : Value
  tests : List String
  entry : Option Value
  links : List Value
  directory : Value
  output : Value
  verbose : Bool
  debug : Bool
  deriving DecidableEq

/-- Why a command line is refused. -/
inductive UsageError where
  | ambiguous (argument : String) (candidates : List String)
  | ignoredValue (option : Opt) (value : String)
  | expectedOne (option : Opt)
  | expectedSome (option : Opt)
  | missing (options : List Opt)
  | unrecognized (arguments : List String)
  deriving DecidableEq

namespace UsageError

/-- A complaint about one option. -/
def about (o : Opt) (complaint : String) : String :=
  "argument " ++ o.title ++ ": " ++ complaint

/-- The refusal in words. -/
def message : UsageError → String
  | ambiguous argument candidates =>
    "ambiguous option: " ++ argument ++ " could match " ++ ", ".intercalate candidates
  | ignoredValue o value => about o ("ignored explicit argument " ++ Text.quote value)
  | expectedOne o => about o "expected one argument"
  | expectedSome o => about o "expected at least one argument"
  | missing options =>
    "the following arguments are required: " ++ ", ".intercalate (options.map Opt.title)
  | unrecognized arguments => "unrecognized arguments: " ++ " ".intercalate arguments

end UsageError

/-- What a command line asks for instead of a run. -/
inductive Stop where
  | help
  | version
  | usage (e : UsageError)
  deriving DecidableEq

end MakeDeps
