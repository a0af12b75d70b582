import MakeDeps.Text.Blank
import MakeDeps.Text.Cut
import MakeDeps.Text.Order

/-!
# Build settings

What one run is about: the language, the names and the flags. `Config.ofSettings` completes what
the user gave with the defaults of the language and refuses what cannot be built. A flag is taken
off a standard once, and blanks are taken off a test before its `./`, so there may be something left
to be taken off the result.
-/

namespace MakeDeps

/-- The settings as the user gave them; each of them may be missing. -/
structure Settings where
  extension : Option String
  program : Option String
  compiler : Option String
  standard : Option String
  optimization : Option String
  tests : Option (List String)
  entryPoint : Option String

/-- The settings of a run. -/
structure Config where
  compiler : String
  /-- The extension of source files, without the dot. -/
  extension : String
  /-- The name of the program that is linked. -/
  program : String
  /-- The language standard, without the flag. -/
  standard : String
  /-- The optimization flag, without the dash. -/
  optimization : String
  /-- What the paths of test sources start with, as a set in increasing order. -/
  tests : List String
  /-- The source that holds the main function of the program, without its extension. -/
  entryPoint : String
  deriving DecidableEq

/-- Why settings are refused. -/
inductive ConfigError where
  | noProgram
  | noExtension
  | unknownLanguage
  | noOptimization
  deriving DecidableEq, Repr

/-- The refusal in words. -/
def ConfigError.message : ConfigError → String
  | noProgram => "You must provide a name for your executable"
  | noExtension => "You must provide a file extension to search for"
  | unknownLanguage =>
    "Only C or C++ files are allowed (extension should be either c or cpp)"
  | noOptimization => "Optimization level must not be empty"

/-- What a language is built with unless the user says otherwise. -/
structure Toolchain where
  compiler : String
  standard : String

namespace Config

/-- The supported extensions with their toolchains. -/
def toolchain? (extension : String) : Option Toolchain :=
  if extension = "c" then some ⟨"gcc", "c99"⟩
  else if extension = "cpp" then some ⟨"g++", "c++11"⟩
  else none

/-- The optimization flag unless the user says otherwise. -/
def defaultOptimization : String := "O0"

/-- The test identifiers unless the user says otherwise. -/
def defaultTests : List String := ["tests"]

/-- The entry point unless the user says otherwise. -/
def defaultEntryPoint : String := "main"

/-- The flag that may be written before a standard. -/
def standardFlag : String := "-std="

/-- The setting, or its default where it is missing or empty. -/
def orDefault (setting : Option String) (default : String) : String :=
  match setting with
  | some s => if s = "" then default else s
  | none => default

/-- The text without the `./` it starts with, however often. -/
def dropHere : List Char → List Char
  | '.' :: '/' :: cs => dropHere cs
  | cs => cs

/-- A test identifier without blanks around it and without leading `./`. -/
def normalizeTest (test : String) : String :=
  String.ofList (dropHere (Text.trim test.toList))

/-- The set of test identifiers that a list gives; identifiers that say nothing are left out. -/
def normalizeTests (tests : List String) : List String :=
  Text.sortedSet ((tests.map normalizeTest).filter (· ≠ ""))

/-- Completes the settings, or says what is wrong with them. -/
def ofSettings (s : Settings) : Except ConfigError Config :=
  let program := s.program.getD ""
  let extension := Text.withoutLeading '.' (s.extension.getD "")
  if program = "" then .error .noProgram
  else if s.extension.getD "" = "" then .error .noExtension
  else match toolchain? extension with
    | none => .error .unknownLanguage
    | some tools =>
      let optimization := Text.withoutLeading '-' (orDefault s.optimization defaultOptimization)
      if optimization = "" then .error .noOptimization
      else .ok {
        compiler := orDefault s.compiler tools.compiler
        extension, program, optimization
        standard := Text.withoutStart standardFlag (orDefault s.standard tools.standard)
        tests := normalizeTests (s.tests.getD defaultTests)
        entryPoint := orDefault s.entryPoint defaultEntryPoint }

/-- Is the source at this path a test? -/
def isTest (c : Config) (path : String) : Bool :=
  c.tests.any fun test => test.toList.isPrefixOf path.toList

end Config

end MakeDeps
