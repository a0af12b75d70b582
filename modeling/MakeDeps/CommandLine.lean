import MakeDeps.Options.Parse
import MakeDeps.Project

/-!
# The command line

A run completes its settings, finds the dependencies of the project, and writes one Makefile. A
failure that is meant to be reported is logged and makes the exit code 1; whatever happens before
the Makefile is opened leaves all files as they were.
-/

namespace MakeDeps

/-- What a run leaves behind: its exit code or the failure that nothing caught, the log, the
files, and the file that was written. -/
structure Report where
  outcome : Except Failure Nat
  log : List Event
  files : FileSystem
  written : Option Written

namespace Arguments

/-- The settings among the arguments. -/
def settings (a : Arguments) : Settings where
  extension := a.extension.text?
  program := a.binary.text?
  compiler := a.compiler.bind Value.text?
  standard := a.std.bind Value.text?
  optimization := a.opt.text?
  tests := some a.tests
  entryPoint := a.entry.bind Value.text?

/-- How much of the log is to be shown. -/
def verbosity (a : Arguments) : Verbosity :=
  if a.debug then .debug else if a.verbose then .verbose else .quiet

end Arguments

namespace CommandLine

/-- The pair of a header and a library that was given. -/
def readLink : Value → Except Failure (String × String)
  | .nothing => .error (.noValue .link)
  | .text spec => (readPair spec).mapError .badPair

/-- Ends a run that failed. -/
def fail (failure : Failure) (log : List Event) (fs : FileSystem) : Report :=
  if failure.isReported then ⟨.ok 1, log ++ [.failed failure], fs, none⟩
  else ⟨.error failure, log, fs, none⟩

/-- Resolves a project and writes its Makefile to the output path. -/
def build (fs : FileSystem) (cwd : Location) (project : Project) (output : Path) : Report :=
  let resolved := project.resolve fs cwd
  match resolved.outcome.result with
  | .error failure => fail failure resolved.outcome.log resolved.files
  | .ok _ =>
    let made := resolved.project.generate resolved.files cwd (.makefile output.name) output.parent
    let log := resolved.outcome.log ++ made.outcome.log
    match made.outcome.result with
    | .error failure => fail failure log made.files
    | .ok written => ⟨.ok 0, log, made.files, some written⟩

/-- Does what the arguments ask for. -/
def run (host : Host) (fs : FileSystem) (cwd : Location) (a : Arguments) : Report :=
  match Config.ofSettings a.settings with
  | .error e => fail (.config e) [] fs
  | .ok config =>
    match a.links.mapM readLink with
    | .error failure => fail failure [] fs
    | .ok pairs =>
      match a.directory, a.output with
      | .nothing, _ => fail (.noValue .directory) [] fs
      | .text _, .nothing => fail (.noValue .output) [] fs
      | .text directory, .text output =>
        let root := Path.ofString directory
        let project := Project.new root config (LibraryTable.standard.extend pairs) host
        build fs cwd project (root.join (.ofString output))

/-- What the program calls itself. -/
def programName : String := "makegen"

/-- The version of the program. -/
def versionText : String := programName ++ " 1.0.0"

/-- What the program does. -/
def description : String := "Generate C/C++ makefiles quickly and easily!"

/-- What an option is written like, and what it is for. -/
def optionText (o : Opt) : String :=
  let values := match o.metavar? with
    | some metavar => " " ++ metavar
    | none => ""
  "  " ++ ", ".intercalate o.spellings ++ values ++ "\n      " ++ o.purpose ++ "\n"

/-- What the program does, and all of its options. The layout is kept simple: there is no usage
line, and lines are not filled. -/
def helpText : String :=
  description ++ "\n\n" ++ String.join (Opt.all.map optionText)

/-- The exit code of a command line that asks for no run. -/
def stopCode : Stop → Nat
  | .help => 0
  | .version => 0
  | .usage _ => 2

/-- What a command line that asks for no run is answered. -/
def stopOutput : Stop → String
  | .help => helpText
  | .version => versionText ++ "\n"
  | .usage _ => ""

/-- What is complained about in a command line that asks for no run. -/
def stopComplaint : Stop → String
  | .help => ""
  | .version => ""
  | .usage e => programName ++ ": error: " ++ e.message ++ "\n"

end CommandLine

end MakeDeps
