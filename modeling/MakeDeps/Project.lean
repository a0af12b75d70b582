import MakeDeps.Makefile.Rules
import MakeDeps.Resolver.Resolve

/-!
# Projects

A project is a source tree with its settings. It keeps the graph of the last resolution that
succeeded, and generators write build files from that graph. Operations take the file system and
give it back, so that it can be seen what a failed operation has changed.
-/

namespace MakeDeps

/-- What writes build files. A bare generator has a name and nothing else. -/
inductive Generator where
  | bare (name : String)
  | makefile (fileName : String)
  deriving DecidableEq

namespace Generator

/-- What the generator is called. -/
def name : Generator → String
  | bare name => name
  | makefile _ => "make"

/-- The generator in words. -/
def describe : Generator → String
  | bare name => "BaseGenerator(" ++ Text.quote name ++ ")"
  | makefile fileName => "MakefileGenerator(" ++ Text.quote (makefile fileName).name ++ ")"

/-- The graph to generate from, which only a resolved project has. -/
def requireGraph (gen : Generator) (graph : Option Graph) : Except GenerateError Graph :=
  match graph with
  | some g => .ok g
  | none => .error (.unresolved gen.name)

end Generator

/-- A source tree with its settings and what its operations rely on, and its graph once that is
known. -/
structure Project where
  root : Path
  config : Config
  libraries : LibraryTable
  host : Host
  graph : Option Graph

/-- A file that was written. -/
structure Written where
  path : Path
  text : String
  deriving DecidableEq

/-- What an operation on a project leaves behind. -/
structure Effect (α : Type) where
  outcome : Outcome α
  project : Project
  files : FileSystem

namespace Project

/-- A project that has not been resolved. -/
def new (root : Path) (config : Config) (libraries : LibraryTable) (host : Host) : Project :=
  ⟨root, config, libraries, host, none⟩

/-- The project in words. -/
def describe (p : Project) : String :=
  "Project(" ++ Text.quote p.root.text ++ ", " ++ Text.quote p.config.program ++ ")"

/-- A resolver for the project as it is now. -/
def resolver (p : Project) (fs : FileSystem) (cwd : Location) : Except Failure Resolver :=
  Resolver.create fs cwd p.root p.config.extension p.libraries p.host.nesting

/-- Finds the graph of the project and keeps it. -/
def resolve (p : Project) (fs : FileSystem) (cwd : Location) : Effect Graph :=
  match p.resolver fs cwd with
  | .error failure => ⟨⟨.error failure, []⟩, p, fs⟩
  | .ok r =>
    let outcome := r.resolve fs
    match outcome.result with
    | .error _ => ⟨outcome, p, fs⟩
    | .ok graph => ⟨outcome, { p with graph := some graph }, fs⟩

/-- Renders a Makefile and writes it into a directory. The text is complete before the file is
opened, but it is encoded afterwards: if that fails, the file is left without content. -/
def writeMakefile (p : Project) (fs : FileSystem) (cwd : Location) (g : Graph)
    (output : Path) : Effect Written :=
  let log := Makefile.renderLog g p.config
  match Makefile.render g p.config with
  | .error e => ⟨⟨.error (.generate e), log⟩, p, fs⟩
  | .ok text =>
    let encoded := p.host.encoding.encode text
    match fs.write cwd output (encoded.toOption.getD []) with
    | .error fault => ⟨⟨.error (.ofFault output.text fault), log⟩, p, fs⟩
    | .ok files =>
      match encoded with
      | .error e => ⟨⟨.error (.unencodable e), log⟩, p, files⟩
      | .ok _ => ⟨⟨.ok ⟨output, text⟩, log ++ [.generated output]⟩, p, files⟩

/-- Generates from the graph that the project has now. -/
def generateNow (p : Project) (fs : FileSystem) (cwd : Location) (gen : Generator)
    (folder : Path) : Effect Written :=
  match gen with
  | .bare _ => ⟨⟨.error .notImplemented, []⟩, p, fs⟩
  | .makefile fileName =>
    match gen.requireGraph p.graph with
    | .error e => ⟨⟨.error (.generate e), []⟩, p, fs⟩
    | .ok g => p.writeMakefile fs cwd g (folder.join (.ofString fileName))

/-- Generates, after resolving the project if that has not been done. -/
def generate (p : Project) (fs : FileSystem) (cwd : Location) (gen : Generator)
    (folder : Path) : Effect Written :=
  match p.graph with
  | some _ => p.generateNow fs cwd gen folder
  | none =>
    let resolved := p.resolve fs cwd
    match resolved.outcome.result with
    | .error failure => ⟨⟨.error failure, resolved.outcome.log⟩, resolved.project, resolved.files⟩
    | .ok _ =>
      let written := resolved.project.generateNow resolved.files cwd gen folder
      { written with
        outcome := ⟨written.outcome.result, resolved.outcome.log ++ written.outcome.log⟩ }

end Project

end MakeDeps
