import MakeDeps.Directive
import MakeDeps.Failure
import MakeDeps.FileSystem.Canonical
import MakeDeps.FileSystem.Settled
import MakeDeps.FileSystem.Walk
import MakeDeps.Host
import MakeDeps.Path.Extension

/-!
# Scanning a file

A resolver looks at the files below its root. It lists the sources of the project, finds
the file that a directive means, and reads off a file which files it includes and which libraries
its headers need. Files are named by their path from the root.
-/

namespace MakeDeps

/-- Where a project lies and what to look for in it, and how deep this may go. -/
structure Resolver where
  root : Location
  extension : String
  libraries : LibraryTable
  nesting : Nesting

/-- What a file says: the libraries that its headers need, each with the header, as far as the
file was read, and the files that it includes. -/
structure Scan where
  needs : List (String × String)
  includes : Except Failure (List String)

/-- The sources of a project in walk order, as far as the walk came, and what made it end before
everything was seen. -/
structure Listing where
  sources : List String
  failure : Option Failure

/-- All sources, unless the walk ended early. -/
def Listing.complete (l : Listing) : Except Failure (List String) :=
  match l.failure with
  | some failure => .error failure
  | none => .ok l.sources

namespace Resolver

/-- Looks for a project at a path. The path must lead to a directory, and the resolver keeps the
location that the path means now. -/
def create (fs : FileSystem) (cwd : Location) (root : Path) (extension : String)
    (libraries : LibraryTable) (nesting : Nesting) : Except Failure Resolver :=
  match fs.isDirectory cwd root with
  | .error e => .error (.access e)
  | .ok false => .error (.resolve (.noRoot root))
  | .ok true => .ok ⟨fs.settled cwd root, extension, libraries, nesting⟩

/-- The path of the root. -/
def rootPath (r : Resolver) : Path := ⟨.root, r.root⟩

/-- The path of a file of the project. -/
def path (r : Resolver) (file : String) : Path :=
  r.rootPath.join (.ofString file)

/-- How a file is named that these names lead to from the root. -/
def fileName (names : List String) : String :=
  Path.text ⟨.relative, names⟩

/-- Is this a name that the walk cannot look at? -/
def isRefused (r : Resolver) (names : List String) : Bool :=
  FileSystem.isTooLong (r.rootPath.join ⟨.relative, names⟩)

/-- Is there a directory where the names lead from the root, through links if need be? -/
def leadsToFolder (r : Resolver) (fs : FileSystem) (names : List String) : Bool :=
  match fs.isDirectory [] (r.rootPath.join ⟨.relative, names⟩) with
  | .ok answer => answer
  | .error _ => false

/-- The failure with which a walk from `loc` ends when it meets the end of these names, if it does:
directories may be nested too deeply to be entered, and a path may be too long to be looked at. -/
def refusal? (r : Resolver) (fs : FileSystem) (loc : Location) (names : List String) :
    Option Failure :=
  if fs.isFolder (r.leadsToFolder fs) loc names ∧ r.nesting.folders < names.length then
    some .tooDeep
  else if r.isRefused names then
    some (.access ⟨.nameTooLong, (r.rootPath.join ⟨.relative, names⟩).text⟩)
  else none

/-- What the walk below the root meets, up to the first thing that it cannot get past. -/
def listing (r : Resolver) (fs : FileSystem) : Listing :=
  match fs.openDirectory [] r.rootPath with
  | .error fault => ⟨[], some (.ofFault r.rootPath.text fault)⟩
  | .ok loc =>
    let met := fs.walk (r.leadsToFolder fs) loc
    let files := (met.takeWhile fun names => (r.refusal? fs loc names).isNone).filter fun names =>
      fs.isFile (loc ++ names)
    { sources := (files.map fileName).filter (Path.hasExtension · r.extension)
      failure := met.findSome? (r.refusal? fs loc) }

/-- The path by which an include is looked for: it goes on from the directory of the including
file. -/
def includePath (r : Resolver) (includedFrom target : String) : Path :=
  (r.path includedFrom).parent.join (.ofString target)

/-- The file that is included as `target` by another one. It has to lie below the root. -/
def locate (r : Resolver) (fs : FileSystem) (includedFrom target : String) :
    Except Failure String :=
  match fs.canonical r.nesting.links [] (r.includePath includedFrom target) with
  | .error .nul => .error .nul
  | .error (.refused _) => .error (.resolve (.missing target includedFrom))
  | .ok loc =>
    match Text.dropStart? r.root loc with
    | some names => .ok (fileName names)
    | none => .error (.resolve (.outside target includedFrom))

/-- The targets of the local includes among directives. -/
def localTargets (directives : List Directive) : List String :=
  directives.filterMap fun
    | .localFile target => some target
    | .systemHeader _ => none

/-- The library that a directive asks for, with the header. A header may be known to need none. -/
def need? (r : Resolver) : Directive → Option (String × String)
  | .systemHeader header =>
    match r.libraries.library? header with
    | some library => if library = "" then none else some (header, library)
    | none => none
  | .localFile _ => none

/-- Can the directive be followed? System headers are not looked for. -/
def isFollowed (r : Resolver) (fs : FileSystem) (file : String) : Directive → Bool
  | .localFile target => (r.locate fs file target).isOk
  | .systemHeader _ => true

/-- Reads a file of the project. An include that cannot be followed ends the scan; a file that is
included more than once is listed where it comes first. -/
def scan (r : Resolver) (fs : FileSystem) (file : String) : Scan :=
  match fs.read [] (r.path file) with
  | .error .nul => ⟨[], .error .nul⟩
  | .error (.refused cause) => ⟨[], .error (.resolve (.unreadable file cause))⟩
  | .ok content =>
    let directives := Directive.ofContent content
    { needs := (directives.takeWhile (r.isFollowed fs file)).filterMap r.need?
      includes := ((localTargets directives).mapM (r.locate fs file)).map List.eraseDups }

end Resolver

end MakeDeps
