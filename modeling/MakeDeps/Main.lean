import MakeDeps.CommandLine

/-!
# The program

The outer layer: it reads from the disk what a run may look at, lets the run work on that, writes
the file that the run has written, and shows the log. All decisions are taken by `CommandLine.run`;
here is only input and output.
-/

namespace MakeDeps.Disk

/-- What has been read from the disk: the entries, the files among them that were read with their
content, and those whose includes were looked up. -/
structure Survey where
  files : FileSystem
  read : List Location
  scanned : List Location

/-- Is there nothing more to learn about a location? -/
def Survey.isKnown (s : Survey) (loc : Location) (content : Bool) : Bool :=
  match s.files.find? loc with
  | none => false
  | some (.file _) => !content || s.read.contains loc
  | some _ => true

/-- The absolute path of a location. -/
def pathText (loc : Location) : String :=
  Path.text ⟨.root, loc⟩

/-- A link that leads nowhere is read as a link to this name, which nothing has. -/
def danglingTarget (name : String) : String :=
  name ++ "~missing"

/-- Reads what stands at a path. Files are read only where their content matters. -/
def readEntry (folder : Location) (name : String) (content : Bool) : IO (Option Entry) := do
  let path := (← IO.FS.realPath (pathText folder)) / name
  match (← path.symlinkMetadata).type with
  | .dir => return some .directory
  | .file =>
    if content then return some (.file (← IO.FS.readBinFile path).toList)
    else return some (.file [])
  | .symlink =>
    try
      return some (.link (← IO.FS.realPath path).toString)
    catch _ => return some (.link (danglingTarget name))
  | .other => return none

/-- Reads what stands under a name in a directory, and places it. -/
def lookUp (s : Survey) (folder : Location) (name : String) (content : Bool) : IO Survey := do
  let loc := folder ++ [name]
  if s.isKnown loc content then return s
  let entry ← try readEntry folder name content catch _ => pure none
  match entry with
  | none => return s
  | some entry =>
    return { s with
      files := s.files.place folder name entry
      read := if content then loc :: s.read else s.read }

/-- Reads everything that lies on the way when names are followed from a location, and gives the
location that they lead to. -/
partial def trace (s : Survey) (here : Location) : List String → IO (Survey × Option Location)
  | [] => return (s, some here)
  | name :: rest => do
    if name = "" ∨ name = "." then trace s here rest
    else if name = ".." then trace s here.dropLast rest
    else
      let s ← lookUp s here name true
      match s.files.find? (here ++ [name]) with
      | none => return (s, none)
      | some (.link target) =>
        if target = danglingTarget name then return (s, none)
        else trace s ((Anchor.ofChars target.toList).startAt here) (Path.names target ++ rest)
      | some _ => trace s (here ++ [name]) rest

/-- Reads the files that a file includes, and those that they include. -/
partial def traceIncludes (s : Survey) (file : Location) : IO Survey := do
  if file ∈ s.scanned then return s
  let mut s := { s with scanned := file :: s.scanned }
  if let some (.file content) := s.files.find? file then
    for target in Resolver.localTargets (Directive.ofContent content) do
      let path := Path.ofString target
      let (next, found) ← trace s (path.anchor.startAt file.dropLast) path.parts
      s := next
      if let some loc := found then
        s ← traceIncludes s loc
  return s

/-- Reads a directory with everything below it that a walk may come to, and what the sources in it
include. -/
partial def traceTree (s : Survey) (folder : Location) (extension : String) : IO Survey := do
  let mut s := s
  for child in ← (← IO.FS.realPath (pathText folder)).readDir do
    let name := child.fileName
    unless FileSystem.isHidden name do
      let isSource := Path.hasExtension name extension
      s ← lookUp s folder name isSource
      match s.files.find? (folder ++ [name]) with
      | some .directory => s ← traceTree s (folder ++ [name]) extension
      | some (.file _) => if isSource then s ← traceIncludes s (folder ++ [name])
      | _ => pure ()
  return s

/-- What a run relies on here. The depths are those that the original program comes to with its
default settings; the arguments that it gets have no surrogates. -/
def host : Host := ⟨⟨985, 992⟩, .utf8 fun _ => false⟩

/-- Reads what a run with these arguments may look at. -/
def survey (cwd : Location) (a : Arguments) : IO FileSystem := do
  let (s, _) ← trace ⟨.empty, [], []⟩ [] cwd
  let root := Path.ofString (a.directory.text?.getD "")
  let output := root.join (.ofString (a.output.text?.getD ""))
  let (s, found) ← trace s (root.anchor.startAt cwd) root.parts
  let (s, _) ← trace s (output.anchor.startAt cwd) output.parts
  match found with
  | none => return s.files
  | some folder =>
    match s.files.find? folder with
    | some .directory =>
      let extension := Text.withoutLeading '.' (a.extension.text?.getD "")
      return (← traceTree s folder extension).files
    | _ => return s.files

end MakeDeps.Disk

open MakeDeps in
/-- Runs the program and gives its exit code. -/
def main (arguments : List String) : IO UInt32 := do
  match Options.parse arguments with
  | .error stop =>
    IO.print (CommandLine.stopOutput stop)
    IO.eprint (CommandLine.stopComplaint stop)
    return UInt32.ofNat (CommandLine.stopCode stop)
  | .ok a =>
    let cwd := (Path.ofString (← IO.currentDir).toString).parts
    let report := CommandLine.run Disk.host (← Disk.survey cwd a) cwd a
    if let some made := report.written then
      IO.FS.writeBinFile made.path.text made.text.toUTF8
    IO.eprint (a.verbosity.render report.log)
    match report.outcome with
    | .ok code => return UInt32.ofNat code
    | .error failure =>
      IO.eprintln failure.message
      return 1
