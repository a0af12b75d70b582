import MakeDeps.FileSystem.Basic
import MakeDeps.FileSystem.Error
import MakeDeps.Path.Basic

/-!
# Following a path

How the system finds what a path means: name by name from a starting location, through links,
upwards at `..`. Every name must be looked up in a directory, a name has at most 255 bytes, a path
text fewer than 4096, and at most 40 links are followed. The walk ends because each link uses up
one of these, and every other step one name.
-/

namespace MakeDeps

/-- Where a path leads: to something that is there, or to a free name in a directory. -/
inductive Place where
  | taken (loc : Location)
  | free (folder : Location) (name : String)
  deriving DecidableEq, Repr

/-- The location at which a path starts that is read at `here`. -/
def Anchor.startAt (here : Location) : Anchor → Location
  | .relative => here
  | _ => []

namespace FileSystem

/-- The longest name, in bytes. -/
def maxName : Nat := 255

/-- The number of bytes that a path text must stay below. -/
def maxPath : Nat := 4096

/-- How many links one walk follows. -/
def maxLinks : Nat := 40

/-- Is the text of the path too long for the system? -/
def isTooLong (p : Path) : Bool :=
  maxPath ≤ p.text.utf8ByteSize

/-- What stands under a name in a directory, links not followed. -/
def lookAt (fs : FileSystem) (folder : Location) (name : String) : Except Cause Entry :=
  if fs.find? folder ≠ some .directory then .error .notDirectory
  else if maxName < name.utf8ByteSize then .error .nameTooLong
  else match fs.find? (folder ++ [name]) with
    | none => .error .notFound
    | some e => .ok e

/-- Follows names from a location. When a file is about to be made, the last name may be free, and
it must not be followed by a separator. -/
def follow (fs : FileSystem) (creating : Bool) (links : Nat) (here : Location) :
    List String → Except Cause Place
  | [] => .ok (.taken here)
  | name :: rest =>
    if fs.find? here ≠ some .directory then .error .notDirectory
    else if name = "" ∨ name = "." then follow fs creating links here rest
    else if name = ".." then follow fs creating links here.dropLast rest
    else if creating ∧ rest ≠ [] ∧ ∀ next ∈ rest, next = "" then .error .isDirectory
    else if maxName < name.utf8ByteSize then .error .nameTooLong
    else match fs.find? (here ++ [name]) with
      | none => if creating ∧ rest = [] then .ok (.free here name) else .error .notFound
      | some (.link target) =>
        match links with
        | 0 => .error .tooManyLinks
        | links + 1 =>
          let start := (Anchor.ofChars target.toList).startAt here
          follow fs creating links start (Path.names target ++ rest)
      | some _ => follow fs creating links (here ++ [name]) rest
  termination_by names => (links, names.length)

/-- What a path means to a process that works at `cwd`. -/
def locate (fs : FileSystem) (cwd : Location) (creating : Bool) (p : Path) : Except Fault Place :=
  if '\x00' ∈ p.text.toList then .error .nul
  else if isTooLong p then .error (.refused .nameTooLong)
  else (fs.follow creating maxLinks (p.anchor.startAt cwd) p.parts).mapError .refused

/-- Is there a directory at the path? A path that leads nowhere is no directory, whereas a name
too long for the system is an error. -/
def isDirectory (fs : FileSystem) (cwd : Location) (p : Path) : Except AccessError Bool :=
  match fs.locate cwd false p with
  | .ok (.taken loc) => .ok (fs.find? loc == some .directory)
  | .error (.refused .nameTooLong) => .error ⟨.nameTooLong, p.text⟩
  | _ => .ok false

/-- The content of the file at the path. -/
def read (fs : FileSystem) (cwd : Location) (p : Path) : Except Fault (List UInt8) :=
  match fs.locate cwd false p with
  | .error e => .error e
  | .ok (.free _ _) => .error (.refused .notFound)
  | .ok (.taken loc) =>
    match fs.find? loc with
    | some (.file content) => .ok content
    | some _ => .error (.refused .isDirectory)
    | none => .error (.refused .notFound)

/-- The location of the directory at the path. -/
def openDirectory (fs : FileSystem) (cwd : Location) (p : Path) : Except Fault Location :=
  match fs.locate cwd false p with
  | .error e => .error e
  | .ok (.free _ _) => .error (.refused .notFound)
  | .ok (.taken loc) =>
    match fs.find? loc with
    | some .directory => .ok loc
    | some _ => .error (.refused .notDirectory)
    | none => .error (.refused .notFound)

/-- Writes the file at the path, in place of its old content or as a new file. -/
def write (fs : FileSystem) (cwd : Location) (p : Path) (content : List UInt8) :
    Except Fault FileSystem :=
  match fs.locate cwd true p with
  | .error e => .error e
  | .ok (.free folder name) => .ok (fs.place folder name (.file content))
  | .ok (.taken loc) =>
    match fs.find? loc with
    | some (.file _) => .ok (fs.place loc.dropLast (loc.getLastD "") (.file content))
    | _ => .error (.refused .isDirectory)

end FileSystem

end MakeDeps
