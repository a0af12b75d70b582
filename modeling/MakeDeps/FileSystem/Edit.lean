import MakeDeps.FileSystem.Follow

/-!
# Edits

What else may happen to the files of a project: files are written, directories and links are made,
and anything may be removed. An edit makes the directories that it needs, and one that the system
refuses changes nothing.
-/

namespace MakeDeps

/-- A change of the file system by path. -/
inductive Edit where
  | write (path : Path) (content : List UInt8)
  | makeDirectory (path : Path)
  | makeLink (path : Path) (target : String)
  | remove (path : Path)

namespace FileSystem

/-- Makes the directories that lead along names from a location, as far as they are missing. -/
def makeDirectories (fs : FileSystem) (here : Location) : List String → FileSystem
  | [] => fs
  | name :: rest =>
    match fs.follow false maxLinks here [name], fs.lookAt here name with
    | .ok (.taken loc), _ => makeDirectories fs loc rest
    | _, .error .notFound =>
      makeDirectories (fs.place here name .directory) (here ++ [name]) rest
    | _, _ => fs

/-- The file system after an edit by a process that works at `cwd`. -/
def edit (fs : FileSystem) (cwd : Location) : Edit → FileSystem
  | .write path content =>
    let fs := fs.makeDirectories (path.anchor.startAt cwd) path.parent.parts
    match fs.write cwd path content with
    | .ok fs => fs
    | .error _ => fs
  | .makeDirectory path => fs.makeDirectories (path.anchor.startAt cwd) path.parts
  | .makeLink path target =>
    let fs := fs.makeDirectories (path.anchor.startAt cwd) path.parent.parts
    match fs.openDirectory cwd path.parent with
    | .ok loc =>
      match fs.find? (loc ++ [path.name]) with
      | none => fs.place loc path.name (.link target)
      | some _ => fs
    | .error _ => fs
  | .remove path =>
    match fs.openDirectory cwd path.parent with
    | .ok loc => fs.erase (loc ++ [path.name])
    | .error _ => fs

end FileSystem

end MakeDeps
