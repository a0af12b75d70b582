import MakeDeps.FileSystem.Follow

/-!
# Settled locations

A path that leads to a directory is settled by replacing the links on it by what they link to. The
result is what the path means from then on, whatever happens to the links. A name that the system
does not let one look at, because the path so far is too long, is kept as it is, even if it is a
link.
-/

namespace MakeDeps

/-- The location that a path leads to by its names alone, from a directory. -/
def Path.locationFrom (cwd : Location) (p : Path) : Location :=
  p.parts.foldl (fun loc name => if name = ".." then loc.dropLast else loc ++ [name])
    (p.anchor.startAt cwd)

/-- The path from which a text with this anchor goes on that is read at `here`. -/
def Anchor.startAtPath (here : Path) : Anchor → Path
  | .relative => here
  | _ => ⟨.root, []⟩

namespace FileSystem

/-- Where the link leads that stands under a name in a directory, if one does and the system lets
one look at it. -/
def linkTarget? (fs : FileSystem) (cwd : Location) (folder : Path) (name : String) :
    Option String :=
  if isTooLong (folder.child name) then none
  else match fs.lookAt (folder.locationFrom cwd) name with
    | .ok (.link target) => some target
    | _ => none

/-- Follows names from a path, which has been settled, through at most `links` links. -/
def settleFrom (fs : FileSystem) (cwd : Location) (links : Nat) (here : Path) :
    List String → Path
  | [] => here
  | name :: rest =>
    if name = "" ∨ name = "." then settleFrom fs cwd links here rest
    else if name = ".." then settleFrom fs cwd links here.up rest
    else match fs.linkTarget? cwd here name with
      | none => settleFrom fs cwd links (here.child name) rest
      | some target =>
        match links with
        | 0 => settleFrom fs cwd 0 (here.child name) rest
        | links + 1 =>
          settleFrom fs cwd links ((Anchor.ofChars target.toList).startAtPath here)
            (Path.names target ++ rest)
  termination_by names => (links, names.length)

/-- The location that a path means once it is settled, for a process that works at `cwd`. -/
def settled (fs : FileSystem) (cwd : Location) (p : Path) : Location :=
  (fs.settleFrom cwd maxLinks (p.anchor.startAtPath .here) p.parts).locationFrom cwd

end FileSystem

end MakeDeps
