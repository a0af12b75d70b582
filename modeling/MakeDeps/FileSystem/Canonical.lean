import MakeDeps.FileSystem.Follow

/-!
# Canonical locations

The canonical location of a path has no links on the way. Unlike the walk of the system, this
resolution is textual about `..`: it drops the last name found so far, also where that is a file.
Everything else has to exist, under an absolute path that is not too long for the system.

There is no bound on the number of links, only on how many are being resolved within one another;
this bound, `nesting`, is not the same everywhere.
A link on the way is resolved on its own before the rest of the names, and where it leads is
remembered, so that no link is resolved twice, however often the paths mention it. A link that
is needed for finding out where it leads itself leads nowhere. The links that have not been
resolved yet are kept in a list, which shrinks with every link; that is why the resolution ends.
-/

namespace MakeDeps.FileSystem

/-- A link that is being resolved, and the names to follow once it is known where it leads. -/
structure Detour where
  link : Location
  rest : List String

/-- The steps that pending detours stand for. -/
def pendingSteps : List Detour → Nat
  | [] => 0
  | detour :: detours => detour.rest.length + 1 + pendingSteps detours

/-- Follows names from a location to the end of all detours, of which there may be `nesting` at a
time. The links in `fresh` have not been met so far, and `known` tells where those lead that have
been resolved. -/
def canonicalFrom (fs : FileSystem) (nesting : Nat) (fresh : List Location)
    (known : List (Location × Location)) (here : Location) :
    List Detour → List String → Except Fault Location
  | [], [] => .ok here
  | detour :: detours, [] =>
    canonicalFrom fs nesting fresh ((detour.link, here) :: known) here detours detour.rest
  | detours, name :: rest =>
    if name = "" ∨ name = "." then canonicalFrom fs nesting fresh known here detours rest
    else if name = ".." then canonicalFrom fs nesting fresh known here.dropLast detours rest
    else if '\x00' ∈ name.toList then .error .nul
    else if isTooLong ⟨.root, here ++ [name]⟩ then .error (.refused .nameTooLong)
    else match fs.lookAt here name with
      | .error cause => .error (.refused cause)
      | .ok (.link target) =>
        match known.lookup (here ++ [name]) with
        | some there => canonicalFrom fs nesting fresh known there detours rest
        | none =>
          if here ++ [name] ∈ fresh ∧ detours.length < nesting then
            canonicalFrom fs nesting (fresh.erase (here ++ [name])) known
              ((Anchor.ofChars target.toList).startAt here)
              (⟨here ++ [name], rest⟩ :: detours) (Path.names target)
          else .error (.refused .tooManyLinks)
      | .ok _ => canonicalFrom fs nesting fresh known (here ++ [name]) detours rest
  termination_by detours names => (fresh.length, pendingSteps detours + names.length)
  decreasing_by
    · exact Prod.Lex.right _ (by simp [pendingSteps]; omega)
    · exact Prod.Lex.right _ (by simp)
    · exact Prod.Lex.right _ (by simp)
    · exact Prod.Lex.right _ (by simp)
    · rename_i hfresh
      have := List.length_pos_of_mem hfresh.1
      have := List.length_erase_of_mem hfresh.1
      exact Prod.Lex.left _ _ (by omega)
    · exact Prod.Lex.right _ (by simp)

/-- The canonical location of a path, for a process that works at `cwd`. -/
def canonical (fs : FileSystem) (nesting : Nat) (cwd : Location) (p : Path) :
    Except Fault Location :=
  fs.canonicalFrom nesting fs.links [] (p.anchor.startAt cwd) [] p.parts

end MakeDeps.FileSystem
