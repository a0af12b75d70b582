/-!
# Paths

A path is an anchor and the names that lead on from it. Empty names and `.` say nothing and are
dropped when a path is read; `..` stays, since what it leads to depends on the file system. Written
out, a path of such names reads back as itself.
-/

namespace MakeDeps

/-- Where a path starts. A path that begins with exactly two separators has an anchor of its
own; three or more mean the same as one. -/
inductive Anchor where
  | relative
  | root
  | doubleRoot
  deriving DecidableEq, Repr

/-- What the anchor looks like in text. -/
def Anchor.text : Anchor → String
  | .relative => ""
  | .root => "/"
  | .doubleRoot => "//"

/-- The anchor of a path text. -/
def Anchor.ofChars : List Char → Anchor
  | '/' :: '/' :: '/' :: _ => .root
  | '/' :: '/' :: _ => .doubleRoot
  | '/' :: _ => .root
  | _ => .relative

/-- A path: where it starts and the names to follow from there. -/
structure Path where
  anchor : Anchor
  parts : List String
  deriving DecidableEq, Repr

namespace Path

/-- The names between the separators of a text, empty ones included. -/
def names (s : String) : List String :=
  (s.toList.splitOn '/').map String.ofList

/-- Reads a path. -/
def ofString (s : String) : Path :=
  ⟨.ofChars s.toList, (names s).filter fun name => name ≠ "" ∧ name ≠ "."⟩

/-- The path without any name, the place where one stands. -/
def here : Path := ⟨.relative, []⟩

/-- The text of a path. -/
def text (p : Path) : String :=
  if p = here then "." else p.anchor.text ++ "/".intercalate p.parts

/-- The second path as seen from the first one; an anchored path is the same from everywhere. -/
def join (p q : Path) : Path :=
  match q.anchor with
  | .relative => ⟨p.anchor, p.parts ++ q.parts⟩
  | _ => q

/-- The last name, empty if there is none. -/
def name (p : Path) : String :=
  p.parts.getLastD ""

/-- The path without its last name. -/
def parent (p : Path) : Path :=
  ⟨p.anchor, p.parts.dropLast⟩

/-- The path with one name more. -/
def child (p : Path) (name : String) : Path :=
  ⟨p.anchor, p.parts ++ [name]⟩

/-- The path of the directory above, told from the names alone. From where one stands, and from
what is above that, only `..` leads upwards; there is nothing above the root. -/
def up (p : Path) : Path :=
  match p.parts.getLast? with
  | some name => if name = ".." then p.child ".." else p.parent
  | none => if p.anchor = .relative then p.child ".." else p

end Path

end MakeDeps
