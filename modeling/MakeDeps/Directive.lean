import MakeDeps.Text.Blank
import MakeDeps.Text.Cut
import MakeDeps.Text.Lines
import MakeDeps.Text.Utf8

/-!
# Include directives

A line that starts with `#include`, blanks aside, and goes on with a name between angle brackets
or double quotes is a directive. What follows the closing delimiter does not matter.
-/

namespace MakeDeps

/-- What a line includes: a header of the system, or a file of the project. -/
inductive Directive where
  | systemHeader (name : String)
  | localFile (target : String)
  deriving DecidableEq, Repr

namespace Directive

/-- The word that a directive starts with. -/
def keyword : List Char := "#include".toList

/-- The text up to `close`, if it is not empty and `close` comes before any character of `stops`. -/
def delimited (close : Char) (stops : List Char) (cs : List Char) : Option (List Char) :=
  let body := cs.takeWhile fun c => c ≠ close ∧ c ∉ stops
  match cs.dropWhile fun c => c ≠ close ∧ c ∉ stops with
  | c :: _ => if c = close ∧ body ≠ [] then some body else none
  | [] => none

/-- Reads what follows the word of a directive. -/
def ofRest : List Char → Option Directive
  | '<' :: cs =>
    (delimited '>' ['<'] cs).map fun body => .systemHeader (String.ofList (Text.trim body))
  | '"' :: cs => (delimited '"' [] cs).map fun body => .localFile (String.ofList (Text.trim body))
  | _ => none

/-- The directive on a line, if there is one. -/
def ofLine (line : List Char) : Option Directive :=
  match Text.dropStart? keyword (Text.trimLeft line) with
  | some rest => ofRest (Text.trimLeft rest)
  | none => none

/-- The directives in a file, line by line. -/
def ofContent (content : List UInt8) : List Directive :=
  (Text.lines (Text.Utf8.decode content)).filterMap ofLine

end Directive

end MakeDeps
