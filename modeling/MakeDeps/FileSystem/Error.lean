import MakeDeps.Text.Quoted

/-!
# Why an access fails

The causes for which the system refuses an access by path, with their numbers and words. A path
text that holds a NUL character never reaches the system, so it is a fault of its own.
-/

namespace MakeDeps

/-- Why the system refuses an access. -/
inductive Cause where
  | notFound
  | notDirectory
  | isDirectory
  | nameTooLong
  | tooManyLinks
  deriving DecidableEq, Repr

namespace Cause

/-- The number of the cause. -/
def number : Cause → Nat
  | notFound => 2
  | notDirectory => 20
  | isDirectory => 21
  | nameTooLong => 36
  | tooManyLinks => 40

/-- The cause in words. -/
def reason : Cause → String
  | notFound => "No such file or directory"
  | notDirectory => "Not a directory"
  | isDirectory => "Is a directory"
  | nameTooLong => "File name too long"
  | tooManyLinks => "Too many levels of symbolic links"

end Cause

/-- An access that the system refused, with the path text it was asked for. -/
structure AccessError where
  cause : Cause
  path : String
  deriving DecidableEq, Repr

/-- The refusal in words. -/
def AccessError.message (e : AccessError) : String :=
  "[Errno " ++ toString e.cause.number ++ "] " ++ e.cause.reason ++ ": " ++ Text.quote e.path

/-- Why an access by path fails: the text is no path at all, or the system refuses. -/
inductive Fault where
  | nul
  | refused (cause : Cause)
  deriving DecidableEq, Repr

/-- What is said of a path text that holds a NUL character. -/
def Fault.nulMessage : String := "embedded null byte"

end MakeDeps
