import MakeDeps.Config
import MakeDeps.FileSystem.Error
import MakeDeps.Library
import MakeDeps.Path.Basic
import MakeDeps.Text.Encoding

/-!
# Failures

Everything that can end a run before its Makefile is complete, each cause with what is said about
it.
-/

namespace MakeDeps

/-- Why the dependencies of a project cannot be found. -/
inductive ResolveError where
  | noRoot (root : Path)
  | missing (target includedFrom : String)
  | outside (target includedFrom : String)
  | unreadable (path : String) (cause : Cause)
  deriving DecidableEq

/-- The failure in words. -/
def ResolveError.message : ResolveError → String
  | noRoot root => "project root is not a directory: " ++ root.text
  | missing target includedFrom => includedFrom ++ ": included file not found: " ++ target
  | outside target includedFrom =>
    includedFrom ++ ": included file is outside the project root: " ++ target
  | unreadable path cause => "cannot read " ++ path ++ ": " ++ cause.reason

/-- Why no Makefile can be generated. -/
inductive GenerateError where
  | unresolved (generator : String)
  | nameClash (first second name : String)
  | reservedName (test program : String)
  deriving DecidableEq

/-- The failure in words. -/
def GenerateError.message : GenerateError → String
  | unresolved generator =>
    generator ++ ": project has not been resolved; call resolve() first"
  | nameClash first second name =>
    first ++ " and " ++ second ++ " both map to " ++ name ++ "; rename one of them"
  | reservedName test program =>
    "test " ++ test ++ " would build " ++ Text.quote program ++
      ", which is already a target of the generated Makefile"

/-- An option whose value was taken away and is needed all the same. -/
inductive MissingValue where
  | link
  | directory
  | output
  deriving DecidableEq, Repr

/-- The failure in words. -/
def MissingValue.message : MissingValue → String
  | link => "'list' object has no attribute 'partition'"
  | directory => "expected str, bytes or os.PathLike object, not list"
  | output => "unsupported operand type(s) for /: 'PosixPath' and 'list'"

/-- Whatever can go wrong. -/
inductive Failure where
  | config (e : ConfigError)
  | badPair (spec : String)
  | resolve (e : ResolveError)
  | generate (e : GenerateError)
  | access (e : AccessError)
  /-- A path text with a NUL character was handed to the system. -/
  | nul
  /-- Calls were nested too deeply. -/
  | tooDeep
  /-- A text cannot be written in the encoding of the file. -/
  | unencodable (e : Text.EncodingError)
  /-- A bare generator has nothing to generate with. -/
  | notImplemented
  | noValue (missing : MissingValue)
  deriving DecidableEq

namespace Failure

/-- The failure in words. -/
def message : Failure → String
  | config e => e.message
  | badPair spec => badPairMessage spec
  | resolve e => e.message
  | generate e => e.message
  | access e => e.message
  | nul => Fault.nulMessage
  | tooDeep => "maximum recursion depth exceeded"
  | unencodable e => e.message
  | notImplemented => ""
  | noValue missing => missing.message

/-- Is the failure one that a run reports and ends with? The others are not meant to occur, and
nothing catches them. -/
def isReported : Failure → Bool
  | config _ => true
  | badPair _ => true
  | resolve _ => true
  | generate _ => true
  | access _ => true
  | nul => false
  | tooDeep => false
  | unencodable _ => false
  | notImplemented => false
  | noValue _ => false

/-- The failure of an access by the path with this text. -/
def ofFault (path : String) : Fault → Failure
  | .nul => .nul
  | .refused cause => .access ⟨cause, path⟩

end Failure

end MakeDeps
