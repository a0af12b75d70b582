import MakeDeps.Failure

/-!
# The log

What a run tells about itself is a list of events. An event knows how important it is, which part
of the program it comes from, and its words; the verbosity decides which events are shown and how.
-/

namespace MakeDeps

/-- How important an event is, in increasing order. -/
inductive Level where
  | debug
  | info
  | warning
  | error
  deriving DecidableEq, Repr

/-- The level as it is shown. -/
def Level.text : Level → String
  | debug => "DEBUG"
  | info => "INFO"
  | warning => "WARNING"
  | error => "ERROR"

/-- The place of a level in the order. -/
def Level.rank : Level → Nat
  | debug => 10
  | info => 20
  | warning => 30
  | error => 40

/-- Something that a run tells about. -/
inductive Event where
  | scanning (path : String)
  | needsLibrary (path header library : String)
  | resolved (files : Nat) (libraries : List String)
  | programSources (paths : List String)
  | testSources (paths : List String)
  | generated (path : Path)
  | failed (failure : Failure)
  deriving DecidableEq

namespace Event

/-- How important the event is. -/
def level : Event → Level
  | scanning _ => .debug
  | needsLibrary _ _ _ => .debug
  | resolved _ _ => .info
  | programSources _ => .debug
  | testSources _ => .debug
  | generated _ => .info
  | failed _ => .error

/-- The part of the program that the event comes from. -/
def origin : Event → String
  | scanning _ => "makegen.core.resolver"
  | needsLibrary _ _ _ => "makegen.core.resolver"
  | resolved _ _ => "makegen.core.resolver"
  | programSources _ => "makegen.generators.makefile"
  | testSources _ => "makegen.generators.makefile"
  | generated _ => "makegen.generators.makefile"
  | failed _ => "makegen"

/-- The event in words. -/
def message : Event → String
  | scanning path => "Scanning " ++ path
  | needsLibrary path header library =>
    path ++ ": <" ++ header ++ "> needs -l" ++ library
  | resolved files libraries =>
    "Resolved " ++ toString files ++ " files, libraries: " ++
      (if libraries.isEmpty then "(none)" else " ".intercalate libraries)
  | programSources paths => "Program sources: " ++ Text.quoteList paths
  | testSources paths => "Test sources: " ++ Text.quoteList paths
  | generated path => "Generated " ++ path.text
  | failed failure => failure.message

end Event

/-- How much of the log is shown. -/
inductive Verbosity where
  | quiet
  | verbose
  | debug
  deriving DecidableEq, Repr

namespace Verbosity

/-- The least important level that is shown. -/
def threshold : Verbosity → Level
  | quiet => .warning
  | verbose => .info
  | debug => .debug

/-- The line that shows an event; where every event is shown, the line names its origin too. -/
def line (v : Verbosity) (e : Event) : String :=
  match v with
  | debug => e.level.text ++ ": " ++ e.origin ++ ": " ++ e.message
  | _ => e.level.text ++ ": " ++ e.message

/-- The log as it is shown. -/
def render (v : Verbosity) (log : List Event) : String :=
  String.join ((log.filter fun e => v.threshold.rank ≤ e.level.rank).map fun e => v.line e ++ "\n")

end Verbosity

/-- What an operation that can fail leaves behind: its result, and what it told on the way. -/
structure Outcome (α : Type) where
  result : Except Failure α
  log : List Event

end MakeDeps
