import MakeDeps.Text.Blank

/-!
# Lines of a Makefile

A Makefile is a sequence of lines: assignments, rules with their recipes, and empty lines. A line
holds words; `Line.text` writes it out.
-/

namespace MakeDeps.Makefile

/-- A line of a Makefile. -/
inductive Line where
  | blank
  /-- Gives a variable its value. -/
  | assign (name : String) (value : List String)
  /-- Gives a variable its value, which may be empty. -/
  | assignTrimmed (name : String) (value : List String)
  /-- Adds words to the value of a variable. -/
  | append (name : String) (value : List String)
  /-- Begins a rule. The prerequisites after the bar need only exist. -/
  | rule (target : String) (prerequisites ordered : List String)
  /-- A command of the rule above it. -/
  | recipe (command : List String)
  deriving DecidableEq

namespace Line

/-- Words with a space between any two. -/
def words (items : List String) : String :=
  " ".intercalate items

/-- The line without the blanks at its end. -/
def trimmed (s : String) : String :=
  String.ofList (Text.trimRight s.toList)

/-- The line as it is written. -/
def text : Line → String
  | blank => ""
  | assign name value => name ++ " := " ++ words value
  | assignTrimmed name value => trimmed (name ++ " := " ++ words value)
  | append name value => name ++ " += " ++ words value
  | rule target prerequisites ordered =>
    target ++ ":" ++ String.join (prerequisites.map (" " ++ ·)) ++
      (if ordered.isEmpty then "" else " | " ++ words ordered)
  | recipe command => "\t" ++ words command

end Line

/-- The text of a Makefile: every line ends in a line feed. -/
def print (lines : List Line) : String :=
  String.join (lines.map fun line => line.text ++ "\n")

end MakeDeps.Makefile
