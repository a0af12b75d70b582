import MakeDeps.Options.Basic
import MakeDeps.Text.Cut
import MakeDeps.Text.Digit

/-!
# Arguments as tokens

Before any option is read, every argument is classified by itself: as a word, as the separator
after which everything is a word, or as an option. An option may be abbreviated as long as it is
unambiguous, and may carry a value in the same argument.
-/

namespace MakeDeps

/-- What an argument is. -/
inductive Token where
  | word (s : String)
  | separator
  /-- An option in this spelling, with what the same argument says beyond it. -/
  | option (o : Opt) (spelling : String) (value : Option String)
  | unknown (s : String)
  deriving DecidableEq

namespace Token

/-- The separator as it is written. -/
def separatorText : String := "--"

/-- The token as it was given, for those that no option takes up. -/
def text : Token → String
  | word s => s
  | separator => separatorText
  | option _ spelling value => spelling ++ value.getD ""
  | unknown s => s

/-- Is the text a negative number, such as `-1` or `-.5`? A line feed may follow it. -/
def isNegativeNumber (cs : List Char) : Bool :=
  let cs := if cs.getLast? = some '\n' then cs.dropLast else cs
  match cs with
  | '-' :: digits =>
    match Text.cutFirst '.' digits with
    | none => digits ≠ [] && digits.all Text.isDecimalDigit
    | some (whole, fraction) =>
      whole.all Text.isDecimalDigit && fraction ≠ [] && fraction.all Text.isDecimalDigit
  | _ => false

/-- Takes an argument apart at its first equals sign. -/
def splitValue (s : String) : String × Option String :=
  match Text.cutFirst '=' s.toList with
  | some (name, value) => (String.ofList name, some (String.ofList value))
  | none => (s, none)

/-- The options that an argument may abbreviate. With two dashes, any beginning of a spelling
will do; with one dash, the first letter is the option and the rest its value. -/
def candidates (s : String) : List Token :=
  match s.toList with
  | '-' :: '-' :: _ =>
    let (name, value) := splitValue s
    Opt.table.filterMap fun (spelling, o) =>
      if name.toList.isPrefixOf spelling.toList then some (.option o spelling value) else none
  | '-' :: letter :: rest =>
    Opt.table.filterMap fun (spelling, o) =>
      if spelling = String.ofList ['-', letter] then
        some (.option o spelling (some (String.ofList rest)))
      else none
  | _ => []

/-- The option that an argument means with its exact spelling, alone or before an equals sign. -/
def spelled? (s : String) : Option Token :=
  match Opt.ofSpelling? s with
  | some o => some (.option o s none)
  | none =>
    match splitValue s with
    | (name, some value) => (Opt.ofSpelling? name).map fun o => .option o name (some value)
    | (_, none) => none

/-- Classifies an argument that is not the separator. -/
def ofArgument (s : String) : Except UsageError Token :=
  match s.toList with
  | '-' :: _ :: _ =>
    match spelled? s with
    | some token => .ok token
    | none =>
      match candidates s with
      | [token] => .ok token
      | [] =>
        if isNegativeNumber s.toList || ' ' ∈ s.toList then .ok (.word s) else .ok (.unknown s)
      | several => .error (.ambiguous s (several.filterMap fun
          | .option _ spelling _ => some spelling
          | _ => none))
  | _ => .ok (.word s)

/-- Classifies the arguments. What follows the separator is words. -/
def ofArguments : List String → Except UsageError (List Token)
  | [] => .ok []
  | s :: rest =>
    if s = separatorText then .ok (separator :: rest.map word)
    else
      match ofArgument s with
      | .error e => .error e
      | .ok token => (ofArguments rest).map (token :: ·)

end Token

end MakeDeps
