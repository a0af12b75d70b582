import MakeDeps.Config
import MakeDeps.Options.Token

/-!
# Reading a command line

The tokens of a command line are read from left to right. An option takes its values from its own
argument or from the words after it; flags may be bundled in one argument. What no option takes up
is kept, and refused at the end, after it is clear that no required option is missing.
-/

namespace MakeDeps.Options

/-- What has been read so far. -/
structure Draft where
  extension : Option Value
  binary : Option Value
  compiler : Option Value
  std : Option Value
  opt : Value
  tests : List String
  entry : Option Value
  links : List Value
  directory : Value
  output : Value
  verbose : Bool
  debug : Bool
  /-- What no option took up. -/
  extras : List String

/-- What holds unless the command line says otherwise. -/
def Draft.start : Draft where
  extension := none
  binary := none
  compiler := none
  std := none
  opt := .text Config.defaultOptimization
  tests := Config.defaultTests
  entry := none
  links := []
  directory := .text "."
  output := .text "Makefile"
  verbose := false
  debug := false
  extras := []

/-- The values that are left when the first separator among them is taken away. -/
def withoutSeparator (values : List String) : List String :=
  values.erase Token.separatorText

/-- The value of an option that takes one. -/
def valueOf (values : List String) : Value :=
  match withoutSeparator values with
  | s :: _ => .text s
  | [] => .nothing

/-- Does what an option asks for, given its values. -/
def Draft.take (d : Draft) (o : Opt) (values : List String) : Except Stop Draft :=
  match o with
  | .help => .error .help
  | .version => .error .version
  | .extension => .ok { d with extension := some (valueOf values) }
  | .binary => .ok { d with binary := some (valueOf values) }
  | .compiler => .ok { d with compiler := some (valueOf values) }
  | .std => .ok { d with std := some (valueOf values) }
  | .opt => .ok { d with opt := valueOf values }
  | .tests => .ok { d with tests := withoutSeparator values }
  | .entry => .ok { d with entry := some (valueOf values) }
  | .link => .ok { d with links := d.links ++ [valueOf values] }
  | .directory => .ok { d with directory := valueOf values }
  | .output => .ok { d with output := valueOf values }
  | .verbose => .ok { d with verbose := true }
  | .debug => .ok { d with debug := true }

/-- Does what flags ask for, one after the other. -/
def Draft.takeFlags (d : Draft) : List Opt → Except Stop Draft
  | [] => .ok d
  | o :: os =>
    match d.take o [] with
    | .error stop => .error stop
    | .ok d => d.takeFlags os

/-- What one argument says: flags, then an option with what the argument gives it as value. -/
structure Bundle where
  flags : List Opt
  last : Opt
  value : Option String

/-- Takes a bundle of options apart. What follows a flag written with one dash is another such
option; what follows an option that takes values is its value. -/
def unbundle (o : Opt) (short : Bool) : List Char → Except UsageError Bundle
  | [] =>
    if o.arity = .none then .error (.ignoredValue o "") else .ok ⟨[], o, some ""⟩
  | c :: cs =>
    if o.arity = .none then
      match short, Opt.ofSpelling? (String.ofList ['-', c]) with
      | true, some next =>
        if cs = [] then .ok ⟨[o], next, none⟩
        else (unbundle next true cs).map fun b => { b with flags := o :: b.flags }
      | _, _ => .error (.ignoredValue o (String.ofList (c :: cs)))
    else .ok ⟨[], o, some (String.ofList (c :: cs))⟩

/-- What an option token says. -/
def bundleOf (o : Opt) (spelling : String) : Option String → Except UsageError Bundle
  | none => .ok ⟨[], o, none⟩
  | some value => unbundle o (!"--".toList.isPrefixOf spelling.toList) value.toList

/-- The words that tokens start with. -/
def leadingWords : List Token → List String
  | .word s :: tokens => s :: leadingWords tokens
  | _ => []

/-- The values of the last option of a bundle: its own value, or words from the tokens after it,
as many as it takes. -/
def valuesOf (b : Bundle) (tokens : List Token) : Except UsageError (List String) :=
  match b.value, b.last.arity with
  | some value, _ => .ok [value]
  | none, .none => .ok []
  | none, .one =>
    match leadingWords tokens with
    | s :: _ => .ok [s]
    | [] => .error (.expectedOne b.last)
  | none, .some =>
    match leadingWords tokens with
    | [] => .error (.expectedSome b.last)
    | words => .ok words

/-- How many of the tokens after a bundle its values take up. -/
def consumed (b : Bundle) (values : List String) : Nat :=
  if b.value.isSome then 0 else values.length

/-- Reads tokens from left to right. -/
def readTokens (d : Draft) : List Token → Except Stop Draft
  | [] => .ok d
  | .option o spelling value :: tokens =>
    match bundleOf o spelling value with
    | .error e => .error (.usage e)
    | .ok b =>
      match valuesOf b tokens with
      | .error e => .error (.usage e)
      | .ok values =>
        match d.takeFlags b.flags with
        | .error stop => .error stop
        | .ok d =>
          match d.take b.last values with
          | .error stop => .error stop
          | .ok d => readTokens d (tokens.drop (consumed b values))
  | token :: tokens => readTokens { d with extras := d.extras ++ [token.text] } tokens
  termination_by tokens => tokens.length

/-- The required options that are missing. -/
def Draft.missing (d : Draft) : List Opt :=
  (if d.extension.isNone then [.extension] else []) ++
    (if d.binary.isNone then [.binary] else [])

/-- The arguments, if nothing is missing and nothing is left over. -/
def Draft.finish (d : Draft) : Except UsageError Arguments :=
  match d.extension, d.binary with
  | some extension, some binary =>
    if d.extras = [] then
      .ok { d with extension, binary }
    else .error (.unrecognized d.extras)
  | _, _ => .error (.missing d.missing)

/-- Reads a command line. -/
def parse (arguments : List String) : Except Stop Arguments :=
  match Token.ofArguments arguments with
  | .error e => .error (.usage e)
  | .ok tokens =>
    match readTokens .start tokens with
    | .error stop => .error stop
    | .ok d => d.finish.mapError .usage

end MakeDeps.Options
