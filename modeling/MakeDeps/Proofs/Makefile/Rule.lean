import MakeDeps.Makefile.Rules
import MakeDeps.Proofs.Makefile.Reading

/-!
# The rules of a Makefile

A rule takes the commands below it, up to the line that begins something else. Where the pieces of a
Makefile start with no command, its rules are those of the pieces: `Makes.append`. The words of a
rule refer to variables; what a word without a dollar sign adds to them is nothing
(`references_append`).
-/

namespace MakeDeps.Makefile

/-- What is made, what it is made from, and the commands that make it. -/
structure Rule where
  targets : List String
  prerequisites : List String
  recipe : List (List String)
  deriving DecidableEq

/-- The commands before anything else is said. -/
def commands : List Reading → List (List String)
  | .command command :: rest => command :: commands rest
  | .nothing :: rest => commands rest
  | _ => []

/-- The rules, each with the commands below it. -/
def rules : List Reading → List Rule
  | [] => []
  | .rule targets prerequisites :: rest => ⟨targets, prerequisites, commands rest⟩ :: rules rest
  | _ :: rest => rules rest

/-- Does the line give the variable a value, or add to the one it has? -/
def Reading.assigns (name : String) : Reading → Bool
  | .assignment other _ => other = name
  | .addition other _ => other = name
  | .definition other _ => other = name
  | _ => false

/-- The names of the variables that a text refers to. Two dollar signs stand for one. -/
def references : List Char → List String
  | '$' :: '$' :: rest => references rest
  | '$' :: '(' :: rest => String.ofList (rest.takeWhile (· != ')')) :: references rest
  | '$' :: '{' :: rest => String.ofList (rest.takeWhile (· != '}')) :: references rest
  | _ :: rest => references rest
  | [] => []

/-- A reference to a variable. -/
def reference (name : String) : String :=
  "$(" ++ name ++ ")"

namespace Rule

/-- The words of a rule. -/
def words (rule : Rule) : List String :=
  rule.targets ++ rule.prerequisites ++ rule.recipe.flatten

/-- The names of the variables that a rule refers to. -/
def references (rule : Rule) : List String :=
  rule.words.flatMap fun word => Makefile.references word.toList

/-- The arguments of a command, options among them, without what follows `-o`. -/
def operands : List String → List String
  | "-o" :: _ :: rest => operands rest
  | word :: rest => word :: operands rest
  | [] => []

/-- Does the rule have the compiler work on the file? -/
def Compiles (rule : Rule) (file : String) : Prop :=
  ∃ arguments, compiler :: arguments ∈ rule.recipe ∧ file ∈ operands arguments

end Rule

/-- Commands below other lines belong to those. -/
lemma commands_append {xs ys : List Reading} (h : commands ys = []) :
    commands (xs ++ ys) = commands xs := by
  induction xs with
  | nil => exact h
  | cons line xs ih =>
    cases line with
    | command command => exact congrArg (command :: ·) ih
    | nothing => exact ih
    | assignment _ _ => rfl
    | addition _ _ => rfl
    | definition _ _ => rfl
    | rule _ _ => rfl

/-- Lines that start with no command leave the rules above them as they are. -/
lemma rules_append {xs ys : List Reading} (h : commands ys = []) :
    rules (xs ++ ys) = rules xs ++ rules ys := by
  induction xs with
  | nil => rfl
  | cons line xs ih =>
    cases line with
    | rule targets prerequisites =>
      show ⟨targets, prerequisites, commands (xs ++ ys)⟩ :: rules (xs ++ ys) = _
      rw [commands_append h, ih]
      rfl
    | command _ => exact ih
    | nothing => exact ih
    | assignment _ _ => exact ih
    | addition _ _ => exact ih
    | definition _ _ => exact ih

/-- The lines have these rules, and leave no command to a rule above them. -/
def Makes (lines : List Reading) (made : List Rule) : Prop :=
  commands lines = [] ∧ rules lines = made

/-- The rules of two pieces are those of the first and then those of the second. -/
lemma Makes.append {xs ys : List Reading} {first second : List Rule} (hx : Makes xs first)
    (hy : Makes ys second) : Makes (xs ++ ys) (first ++ second) := by
  obtain ⟨hcommands, rfl⟩ := hx
  obtain ⟨hnone, rfl⟩ := hy
  exact ⟨(commands_append hnone).trans hcommands, rules_append hnone⟩

/-- Pieces with one rule each have these rules. -/
lemma Makes.flatMap {α : Type} {f : α → List Reading} {g : α → Rule} {xs : List α}
    (h : ∀ x ∈ xs, Makes (f x) [g x]) : Makes (xs.flatMap f) (xs.map g) := by
  induction xs with
  | nil => exact ⟨rfl, rfl⟩
  | cons x xs ih =>
    have hrest := ih fun y hy => h y (List.mem_cons_of_mem _ hy)
    exact (h x List.mem_cons_self).append hrest

/-- What stands in front of a reference without a dollar sign refers to nothing. -/
lemma references_append {xs : List Char} (h : '$' ∉ xs) (ys : List Char) :
    references (xs ++ ys) = references ys := by
  induction xs with
  | nil => rfl
  | cons c xs ih =>
    obtain ⟨hc, hxs⟩ := not_or.1 (mt List.mem_cons.2 h)
    rw [List.cons_append, references.eq_4, ih hxs]
    all_goals
      intro rest heq
      cases heq
      exact absurd rfl hc

/-- A text without a dollar sign refers to nothing. -/
lemma references_eq_nil {xs : List Char} (h : '$' ∉ xs) : references xs = [] := by
  have happend := references_append h []
  rwa [List.append_nil] at happend

/-- A reference refers to its variable. -/
lemma references_reference {name : String} (hdollar : '$' ∉ name.toList) (hend : ')' ∉ name.toList)
    {rest : List Char} (hrest : '$' ∉ rest) :
    references ((reference name).toList ++ rest) = [name] := by
  have hname : ∀ c ∈ name.toList, (c != ')') = true := by
    intro c hc
    refine bne_iff_ne.2 fun heq => hend (heq ▸ hc)
  have htext : (reference name).toList ++ rest = '$' :: '(' :: (name.toList ++ ')' :: rest) := by
    simp [reference]
  -- the scan goes on inside the reference, where there is no other one
  have htail : references (name.toList ++ ')' :: rest) = [] := by
    apply references_eq_nil
    simp [hdollar, hrest]
  rw [htext, references, List.takeWhile_append_of_pos hname, htail]
  simp

/-- Two dollar signs before a bracket refer to nothing. -/
example : references "$(ODIR)/$${CC}_${CFLAGS}.o".toList = ["ODIR", "CFLAGS"] := by
  decide

end MakeDeps.Makefile
