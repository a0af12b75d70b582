import MakeDeps.Proofs.Directive.Grammar

/-!
# Directives written back

A directive can be written in a plain form, with one space in front of the delimiters and nothing
around the target. The plain form is read as that directive again, with one exception:
`ofLine_plain`. What stands between the delimiters must not be empty, but blanks are taken off it
only afterwards, so a line that has only blanks there is a directive without a target
(`target_eq_empty_iff`). Its plain form has nothing between the delimiters and is no directive.
-/

namespace MakeDeps.Directive
open Text

/-- The name of the header, or the target that is included. -/
def target : Directive → String
  | systemHeader name => name
  | localFile target => target

/-- The line for a directive that has nothing in it but what it needs. -/
def plain : Directive → List Char
  | systemHeader name => keyword ++ ' ' :: '<' :: (name.toList ++ ['>'])
  | localFile target => keyword ++ ' ' :: '"' :: (target.toList ++ ['"'])

variable {line : List Char} {d : Directive}

/-- The target of a directive is the given one. -/
lemma target_directive (delimiters : Delimiters) (target : String) :
    (delimiters.directive target).target = target := by
  cases delimiters <;> rfl

/-- A directive is written plainly with its target between its delimiters. -/
lemma plain_directive (delimiters : Delimiters) (target : String) :
    (delimiters.directive target).plain =
      keyword ++ ' ' :: delimiters.opening :: (target.toList ++ [delimiters.closing]) := by
  cases delimiters <;> rfl

namespace Spelling

/-- Nothing is left of the target exactly if there are only blanks between the delimiters. -/
lemma target_eq_empty_iff (s : Spelling) : s.target = "" ↔ ∀ c ∈ s.body, isBlank c = true := by
  rw [target, String.ofList_eq_empty_iff, trim_eq_nil_iff]

/-- The parts of the plain form, if there is something to write between the delimiters. -/
def trimmed (s : Spelling) (h : s.target ≠ "") : Spelling where
  delimiters := s.delimiters
  before := []
  between := [' ']
  body := trim s.body
  rest := []
  before_blank := by simp
  between_blank := by
    intro c hc
    rw [List.mem_singleton.1 hc]
    decide
  body_ne_nil := fun hnil => h (by rw [target, hnil])
  body_free := ⟨mt mem_of_mem_trim s.body_free.1, mt mem_of_mem_trim s.body_free.2⟩

/-- A trimmed spelling is the plain line of its directive. -/
lemma line_trimmed (s : Spelling) (h : s.target ≠ "") : (s.trimmed h).line = s.directive.plain := by
  rw [directive, plain_directive, target, String.toList_ofList]
  rfl

/-- A trimmed spelling stands for the same directive. -/
lemma directive_trimmed (s : Spelling) (h : s.target ≠ "") :
    (s.trimmed h).directive = s.directive := by
  rw [directive, directive, target, target]
  show s.delimiters.directive (String.ofList (trim (trim s.body))) = _
  rw [trim_trim]

end Spelling

/-- A directive without a target is not read back from its plain form. -/
lemma ofLine_plain_of_empty (h : d.target = "") : ofLine d.plain = none := by
  cases d with
  | systemHeader name =>
    cases h
    decide
  | localFile target =>
    cases h
    decide

/-- Any other directive is read back from its plain form. -/
lemma ofLine_plain (h : ofLine line = some d) (hne : d.target ≠ "") : ofLine d.plain = some d := by
  obtain ⟨s, rfl, rfl⟩ := exists_spelling h
  rw [Spelling.directive, target_directive] at hne
  rw [← s.line_trimmed hne, ofLine_line, s.directive_trimmed]

/-- A line is a directive without a target exactly if it has only blanks between the delimiters. -/
lemma target_eq_empty_iff (h : ofLine line = some d) :
    d.target = "" ↔ ∃ s : Spelling, s.line = line ∧ ∀ c ∈ s.body, isBlank c = true := by
  obtain ⟨s, rfl, rfl⟩ := exists_spelling h
  rw [Spelling.directive, target_directive, s.target_eq_empty_iff]
  constructor
  · exact fun hblank => ⟨s, rfl, hblank⟩
  · rintro ⟨s', heq, hblank⟩
    rwa [line_injective heq] at hblank

end MakeDeps.Directive
