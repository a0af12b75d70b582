import MakeDeps.Directive
import MakeDeps.Proofs.Text.Trim

/-!
# The grammar of include directives

A directive is blanks, the word `#include`, blanks, and a target between delimiters, which is not
empty and holds none of these delimiters; anything may follow. This is how a line is read:
`ofLine_grammar`. A line has these parts in one way at most, because each of them ends at the first
character that it cannot hold: `line_injective`.
-/

namespace MakeDeps.Directive
open Text

/-- The signs around a target. -/
inductive Delimiters where
  | angleBrackets
  | quotes
  deriving DecidableEq

namespace Delimiters

/-- The character in front of a target. -/
def opening : Delimiters → Char
  | angleBrackets => '<'
  | quotes => '"'

/-- The character behind a target. -/
def closing : Delimiters → Char
  | angleBrackets => '>'
  | quotes => '"'

/-- The directive for a target between these delimiters. -/
def directive : Delimiters → String → Directive
  | angleBrackets => .systemHeader
  | quotes => .localFile

/-- Can the character stand between the delimiters? -/
def admits (d : Delimiters) (c : Char) : Bool :=
  c ≠ d.opening ∧ c ≠ d.closing

/-- A target does not reach over its end. -/
lemma admits_closing (d : Delimiters) : d.admits d.closing = false := by
  simp [admits]

/-- No target begins at a blank. -/
lemma isBlank_opening (d : Delimiters) : isBlank d.opening = false := by
  cases d <;> decide

end Delimiters

/-- The parts of a line that is a directive. -/
structure Spelling where
  delimiters : Delimiters
  before : List Char
  between : List Char
  body : List Char
  rest : List Char
  before_blank : ∀ c ∈ before, isBlank c = true
  between_blank : ∀ c ∈ between, isBlank c = true
  body_ne_nil : body ≠ []
  body_free : delimiters.opening ∉ body ∧ delimiters.closing ∉ body

namespace Spelling

/-- The line that consists of the parts. -/
def line (s : Spelling) : List Char :=
  s.before ++ (keyword ++ (s.between ++ s.delimiters.opening :: (s.body ++
    s.delimiters.closing :: s.rest)))

/-- What stands between the delimiters, without the blanks around it. -/
def target (s : Spelling) : String :=
  String.ofList (trim s.body)

/-- The directive that a spelling stands for. -/
def directive (s : Spelling) : Directive :=
  s.delimiters.directive s.target

/-- All that is between the delimiters may stand there. -/
lemma body_admitted (s : Spelling) : ∀ c ∈ s.body, s.delimiters.admits c = true := by
  intro c hc
  have hopening : c ≠ s.delimiters.opening := fun heq => s.body_free.1 (heq ▸ hc)
  have hclosing : c ≠ s.delimiters.closing := fun heq => s.body_free.2 (heq ▸ hc)
  simp [Delimiters.admits, hopening, hclosing]

end Spelling

variable {c c' : Char} {xs xs' ys ys' line : List Char} {d : Directive}

/-- A text is cut in one way at the first character that fails a test. -/
lemma append_cons_inj {p : Char → Bool} (hxs : ∀ x ∈ xs, p x = true)
    (hxs' : ∀ x ∈ xs', p x = true) (hc : p c = false) (hc' : p c' = false)
    (h : xs ++ c :: ys = xs' ++ c' :: ys') : xs = xs' ∧ c = c' ∧ ys = ys' := by
  induction xs generalizing xs' with
  | nil =>
    cases xs' with
    | nil => exact ⟨rfl, List.cons.inj h⟩
    | cons x' xs' =>
      obtain ⟨rfl, -⟩ := List.cons.inj h
      rw [hxs' c List.mem_cons_self] at hc
      cases hc
  | cons x xs ih =>
    cases xs' with
    | nil =>
      obtain ⟨rfl, -⟩ := List.cons.inj h
      rw [hxs x List.mem_cons_self] at hc'
      cases hc'
    | cons x' xs' =>
      obtain ⟨rfl, htail⟩ := List.cons.inj h
      obtain ⟨rfl, hrest⟩ := ih (fun y hy => hxs y (List.mem_cons_of_mem _ hy))
        (fun y hy => hxs' y (List.mem_cons_of_mem _ hy)) htail
      exact ⟨rfl, hrest⟩

/-- The keyword is a sign and a word. -/
lemma keyword_eq : keyword = '#' :: "include".toList := by
  decide

/-- What is read up to the closing delimiter is all that is admitted between the delimiters. -/
lemma delimited_eq_some_iff {close : Char} {stops cs body : List Char} :
    delimited close stops cs = some body ↔
      body ≠ [] ∧ (∀ c ∈ body, c ≠ close ∧ c ∉ stops) ∧ ∃ rest, cs = body ++ close :: rest := by
  unfold delimited
  constructor
  · intro h
    split at h
    · next c rest hdrop =>
      obtain ⟨⟨rfl, hne⟩, hbody⟩ := Option.ite_none_right_eq_some.1 h
      cases hbody
      refine ⟨hne, ?_, rest, ?_⟩
      · intro x hx
        simpa using List.all_eq_true.1 List.all_takeWhile x hx
      · rw [← hdrop, List.takeWhile_append_dropWhile]
    · cases h
  · rintro ⟨hne, hbody, rest, rfl⟩
    have hpos : ∀ c ∈ body, decide (c ≠ close ∧ c ∉ stops) = true :=
      fun c hc => decide_eq_true (hbody c hc)
    dsimp only
    rw [List.takeWhile_append_of_pos hpos, List.dropWhile_append_of_pos hpos]
    simp [hne]

/-- After its first word, a directive goes on with a target between delimiters. -/
lemma ofRest_eq_some_iff {cs : List Char} : ofRest cs = some d ↔
    ∃ (delimiters : Delimiters) (body rest : List Char),
      cs = delimiters.opening :: (body ++ delimiters.closing :: rest) ∧ body ≠ [] ∧
      (delimiters.opening ∉ body ∧ delimiters.closing ∉ body) ∧
      d = delimiters.directive (String.ofList (trim body)) := by
  constructor
  · intro h
    unfold ofRest at h
    split at h
    · obtain ⟨body, hbody, rfl⟩ := Option.map_eq_some_iff.1 h
      obtain ⟨hne, hfree, rest, rfl⟩ := delimited_eq_some_iff.1 hbody
      refine ⟨.angleBrackets, body, rest, rfl, hne, ⟨?_, ?_⟩, rfl⟩
      · exact fun hmem => (hfree '<' hmem).2 List.mem_cons_self
      · exact fun hmem => (hfree '>' hmem).1 rfl
    · obtain ⟨body, hbody, rfl⟩ := Option.map_eq_some_iff.1 h
      obtain ⟨hne, hfree, rest, rfl⟩ := delimited_eq_some_iff.1 hbody
      have hquote : '"' ∉ body := fun hmem => (hfree '"' hmem).1 rfl
      exact ⟨.quotes, body, rest, rfl, hne, ⟨hquote, hquote⟩, rfl⟩
    · cases h
  · rintro ⟨delimiters, body, rest, rfl, hne, ⟨hopening, hclosing⟩, rfl⟩
    cases delimiters with
    | angleBrackets =>
      have hbody : delimited '>' ['<'] (body ++ '>' :: rest) = some body := by
        refine delimited_eq_some_iff.2 ⟨hne, fun c hc => ⟨?_, ?_⟩, rest, rfl⟩
        · rintro rfl
          exact hclosing hc
        · rw [List.mem_singleton]
          rintro rfl
          exact hopening hc
      simp [ofRest, Delimiters.opening, Delimiters.closing, Delimiters.directive, hbody]
    | quotes =>
      have hbody : delimited '"' [] (body ++ '"' :: rest) = some body := by
        refine delimited_eq_some_iff.2 ⟨hne, fun c hc => ⟨?_, List.not_mem_nil⟩, rest, rfl⟩
        rintro rfl
        exact hclosing hc
      simp [ofRest, Delimiters.opening, Delimiters.closing, Delimiters.directive, hbody]

/-- A line that is made of the parts of a directive is read as that directive. -/
lemma ofLine_line (s : Spelling) : ofLine s.line = some s.directive := by
  have hline : trimLeft s.line = keyword ++ (s.between ++ s.delimiters.opening :: (s.body ++
      s.delimiters.closing :: s.rest)) := by
    rw [Spelling.line, keyword_eq, List.cons_append]
    exact trimLeft_append_cons s.before_blank (by decide)
  have hrest : trimLeft (s.between ++ s.delimiters.opening :: (s.body ++
      s.delimiters.closing :: s.rest)) =
        s.delimiters.opening :: (s.body ++ s.delimiters.closing :: s.rest) :=
    trimLeft_append_cons s.between_blank s.delimiters.isBlank_opening
  rw [ofLine, hline, dropStart?_eq_some_iff.2 rfl]
  dsimp only
  rw [hrest]
  exact ofRest_eq_some_iff.2 ⟨_, _, _, rfl, s.body_ne_nil, s.body_free, rfl⟩

/-- A line that is read as a directive consists of the parts of one. -/
lemma exists_spelling (h : ofLine line = some d) :
    ∃ s : Spelling, s.line = line ∧ s.directive = d := by
  unfold ofLine at h
  split at h
  · next rest hdrop =>
    obtain ⟨before, hline, hbefore⟩ := exists_blanks_trimLeft line
    obtain ⟨between, hrest, hbetween⟩ := exists_blanks_trimLeft rest
    obtain ⟨delimiters, body, tail, htrim, hne, hfree, rfl⟩ := ofRest_eq_some_iff.1 h
    refine ⟨⟨delimiters, before, between, body, tail, hbefore, hbetween, hne, hfree⟩, ?_, rfl⟩
    rw [Spelling.line, ← htrim, ← hrest, dropStart?_eq_some_iff.1 hdrop, ← hline]
  · cases h

/-- A line is read as a directive if, and only if, it is a spelling of that directive. -/
lemma ofLine_eq_some_iff :
    ofLine line = some d ↔ ∃ s : Spelling, s.line = line ∧ s.directive = d := by
  refine ⟨exists_spelling, ?_⟩
  rintro ⟨s, rfl, rfl⟩
  exact ofLine_line s

/-- A line is made of parts in one way at most. -/
lemma line_injective : Function.Injective Spelling.line := by
  intro s s' h
  have hsign : isBlank '#' = false := by decide
  rw [Spelling.line, Spelling.line, keyword_eq, List.cons_append, List.cons_append] at h
  obtain ⟨hbefore, -, h⟩ := append_cons_inj s.before_blank s'.before_blank hsign hsign h
  obtain ⟨hbetween, hopening, h⟩ := append_cons_inj s.between_blank s'.between_blank
    s.delimiters.isBlank_opening s'.delimiters.isBlank_opening (List.append_cancel_left h)
  have hdelimiters : s.delimiters = s'.delimiters := by
    revert hopening
    cases s.delimiters <;> cases s'.delimiters <;> decide
  have hbody := s'.body_admitted
  rw [← hdelimiters] at h hbody
  obtain ⟨hbody, -, hrest⟩ := append_cons_inj s.body_admitted hbody
    s.delimiters.admits_closing s.delimiters.admits_closing h
  cases s
  cases s'
  simp_all

/-- A spelling is of a local file if its target stands in quotes. -/
lemma directive_eq_localFile_iff {s : Spelling} {target : String} :
    s.directive = .localFile target ↔ s.delimiters = .quotes ∧ s.target = target := by
  unfold Spelling.directive
  cases s.delimiters <;> simp [Delimiters.directive]

/-- A spelling is of a system header if its target stands in angle brackets. -/
lemma directive_eq_systemHeader_iff {s : Spelling} {target : String} :
    s.directive = .systemHeader target ↔ s.delimiters = .angleBrackets ∧ s.target = target := by
  unfold Spelling.directive
  cases s.delimiters <;> simp [Delimiters.directive]

/-- A line is a local include of a target exactly if it consists of the parts of a directive, with
this target between quotes, and it asks for a header of the system exactly if the target stands
between angle brackets; other lines are no directives. A line has such parts in one way at most, and
what follows the closing delimiter makes no difference. -/
theorem ofLine_grammar :
    (∀ line target, ofLine line = some (.localFile target) ↔
      ∃ s : Spelling, s.line = line ∧ s.delimiters = .quotes ∧ s.target = target) ∧
    (∀ line target, ofLine line = some (.systemHeader target) ↔
      ∃ s : Spelling, s.line = line ∧ s.delimiters = .angleBrackets ∧ s.target = target) ∧
    (∀ line, ofLine line = none ↔ ∀ s : Spelling, s.line ≠ line) ∧
    Function.Injective Spelling.line ∧
    ∀ (s : Spelling) (rest : List Char), ofLine { s with rest }.line = ofLine s.line := by
  refine ⟨fun line target => ?_, fun line target => ?_, fun line => ?_, line_injective,
    fun s rest => ?_⟩
  · simp only [ofLine_eq_some_iff, directive_eq_localFile_iff]
  · simp only [ofLine_eq_some_iff, directive_eq_systemHeader_iff]
  · constructor
    · rintro hnone s rfl
      rw [ofLine_line] at hnone
      cases hnone
    · intro hnot
      refine Option.eq_none_iff_forall_ne_some.2 fun d hsome => ?_
      obtain ⟨s, hline, -⟩ := exists_spelling hsome
      exact hnot s hline
  · rw [ofLine_line, ofLine_line]
    rfl

end MakeDeps.Directive
