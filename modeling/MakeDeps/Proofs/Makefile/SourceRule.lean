import MakeDeps.Proofs.Makefile.Names

/-!
# The rule of a source

`sourceRule` is the rule for one source: it makes an object file, or a program if the source is a
test. It refers to the variable of that source and to that of no other one
(`eq_or_mem_commonVariables`), and has the compiler work on that source and on no other one
(`compiles_sourceRule_iff`). A rule that belongs to no source does neither; `IsCommon` describes it.
-/

namespace MakeDeps.Makefile

/-- The rule that makes something of a source: its object file, or its program if it is a test. -/
def sourceRule (c : Config) (source : String) : Rule :=
  if c.isTest source then
    { targets := [testProgram source]
      prerequisites := [dependenciesRef source, testedObjects]
      recipe := [[compiler, compilerFlags, source, testedObjects, "-o", testProgram source,
        linkerFlags]] }
  else
    { targets := [objectFile source]
      prerequisites := [dependenciesRef source, "|", objectDirectoryRef]
      recipe := [[compiler, "-c", source, compilerFlags, "-o", objectFile source]] }

/-- The variables that do not belong to a source. -/
def commonVariables : List String :=
  ["CC", "CFLAGS", "LFLAGS", "ODIR", "BIN_OBJ_FILES", "ALL_BIN_OBJS_WO_MAIN"]

/-- They do not look like those that do. -/
lemma not_mem_commonVariables {name : String} (h : "_DEPS".toList <:+ name.toList) :
    name ∉ commonVariables := by
  have hsuffix : ∀ name ∈ commonVariables, ¬ "_DEPS".toList <:+ name.toList := by decide
  exact fun hmem => hsuffix name hmem h

/-- The variable of a source is none of them. -/
lemma variableName_not_mem_commonVariables (source : String) :
    variableName source ∉ commonVariables :=
  not_mem_commonVariables (deps_isSuffix source)

/-- Does the text refer to nothing that belongs to a source? -/
def IsCommonText (s : String) : Prop :=
  ∀ name ∈ references s.toList, name ∈ commonVariables

/-- Whether a text is common can be computed. -/
instance (s : String) : Decidable (IsCommonText s) := by
  unfold IsCommonText
  infer_instance

/-- A plain text refers to nothing. -/
lemma IsPlain.isCommonText {s : String} (h : IsPlain s) : IsCommonText s := by
  intro name hname
  rw [references_eq_nil h.not_mem_dollar] at hname
  cases hname

/-- Does the rule belong to no source? It refers to nothing that does, and has the compiler work on
what variables stand for only. -/
structure Rule.IsCommon (rule : Rule) : Prop where
  words : ∀ word ∈ rule.words, IsCommonText word
  operands : ∀ file, rule.Compiles file → '$' ∈ file.toList

/-- A rule that belongs to no source refers to common variables only. -/
lemma Rule.IsCommon.references {rule : Rule} (h : rule.IsCommon) :
    ∀ name ∈ rule.references, name ∈ commonVariables := by
  intro name hname
  obtain ⟨word, hword, hname⟩ := List.mem_flatMap.1 hname
  exact h.words word hword name hname

section source
variable {c : Config} {source other : String}

/-- The words of the rule of a source are the reference to its variable and common texts. -/
lemma isCommonText_of_mem_words (hplain : IsPlain source) :
    ∀ word ∈ (sourceRule c source).words,
      word = dependenciesRef source ∨ IsCommonText word := by
  have hsource := hplain.isCommonText
  unfold sourceRule Rule.words
  split
  · have hprogram : IsCommonText (testProgram source) := hplain.stripExtension.isCommonText
    simp only [List.flatten_cons, List.flatten_nil, List.cons_append, List.nil_append,
      List.append_nil, List.forall_mem_cons]
    refine ⟨.inr hprogram, .inl trivial, .inr ?_, .inr ?_, .inr ?_, .inr hsource, .inr ?_, .inr ?_,
      .inr hprogram, .inr ?_, by simp⟩
    all_goals decide
  · have hobject : IsCommonText (objectFile source) := by
      intro name hname
      rw [references_objectFile hplain] at hname
      revert name
      decide
    simp only [List.flatten_cons, List.flatten_nil, List.cons_append, List.nil_append,
      List.append_nil, List.forall_mem_cons]
    refine ⟨.inr hobject, .inl trivial, .inr ?_, .inr ?_, .inr ?_, .inr ?_, .inr hsource, .inr ?_,
      .inr ?_, .inr hobject, by simp⟩
    all_goals decide

/-- The rule of a source refers to no variable of another source. -/
lemma eq_or_mem_commonVariables (hplain : IsPlain source) {name : String}
    (h : name ∈ (sourceRule c source).references) :
    name = variableName source ∨ name ∈ commonVariables := by
  obtain ⟨word, hword, hname⟩ := List.mem_flatMap.1 h
  rcases isCommonText_of_mem_words hplain word hword with rfl | hcommon
  · rw [references_dependenciesRef] at hname
    exact .inl (List.mem_singleton.1 hname)
  · exact .inr (hcommon name hname)

/-- The rule of a source has the reference to the variable as its first prerequisite. -/
lemma exists_prerequisites (c : Config) (source : String) :
    ∃ rest, (sourceRule c source).prerequisites = dependenciesRef source :: rest := by
  unfold sourceRule
  split
  · exact ⟨_, rfl⟩
  · exact ⟨_, rfl⟩

/-- The rule of a source refers to the variable of the source. -/
lemma variableName_mem_references (c : Config) (source : String) :
    variableName source ∈ (sourceRule c source).references := by
  obtain ⟨rest, hrest⟩ := exists_prerequisites c source
  refine List.mem_flatMap.2 ⟨dependenciesRef source, ?_, ?_⟩
  · rw [Rule.words, hrest]
    simp
  · rw [references_dependenciesRef]
    exact List.mem_singleton_self _

/-- A word other than `-o` is an operand. -/
lemma operands_cons {word : String} (h : word ≠ "-o") (rest : List String) :
    Rule.operands (word :: rest) = word :: Rule.operands rest := by
  simp [Rule.operands, h]

/-- What follows `-o` is no operand. -/
lemma operands_output (target : String) (rest : List String) :
    Rule.operands ("-o" :: target :: rest) = Rule.operands rest := by
  simp [Rule.operands]

/-- No path with an extension is a reference or an option. -/
lemma ne_of_mem_dot {path word : String} (hplain : IsPlain path) (hdot : '.' ∈ path.toList)
    (hword : '$' ∈ word.toList ∨ '.' ∉ word.toList) : path ≠ word := by
  rintro rfl
  rcases hword with hdollar | hnone
  · exact hplain.not_mem_dollar hdollar
  · exact hnone hdot

/-- What the rule of a source has the compiler work on, options among it. -/
lemma compiles_sourceRule (hplain : IsPlain source) (hdot : '.' ∈ source.toList) {word : String} :
    (sourceRule c source).Compiles word ↔
      word ∈ if c.isTest source then [compilerFlags, source, testedObjects, linkerFlags]
        else ["-c", source, compilerFlags] := by
  have hoption : source ≠ "-o" := ne_of_mem_dot hplain hdot (by decide)
  unfold Rule.Compiles sourceRule
  split
  · simp only [List.mem_singleton, List.cons.injEq, true_and, exists_eq_left]
    rw [operands_cons (by decide), operands_cons hoption, operands_cons (by decide),
      operands_output, operands_cons (by decide)]
    rfl
  · simp only [List.mem_singleton, List.cons.injEq, true_and, exists_eq_left]
    rw [operands_cons (by decide), operands_cons hoption, operands_cons (by decide),
      operands_output]
    rfl

/-- The rule of a source has the compiler work on the source and on no other one. -/
lemma compiles_sourceRule_iff (hsource : IsPlain source) (hother : IsPlain other)
    (hdotSource : '.' ∈ source.toList) (hdotOther : '.' ∈ other.toList) :
    (sourceRule c source).Compiles other ↔ other = source := by
  have hcompile : other ≠ "-c" := ne_of_mem_dot hother hdotOther (by decide)
  have hflags : other ≠ compilerFlags := ne_of_mem_dot hother hdotOther (by decide)
  have hobjects : other ≠ testedObjects := ne_of_mem_dot hother hdotOther (by decide)
  have hlinker : other ≠ linkerFlags := ne_of_mem_dot hother hdotOther (by decide)
  -- other arguments are references or options, and no path looks like those
  rw [compiles_sourceRule hsource hdotSource]
  split
  · simp [hflags, hobjects, hlinker]
  · simp [hcompile, hflags]

/-- So the rules of different sources differ. -/
lemma sourceRule_inj (hsource : IsPlain source) (hother : IsPlain other)
    (hdotSource : '.' ∈ source.toList) (hdotOther : '.' ∈ other.toList) :
    sourceRule c source = sourceRule c other ↔ other = source := by
  constructor
  · intro heq
    have hself := (compiles_sourceRule_iff (c := c) hother hother hdotOther hdotOther).2 rfl
    rw [← heq] at hself
    exact (compiles_sourceRule_iff hsource hother hdotSource hdotOther).1 hself
  · rintro rfl
    rfl

end source

/-- Among images of distinct sources, those with a property that says which source they come from.
-/
lemma filter_map_eq {α β : Type} [DecidableEq α] {f : α → β} {p : β → Bool} {x : α} {xs : List α}
    (hnodup : xs.Nodup) (hp : ∀ y ∈ xs, p (f y) = true ↔ y = x) :
    (xs.map f).filter p = if x ∈ xs then [f x] else [] := by
  induction xs with
  | nil => rfl
  | cons y xs ih =>
    obtain ⟨hy, hrest⟩ := List.nodup_cons.1 hnodup
    have hhead := hp y List.mem_cons_self
    rw [List.map_cons, List.filter_cons, ih hrest fun z hz => hp z (List.mem_cons_of_mem _ hz)]
    by_cases heq : y = x
    · subst heq
      simp [hhead.2 rfl, hy]
    · have hne : ¬ p (f y) = true := fun hpy => heq (hhead.1 hpy)
      simp [hne, Ne.symm heq]

end MakeDeps.Makefile
