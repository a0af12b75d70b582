import MakeDeps.Proofs.Makefile.Readable
import MakeDeps.Proofs.Makefile.SourceRule

/-!
# What a rendered Makefile says

The rules of a Makefile that can be read are those of the sources and some common ones:
`rules_lines`. So exactly one of them refers to the variable of a source (`filter_references_lines`)
and has the compiler work on it (`compiles_lines_iff`). The variable is assigned once, with the
closure of the source as its value: `filter_assigns_lines`.
-/

namespace MakeDeps.Makefile

variable {g : Graph} {c : Config} {source : String}

/-- A text that is rendered is printed from the lines, and the sources have been let pass. -/
lemma of_render {text : String} (h : render g c = .ok text) :
    check (g.sources c.extension) (testSources g c) c = .ok () ∧ text = print (lines g c) := by
  unfold render at h
  split at h
  · cases h
  · next hcheck =>
    cases h
    exact ⟨hcheck, rfl⟩

section rules

/-- The rules at the beginning: for everything, for the directory of objects, and for the program.
-/
def openingRules (c : Config) : List Rule :=
  [ { targets := ["all"], prerequisites := ["bin"], recipe := [] },
    { targets := [objectDirectoryRef]
      prerequisites := []
      recipe := [["@mkdir", "-p", objectDirectoryRef]] },
    { targets := ["bin"]
      prerequisites := [objectDirectoryRef, programObjects]
      recipe := [[compiler, programObjects, "-o"] ++ Text.words c.program.toList ++
        [linkerFlags]] } ]

/-- The rule for all tests, if there are any. -/
def testsRules (tests : List String) : List Rule :=
  if tests.isEmpty then []
  else [{ targets := ["tests"], prerequisites := tests.map testProgram, recipe := [] }]

/-- The rules at the end: what is no file, and how to clean up. -/
def closingRules (tests : List String) (c : Config) : List Rule :=
  [ { targets := [".PHONY"]
      prerequisites := ["all", "bin"] ++ (if tests.isEmpty then [] else ["tests"]) ++ ["clean"]
      recipe := [] },
    { targets := ["clean"]
      prerequisites := []
      recipe := [["rm", "-rf", objectDirectoryRef] ++ Text.words c.program.toList ++
        tests.map testProgram] } ]

/-- The lines of the settings make no rule. -/
lemma makes_toolchainLines (g : Graph) (c : Config) :
    Makes ((toolchainLines g c).map Line.reading) [] :=
  ⟨rfl, rfl⟩

/-- The lines of the variables make no rule. -/
lemma makes_variableLines (g : Graph) (sources : List String) :
    Makes ((variableLines g sources).map Line.reading) [] := by
  refine ⟨rfl, ?_⟩
  show rules ((sources.map _).map Line.reading) = []
  induction sources with
  | nil => rfl
  | cons source sources ih => exact ih

/-- The lines of the program make the first rules. -/
lemma makes_programLines (sources : List String) (c : Config) :
    Makes ((programLines sources c).map Line.reading) (openingRules c) := by
  have hmkdir : Text.allWords ["@mkdir", "-p", objectDirectoryRef] =
      ["@mkdir", "-p", objectDirectoryRef] := by decide
  have hbin : Text.allWords [objectDirectoryRef, programObjects] =
      [objectDirectoryRef, programObjects] := by decide
  have hlink : Text.allWords [compiler, programObjects, "-o", c.program, linkerFlags] =
      [compiler, programObjects, "-o"] ++ Text.words c.program.toList ++ [linkerFlags] := by
    have hfront : Text.allWords [compiler, programObjects, "-o"] =
        [compiler, programObjects, "-o"] := by decide
    have hback : Text.allWords [linkerFlags] = [linkerFlags] := by decide
    have happend := Text.allWords_append [compiler, programObjects, "-o"] [c.program, linkerFlags]
    rw [Text.allWords_cons c.program, hfront, hback, ← List.append_assoc] at happend
    exact happend
  refine ⟨rfl, ?_⟩
  simp only [programLines, List.map_cons, List.map_nil, Line.reading, rules, commands, hmkdir, hbin,
    hlink]
  rfl

/-- A source is one word. -/
lemma isWord_of_mem_sources (h : Readable g c) (hsource : source ∈ g.sources c.extension) :
    Text.IsWord source := by
  refine (h.isPlain hsource).isWord ?_
  rintro rfl
  exact absurd (mem_dot_of_hasExtension (mem_sources.1 hsource).2) (by decide)

/-- The lines of an object make the rule of its source. -/
lemma makes_objectLines (h : Readable g c) (hsource : source ∈ programSources g c) :
    Makes ((objectLines source).map Line.reading) [sourceRule c source] := by
  have hmem := mem_sources_of_mem_programSources hsource
  have htest : c.isTest source = false := by
    simpa using (List.mem_filter.1 hsource).2
  have href : Text.allWords [dependenciesRef source] = [dependenciesRef source] := by
    apply Text.allWords_eq_self
    simpa using (isName_dependenciesRef source).isWord
  have hdirectory : Text.allWords [objectDirectoryRef] = [objectDirectoryRef] := by decide
  have hcommand : Text.allWords
      [compiler, "-c", source, compilerFlags, "-o", objectFile source] =
      [compiler, "-c", source, compilerFlags, "-o", objectFile source] := by
    apply Text.allWords_eq_self
    simp only [List.forall_mem_cons]
    exact ⟨by decide, by decide, isWord_of_mem_sources h hmem, by decide, by decide,
      (isName_objectFile (h.isPlain hmem)).isWord, by simp⟩
  refine ⟨rfl, ?_⟩
  simp only [objectLines, List.map_cons, List.map_nil, Line.reading, rules, commands, href,
    hdirectory, hcommand, sourceRule, htest]
  rfl

/-- The lines of a test make the rule of its source. -/
lemma makes_testLines (h : Readable g c) (hsource : source ∈ testSources g c) :
    Makes ((testLines source).map Line.reading) [sourceRule c source] := by
  have hmem := mem_sources_of_mem_testSources hsource
  have htest : c.isTest source = true := (List.mem_filter.1 hsource).2
  have href : Text.allWords [dependenciesRef source, testedObjects] =
      [dependenciesRef source, testedObjects] := by
    apply Text.allWords_eq_self
    simp only [List.forall_mem_cons]
    exact ⟨(isName_dependenciesRef source).isWord, by decide, by simp⟩
  have hcommand : Text.allWords
      [compiler, compilerFlags, source, testedObjects, "-o", testProgram source, linkerFlags] =
      [compiler, compilerFlags, source, testedObjects, "-o", testProgram source, linkerFlags] := by
    apply Text.allWords_eq_self
    simp only [List.forall_mem_cons]
    exact ⟨by decide, by decide, isWord_of_mem_sources h hmem, by decide, by decide,
      (isName_testProgram h hmem).isWord, by decide, by simp⟩
  refine ⟨rfl, ?_⟩
  simp only [testLines, List.map_cons, List.map_nil, Line.reading, rules, commands, href,
    hcommand, sourceRule, htest]
  rfl

/-- The lines of all tests make the common rules for tests, and one rule for each. -/
lemma makes_testsLines (h : Readable g c) :
    Makes ((testsLines (testSources g c) c).map Line.reading)
      (testsRules (testSources g c) ++ (testSources g c).map (sourceRule c)) := by
  unfold testsLines testsRules
  split
  · next hempty =>
    rw [List.isEmpty_iff] at hempty
    rw [hempty]
    exact ⟨rfl, rfl⟩
  · have hprograms : Text.allWords ((testSources g c).map testProgram) =
        (testSources g c).map testProgram := by
      apply Text.allWords_eq_self
      exact fun text htext => (isName_of_mem_testPrograms h text htext).isWord
    rw [List.map_append, List.map_flatMap]
    apply Makes.append
    · refine ⟨rfl, ?_⟩
      simp only [List.map_cons, List.map_nil, Line.reading, rules, commands, hprograms]
      simp
    · exact Makes.flatMap fun source hsource => makes_testLines h hsource

/-- The last lines make the last rules. -/
lemma makes_cleanLines (h : Readable g c) :
    Makes ((cleanLines (testSources g c) c).map Line.reading)
      (closingRules (testSources g c) c) := by
  have hprograms : Text.allWords ((testSources g c).map testProgram) =
      (testSources g c).map testProgram := by
    apply Text.allWords_eq_self
    exact fun text htext => (isName_of_mem_testPrograms h text htext).isWord
  have hphony : Text.allWords
      (["all", "bin"] ++ (if (testSources g c).isEmpty then [] else ["tests"]) ++ ["clean"]) =
      ["all", "bin"] ++ (if (testSources g c).isEmpty then [] else ["tests"]) ++ ["clean"] := by
    split
    · decide
    · decide
  have hclean : Text.allWords (["rm", "-rf", objectDirectoryRef, c.program] ++
      (testSources g c).map testProgram) = ["rm", "-rf", objectDirectoryRef] ++
        Text.words c.program.toList ++ (testSources g c).map testProgram := by
    have hfront : Text.allWords ["rm", "-rf", objectDirectoryRef] =
        ["rm", "-rf", objectDirectoryRef] := by decide
    have happend := Text.allWords_append ["rm", "-rf", objectDirectoryRef]
      (c.program :: (testSources g c).map testProgram)
    rw [Text.allWords_cons c.program, hfront, hprograms, ← List.append_assoc] at happend
    exact happend
  refine ⟨rfl, ?_⟩
  simp only [cleanLines, List.map_cons, List.map_nil, Line.reading, rules, commands, hphony, hclean]
  simp [closingRules]

/-- The rules of the Makefile are those of the sources, with some common ones before, between and
after them. -/
lemma rules_lines (h : Readable g c) :
    rules (readings (print (lines g c))) =
      openingRules c ++ (programSources g c).map (sourceRule c) ++
        (testsRules (testSources g c) ++ (testSources g c).map (sourceRule c)) ++
        closingRules (testSources g c) c := by
  have hobjects : Makes (((programSources g c).flatMap objectLines).map Line.reading)
      ((programSources g c).map (sourceRule c)) := by
    rw [List.map_flatMap]
    exact Makes.flatMap fun source hsource => makes_objectLines h hsource
  have hvariables := (makes_toolchainLines g c).append
    (makes_variableLines g (g.sources c.extension))
  have hprogram :=
    (hvariables.append (makes_programLines (programSources g c) c)).append hobjects
  have htests := (hprogram.append (makes_testsLines h)).append (makes_cleanLines h)
  have hall := htests.append (⟨rfl, rfl⟩ : Makes [.nothing] [])
  rw [readings_print (fits_lines h)]
  unfold lines
  simp only [List.map_append]
  rw [hall.2, List.append_nil]
  rfl

/-- The words of a plain text are plain. -/
lemma IsPlain.words {s : String} (h : IsPlain s) : ∀ word ∈ Text.words s.toList, IsPlain word := by
  intro word hword
  by_cases hs : s = ""
  · rw [hs] at hword
    simp at hword
  · rw [(h.isWord hs).words, List.mem_singleton] at hword
    exact hword ▸ h

/-- The words of the program are those of common texts. -/
lemma isCommonText_of_mem_words_program (h : Readable g c) :
    ∀ word ∈ Text.words c.program.toList, IsCommonText word := fun word hword =>
  (h.program.words word hword).isCommonText

/-- The programs of tests are common texts. -/
lemma isCommonText_testProgram (h : Readable g c) :
    ∀ program ∈ (testSources g c).map testProgram, IsCommonText program := by
  intro program hprogram
  obtain ⟨source, hsource, rfl⟩ := List.mem_map.1 hprogram
  have hplain := h.isPlain (mem_sources_of_mem_testSources hsource)
  exact hplain.stripExtension.isCommonText

/-- The program is linked from what variables stand for, whatever its name. -/
lemma mem_of_mem_operands {program word : String} (h : IsPlain program)
    (hword : word ∈ Rule.operands
      ([programObjects, "-o"] ++ Text.words program.toList ++ [linkerFlags])) :
    word ∈ [programObjects, linkerFlags] := by
  by_cases hempty : program = ""
  · -- without a name the option takes the libraries for the program
    have hoperands : Rule.operands [programObjects, "-o", linkerFlags] = [programObjects] := rfl
    rw [hempty, show Text.words "".toList = [] from Text.words_nil, List.append_nil,
      List.cons_append, List.cons_append, List.nil_append, hoperands] at hword
    exact List.mem_cons.2 (.inl (List.mem_singleton.1 hword))
  · rw [(h.isWord hempty).words] at hword
    exact hword

/-- The first rules compile the objects of the program and nothing else. -/
lemma compiles_openingRules (h : Readable g c) {word : String} :
    ∀ rule ∈ openingRules c, rule.Compiles word → word ∈ [programObjects, linkerFlags] := by
  simp only [openingRules, List.forall_mem_cons]
  refine ⟨?_, ?_, ?_, by simp⟩
  · rintro ⟨arguments, hmem, -⟩
    cases hmem
  · rintro ⟨arguments, hmem, -⟩
    simp [compiler] at hmem
  · rintro ⟨arguments, hmem, hword⟩
    simp only [List.cons_append, List.nil_append, List.mem_singleton, List.cons.injEq,
      true_and] at hmem
    rw [hmem] at hword
    exact mem_of_mem_operands h.program hword

/-- The common rules for tests compile nothing. -/
lemma not_compiles_testsRules (tests : List String) (word : String) :
    ∀ rule ∈ testsRules tests, ¬ rule.Compiles word := by
  intro rule hrule
  unfold testsRules at hrule
  split at hrule
  · cases hrule
  · rw [List.mem_singleton.1 hrule]
    rintro ⟨arguments, hmem, -⟩
    cases hmem

/-- The last rules compile nothing. -/
lemma not_compiles_closingRules (tests : List String) (c : Config) (word : String) :
    ∀ rule ∈ closingRules tests c, ¬ rule.Compiles word := by
  simp only [closingRules, List.forall_mem_cons]
  refine ⟨?_, ?_, by simp⟩
  · rintro ⟨arguments, hmem, -⟩
    cases hmem
  · rintro ⟨arguments, hmem, -⟩
    simp [compiler] at hmem

/-- The first rules are common. -/
lemma isCommon_openingRules (h : Readable g c) : ∀ rule ∈ openingRules c, rule.IsCommon := by
  have hdollar : ∀ word ∈ [programObjects, linkerFlags], '$' ∈ word.toList := by decide
  have hwords : ∀ rule ∈ openingRules c, ∀ word ∈ rule.words, IsCommonText word := by
    have hprogram := isCommonText_of_mem_words_program h
    simp only [openingRules, List.forall_mem_cons]
    refine ⟨by decide, by decide, ?_, by simp⟩
    simp only [Rule.words, List.flatten_cons, List.flatten_nil, List.append_nil, List.cons_append,
      List.nil_append, List.forall_mem_cons, List.forall_mem_append]
    exact ⟨by decide, by decide, by decide, by decide, by decide, by decide, hprogram, by decide⟩
  intro rule hrule
  constructor
  · exact hwords rule hrule
  · exact fun file hfile => hdollar file (compiles_openingRules h rule hrule hfile)

/-- The common rules for tests are common. -/
lemma isCommon_testsRules (h : Readable g c) :
    ∀ rule ∈ testsRules (testSources g c), rule.IsCommon := by
  intro rule hrule
  constructor
  · unfold testsRules at hrule
    split at hrule
    · cases hrule
    · have hprograms := isCommonText_testProgram h
      rw [List.mem_singleton.1 hrule]
      simp only [Rule.words, List.flatten_nil, List.append_nil, List.cons_append, List.nil_append,
        List.forall_mem_cons]
      exact ⟨by decide, hprograms⟩
  · exact fun file hfile => absurd hfile (not_compiles_testsRules _ file rule hrule)

/-- The last rules are common. -/
lemma isCommon_closingRules (h : Readable g c) :
    ∀ rule ∈ closingRules (testSources g c) c, rule.IsCommon := by
  have hwords : ∀ rule ∈ closingRules (testSources g c) c, ∀ word ∈ rule.words,
      IsCommonText word := by
    have hprogram := isCommonText_of_mem_words_program h
    have htests := isCommonText_testProgram h
    simp only [closingRules, List.forall_mem_cons]
    refine ⟨?_, ?_, by simp⟩
    · split
      · decide
      · decide
    · simp only [Rule.words, List.flatten_cons, List.flatten_nil, List.append_nil, List.cons_append,
        List.nil_append, List.forall_mem_cons, List.forall_mem_append]
      exact ⟨by decide, by decide, by decide, by decide, hprogram, htests⟩
  intro rule hrule
  constructor
  · exact hwords rule hrule
  · exact fun file hfile => absurd hfile (not_compiles_closingRules _ c file rule hrule)

/-- A rule of the Makefile is common, or that of a source. -/
lemma isCommon_or_eq_sourceRule (h : Readable g c) {rule : Rule}
    (hrule : rule ∈ rules (readings (print (lines g c)))) :
    rule.IsCommon ∨ ∃ source ∈ g.sources c.extension, rule = sourceRule c source := by
  rw [rules_lines h] at hrule
  simp only [List.mem_append, or_assoc] at hrule
  rcases hrule with hrule | hrule | hrule | hrule | hrule
  · exact .inl (isCommon_openingRules h rule hrule)
  · obtain ⟨source, hsource, rfl⟩ := List.mem_map.1 hrule
    exact .inr ⟨source, mem_sources_of_mem_programSources hsource, rfl⟩
  · exact .inl (isCommon_testsRules h rule hrule)
  · obtain ⟨source, hsource, rfl⟩ := List.mem_map.1 hrule
    exact .inr ⟨source, mem_sources_of_mem_testSources hsource, rfl⟩
  · exact .inl (isCommon_closingRules h rule hrule)

/-- No source is listed twice if no file is. -/
lemma nodup_sources {extension : String} (h : g.files.Nodup) : (g.sources extension).Nodup :=
  (List.mergeSort_perm _ _).nodup_iff.2 (h.filter _)

/-- Sources that are let pass and have one variable are the same. -/
lemma eq_of_variableName_eq (hnodup : g.files.Nodup)
    (hcheck : check (g.sources c.extension) (testSources g c) c = .ok ()) {other : String}
    (hsource : source ∈ g.sources c.extension) (hother : other ∈ g.sources c.extension)
    (h : variableName source = variableName other) : source = other :=
  List.inj_on_of_nodup_map (nodup_variableName hcheck (nodup_sources hnodup)) hsource hother h

/-- A property that common rules lack, and that tells the rules of the sources apart, finds the rule
of a source. -/
lemma filter_rules_lines (h : Readable g c) (hnodup : g.files.Nodup) {p : Rule → Bool}
    (hcommon : ∀ rule : Rule, rule.IsCommon → p rule = false)
    (hown : ∀ other ∈ g.sources c.extension, p (sourceRule c other) = true ↔ other = source)
    (hsource : source ∈ g.sources c.extension) :
    (rules (readings (print (lines g c)))).filter p = [sourceRule c source] := by
  have hnone : ∀ made : List Rule, (∀ rule ∈ made, rule.IsCommon) → made.filter p = [] := by
    intro made hmade
    refine List.filter_eq_nil_iff.2 fun rule hrule => ?_
    simp [hcommon rule (hmade rule hrule)]
  have hsources : ∀ sources : List String, sources.Nodup →
      (∀ other ∈ sources, other ∈ g.sources c.extension) →
      (sources.map (sourceRule c)).filter p =
        if source ∈ sources then [sourceRule c source] else [] := fun sources hsources hmem =>
    filter_map_eq hsources fun other hother => hown other (hmem other hother)
  rw [rules_lines h, List.filter_append, List.filter_append, List.filter_append, List.filter_append,
    hnone _ (isCommon_openingRules h), hnone _ (isCommon_testsRules h),
    hnone _ (isCommon_closingRules h),
    hsources (programSources g c) ((nodup_sources hnodup).filter _) fun _ =>
      mem_sources_of_mem_programSources,
    hsources (testSources g c) ((nodup_sources hnodup).filter _) fun _ =>
      mem_sources_of_mem_testSources]
  -- the source is one of the program or of the tests, not of both
  cases htest : c.isTest source with
  | true => simp [programSources, testSources, htest, hsource]
  | false => simp [programSources, testSources, htest, hsource]

/-- Exactly one rule refers to the variable of a source: its own. -/
lemma filter_references_lines (h : Readable g c) (hnodup : g.files.Nodup)
    (hcheck : check (g.sources c.extension) (testSources g c) c = .ok ())
    (hsource : source ∈ g.sources c.extension) :
    (rules (readings (print (lines g c)))).filter
      (fun rule => variableName source ∈ rule.references) = [sourceRule c source] := by
  apply filter_rules_lines h hnodup ?_ ?_ hsource
  · intro rule hrule
    refine decide_eq_false fun hmem => ?_
    exact variableName_not_mem_commonVariables source (hrule.references _ hmem)
  · -- the check has made sure that the variable leads back to its source
    intro other hother
    rw [decide_eq_true_iff]
    constructor
    · intro hmem
      rcases eq_or_mem_commonVariables (h.isPlain hother) hmem with hsame | hcommon
      · exact (eq_of_variableName_eq hnodup hcheck hsource hother hsame).symm
      · exact absurd hcommon (variableName_not_mem_commonVariables source)
    · rintro rfl
      exact variableName_mem_references c other

/-- Exactly one rule has the compiler work on a source: its own. -/
lemma compiles_lines_iff (h : Readable g c) (hsource : source ∈ g.sources c.extension) {rule : Rule}
    (hrule : rule ∈ rules (readings (print (lines g c)))) :
    rule.Compiles source ↔ rule = sourceRule c source := by
  have hplain := h.isPlain hsource
  have hdot := mem_dot_of_hasExtension (mem_sources.1 hsource).2
  rcases isCommon_or_eq_sourceRule h hrule with hcommon | ⟨other, hother, rfl⟩
  · constructor
    · intro hcompiles
      exact absurd (hcommon.operands source hcompiles) hplain.not_mem_dollar
    · rintro rfl
      exact (compiles_sourceRule_iff hplain hplain hdot hdot).2 rfl
  · have hdotOther := mem_dot_of_hasExtension (mem_sources.1 hother).2
    rw [compiles_sourceRule_iff (h.isPlain hother) hplain hdotOther hdot,
      sourceRule_inj (h.isPlain hother) hplain hdotOther hdot]

end rules

section assignments

/-- Does one of the lines assign the variable? -/
def Assigned (lines : List Line) (name : String) : Prop :=
  ∃ line ∈ lines, line.reading.assigns name = true

variable {name : String} {sources : List String}

/-- Lines assign what the first of them assign, and what the others do. -/
lemma assigned_append {front back : List Line} :
    Assigned (front ++ back) name ↔ Assigned front name ∨ Assigned back name := by
  simp only [Assigned, List.mem_append, or_and_right, exists_or]

/-- The lines of some sources assign what those of one of them assign. -/
lemma assigned_flatMap {f : String → List Line} :
    Assigned (sources.flatMap f) name ↔ ∃ source ∈ sources, Assigned (f source) name := by
  constructor
  · rintro ⟨line, hline, hassigns⟩
    obtain ⟨source, hsource, hline⟩ := List.mem_flatMap.1 hline
    exact ⟨source, hsource, line, hline, hassigns⟩
  · rintro ⟨source, hsource, line, hline, hassigns⟩
    exact ⟨line, List.mem_flatMap.2 ⟨source, hsource, hline⟩, hassigns⟩

/-- Lines that do not assign a variable have no assignment of it. -/
lemma filter_lines_eq_nil {lines : List Line} (h : ¬ Assigned lines name) :
    lines.filter (fun line => line.reading.assigns name) = [] := by
  apply List.filter_eq_nil_iff.2
  intro line hline hassigns
  exact h ⟨line, hline, hassigns⟩

/-- Lines that do not assign a variable say nothing about it. -/
lemma filter_assigns_eq_nil {lines : List Line} (h : ¬ Assigned lines name) :
    (lines.map Line.reading).filter (Reading.assigns name) = [] := by
  rw [List.filter_map]
  exact List.map_eq_nil_iff.2 (filter_lines_eq_nil h)

/-- The lines of the settings assign three variables. -/
lemma assigned_toolchainLines :
    Assigned (toolchainLines g c) name ↔ name ∈ ["CC", "CFLAGS", "LFLAGS"] := by
  simp [Assigned, toolchainLines, Line.reading, Reading.assigns, eq_comm (a := name)]

/-- The lines of the variables assign the directory for objects and the variables of the sources. -/
lemma assigned_variableLines : Assigned (variableLines g sources) name ↔
    name = "ODIR" ∨ ∃ source ∈ sources, variableName source = name := by
  simp [Assigned, variableLines, Line.reading, Reading.assigns, eq_comm (a := name)]

/-- The lines of the variables assign no others. -/
lemma not_assigned_variableLines (hdirectory : name ≠ "ODIR")
    (hsources : ¬ "_DEPS".toList <:+ name.toList) : ¬ Assigned (variableLines g sources) name := by
  rw [assigned_variableLines]
  rintro (hname | ⟨source, -, hname⟩)
  · exact hdirectory hname
  · exact variableName_ne hsources hname

/-- The lines of the program assign its objects. -/
lemma assigned_programLines :
    Assigned (programLines sources c) name ↔ name = "BIN_OBJ_FILES" := by
  simp [Assigned, programLines, Line.reading, Reading.assigns, eq_comm (a := name)]

/-- The lines of the objects assign nothing. -/
lemma not_assigned_objectLines (name : String) (sources : List String) :
    ¬ Assigned (sources.flatMap objectLines) name := by
  rw [assigned_flatMap]
  rintro ⟨source, -, h⟩
  simp [Assigned, objectLines, Line.reading, Reading.assigns] at h

/-- The lines of the tests assign nothing. -/
lemma not_assigned_testLines (name : String) (tests : List String) :
    ¬ Assigned (tests.flatMap testLines) name := by
  rw [assigned_flatMap]
  rintro ⟨test, -, h⟩
  simp [Assigned, testLines, Line.reading, Reading.assigns] at h

/-- The lines of all tests assign the objects under test, if there is a test. -/
lemma assigned_testsLines : Assigned (testsLines sources c) name ↔
    name = "ALL_BIN_OBJS_WO_MAIN" ∧ ∃ test, test ∈ sources := by
  unfold testsLines
  split
  · next hempty =>
    rw [List.isEmpty_iff.1 hempty]
    simp [Assigned]
  · next hsome =>
    rw [assigned_append, or_iff_left (not_assigned_testLines name sources),
      and_iff_left (List.exists_mem_of_ne_nil sources (by simpa using hsome))]
    simp [Assigned, Line.reading, Reading.assigns, eq_comm (a := name)]

/-- The lines of all tests assign nothing else. -/
lemma not_assigned_testsLines (h : name ≠ "ALL_BIN_OBJS_WO_MAIN") :
    ¬ Assigned (testsLines sources c) name :=
  fun hassigned => h (assigned_testsLines.1 hassigned).1

/-- The last lines assign nothing. -/
lemma not_assigned_cleanLines (name : String) (tests : List String) (c : Config) :
    ¬ Assigned (cleanLines tests c) name := by
  simp [Assigned, cleanLines, Line.reading, Reading.assigns]

/-- No variable is assigned between the rules of sources or after them. -/
lemma filter_lines_assigns (g : Graph) (c : Config) (name : String) :
    (lines g c).filter (fun line => line.reading.assigns name) =
      (toolchainLines g c).filter (fun line => line.reading.assigns name) ++
      (variableLines g (g.sources c.extension)).filter (fun line => line.reading.assigns name) ++
      (programLines (programSources g c) c).filter (fun line => line.reading.assigns name) ++
      (testsLines (testSources g c) c).filter (fun line => line.reading.assigns name) := by
  unfold lines
  simp only [List.filter_append]
  rw [filter_lines_eq_nil (not_assigned_objectLines name (programSources g c)),
    filter_lines_eq_nil (not_assigned_cleanLines name (testSources g c) c), List.append_nil,
    List.append_nil]

/-- What the Makefile says about a variable is what its parts say. -/
lemma filter_readings_lines (h : Readable g c) (name : String) :
    (readings (print (lines g c))).filter (Reading.assigns name) =
      ((toolchainLines g c).map Line.reading).filter (Reading.assigns name) ++
      ((variableLines g (g.sources c.extension)).map Line.reading).filter (Reading.assigns name) ++
      ((programLines (programSources g c) c).map Line.reading).filter (Reading.assigns name) ++
      ((testsLines (testSources g c) c).map Line.reading).filter (Reading.assigns name) := by
  have hend : [Reading.nothing].filter (Reading.assigns name) = [] := rfl
  rw [readings_print (fits_lines h), List.filter_append, hend, List.append_nil]
  simp only [List.filter_map, ← List.map_append]
  exact congrArg _ (filter_lines_assigns g c name)

/-- The files of a closure are the words of its variable. -/
lemma reading_assign_closure (h : Readable g c) (hne : ∀ file ∈ g.mentioned, file ≠ "")
    (hsource : source ∈ g.sources c.extension) :
    (Line.assign (variableName source) (g.closure source)).reading =
      .assignment (variableName source) (g.closure source) := by
  have hmentioned : ∀ file ∈ g.closure source, file ∈ g.mentioned := fun file =>
    mem_mentioned_of_mem_closure (mem_sources.1 hsource).1
  have hhash : '#' ∉ (Line.words (g.closure source)).toList := by
    refine Line.not_mem_words (by decide) fun file hfile => ?_
    exact (h.files file (hmentioned file hfile)).not_mem isNameChar_hash
  have hwords : Text.allWords (g.closure source) = g.closure source := by
    refine Text.allWords_eq_self fun file hfile => ?_
    exact (h.files file (hmentioned file hfile)).isWord (hne file (hmentioned file hfile))
  rw [Line.reading, uncommented_eq_self hhash, Text.words_joined, hwords]

/-- One of the lines of the variables assigns the variable of a source, with its closure. -/
lemma filter_assigns_variableLines (h : Readable g c) (hnodup : g.files.Nodup)
    (hcheck : check (g.sources c.extension) (testSources g c) c = .ok ())
    (hne : ∀ file ∈ g.mentioned, file ≠ "") (hsource : source ∈ g.sources c.extension) :
    ((variableLines g (g.sources c.extension)).map Line.reading).filter
      (Reading.assigns (variableName source)) =
        [.assignment (variableName source) (g.closure source)] := by
  have hdirectory : "ODIR" ≠ variableName source := (variableName_ne (by decide)).symm
  have hown : ∀ other ∈ g.sources c.extension,
      (Line.assign (variableName other) (g.closure other)).reading.assigns
        (variableName source) = true ↔ other = source := by
    intro other hother
    simp only [Line.reading, Reading.assigns, decide_eq_true_eq]
    constructor
    · exact eq_of_variableName_eq hnodup hcheck hother hsource
    · exact congrArg variableName
  have hfilter := filter_map_eq
    (f := fun other => (Line.assign (variableName other) (g.closure other)).reading)
    (nodup_sources hnodup) hown
  rw [if_pos hsource, reading_assign_closure h hne hsource] at hfilter
  unfold variableLines
  rw [List.map_append, List.filter_append, List.map_map, filter_assigns_eq_nil]
  · exact hfilter
  · simp [Assigned, Line.reading, Reading.assigns, hdirectory]

/-- Exactly one line assigns the variable of a source, and its words are the closure of the source.
-/
lemma filter_assigns_lines (h : Readable g c) (hnodup : g.files.Nodup)
    (hcheck : check (g.sources c.extension) (testSources g c) c = .ok ())
    (hne : ∀ file ∈ g.mentioned, file ≠ "") (hsource : source ∈ g.sources c.extension) :
    (readings (print (lines g c))).filter (Reading.assigns (variableName source)) =
      [.assignment (variableName source) (g.closure source)] := by
  have hcommon : ∀ name ∈ commonVariables, variableName source ≠ name := fun name hname heq =>
    variableName_not_mem_commonVariables source (heq ▸ hname)
  have htoolchain : variableName source ∉ ["CC", "CFLAGS", "LFLAGS"] := fun hmem =>
    hcommon _ (List.mem_append_left ["ODIR", "BIN_OBJ_FILES", "ALL_BIN_OBJS_WO_MAIN"] hmem) rfl
  rw [filter_readings_lines h, filter_assigns_eq_nil (mt assigned_toolchainLines.1 htoolchain),
    filter_assigns_variableLines h hnodup hcheck hne hsource,
    filter_assigns_eq_nil (mt assigned_programLines.1 (hcommon _ (by decide))),
    filter_assigns_eq_nil (not_assigned_testsLines (hcommon _ (by decide)))]
  rfl

end assignments

end MakeDeps.Makefile
