import MakeDeps.Proofs.Config
import MakeDeps.Proofs.Makefile.Rebuild

/-!
# What a Makefile builds

Each source has one rule that compiles it: into an object, or into a program if the source is a
test. The objects that are linked, the programs that are built together and those that are cleaned
up are the ones that these rules make, and no two rules make the same: `render_partition`.
-/

namespace MakeDeps.Makefile
open Resolver

variable {g : Graph} {c : Config} {source text : String}

namespace Rule

/-- Does the rule call the compiler with this argument, other than for the file to write? -/
def passes (argument : String) (rule : Rule) : Bool :=
  rule.recipe.any fun command =>
    command.head? == some compiler && (operands command.tail).contains argument

/-- A rule passes an argument if it has the compiler work on it. -/
lemma passes_iff {rule : Rule} {argument : String} :
    rule.passes argument = true ↔ rule.Compiles argument := by
  simp only [passes, Compiles, List.any_eq_true, Bool.and_eq_true, beq_iff_eq,
    List.contains_iff_mem]
  constructor
  · intro ⟨command, hmem, hhead, hargument⟩
    cases command with
    | nil => cases hhead
    | cons word arguments =>
      cases hhead
      exact ⟨arguments, hmem, hargument⟩
  · intro ⟨arguments, hmem, hargument⟩
    exact ⟨_, hmem, rfl, hargument⟩

end Rule

/-- The rules that compile and do not link. -/
def objectRules (said : List Reading) : List Rule :=
  (rules said).filter (Rule.passes "-c")

/-- The rules that link with the objects under test. -/
def testRules (said : List Reading) : List Rule :=
  (rules said).filter (Rule.passes testedObjects)

/-- The rules that make the target. -/
def rulesFor (target : String) (said : List Reading) : List Rule :=
  (rules said).filter fun rule => target ∈ rule.targets

section passes

/-- If no rule compiles something, none passes it. -/
lemma filter_passes_eq_nil {made : List Rule} {argument : String}
    (h : ∀ rule ∈ made, ¬ rule.Compiles argument) : made.filter (Rule.passes argument) = [] := by
  apply List.filter_eq_nil_iff.2
  intro rule hrule hpasses
  exact h rule hrule (Rule.passes_iff.1 hpasses)

/-- Of what the compiler works on, only references are found in rules that belong to no source. -/
lemma filter_passes_lines (h : Readable g c) {argument : String}
    (hcommon : argument ∉ [programObjects, linkerFlags]) :
    (rules (readings (print (lines g c)))).filter (Rule.passes argument) =
      ((programSources g c).map (sourceRule c)).filter (Rule.passes argument) ++
      ((testSources g c).map (sourceRule c)).filter (Rule.passes argument) := by
  have hopening : ∀ rule ∈ openingRules c, ¬ rule.Compiles argument := by
    intro rule hrule hcompiles
    exact hcommon (compiles_openingRules h rule hrule hcompiles)
  rw [rules_lines h]
  simp only [List.filter_append]
  rw [filter_passes_eq_nil hopening, filter_passes_eq_nil (not_compiles_testsRules _ argument),
    filter_passes_eq_nil (not_compiles_closingRules _ c argument)]
  simp

/-- What the compiler works on in the rule of a test or of another source, besides the source. -/
def commonOperands (test : Bool) : List String :=
  if test then [compilerFlags, testedObjects, linkerFlags] else ["-c", compilerFlags]

/-- The rule of a source passes of the words without a dot those that all such rules pass. -/
lemma passes_sourceRule (h : Readable g c) (hsource : source ∈ g.sources c.extension)
    {argument : String} (hargument : '.' ∉ argument.toList) :
    (sourceRule c source).passes argument = true ↔
      argument ∈ commonOperands (c.isTest source) := by
  have hplain := h.isPlain hsource
  have hdot := mem_dot_of_hasExtension (mem_sources.1 hsource).2
  have hne : argument ≠ source := (ne_of_mem_dot hplain hdot (.inr hargument)).symm
  rw [Rule.passes_iff, compiles_sourceRule hplain hdot, commonOperands]
  split
  · simp [hne]
  · simp [hne]

/-- Apart from the sources themselves, the compiler works on the same in the rules of all tests, and
in those of all other sources. -/
lemma filter_passes_sourceRules (h : Readable g c) {sources : List String} {test : Bool}
    (hsources : ∀ source ∈ sources, source ∈ g.sources c.extension ∧ c.isTest source = test)
    {argument : String} (hargument : '.' ∉ argument.toList) :
    (sources.map (sourceRule c)).filter (Rule.passes argument) =
      if argument ∈ commonOperands test then sources.map (sourceRule c) else [] := by
  have hpasses : ∀ rule ∈ sources.map (sourceRule c),
      rule.passes argument = true ↔ argument ∈ commonOperands test := by
    intro rule hrule
    obtain ⟨source, hsource, rfl⟩ := List.mem_map.1 hrule
    obtain ⟨hmem, htest⟩ := hsources source hsource
    rw [passes_sourceRule h hmem hargument, htest]
  split
  · next hall => exact List.filter_eq_self.2 fun rule hrule => (hpasses rule hrule).2 hall
  · next hnone =>
    exact List.filter_eq_nil_iff.2 fun rule hrule => mt (hpasses rule hrule).1 hnone

/-- What the program is built from are sources, and no tests. -/
lemma mem_and_isTest_of_mem_programSources :
    ∀ source ∈ programSources g c, source ∈ g.sources c.extension ∧ c.isTest source = false :=
  fun _ hsource => ⟨mem_sources_of_mem_programSources hsource, isTest_of_mem_programSources hsource⟩

/-- Tests are sources, and tests. -/
lemma mem_and_isTest_of_mem_testSources :
    ∀ source ∈ testSources g c, source ∈ g.sources c.extension ∧ c.isTest source = true :=
  fun _ hsource => ⟨mem_sources_of_mem_testSources hsource, isTest_of_mem_testSources hsource⟩

/-- Objects are compiled from the sources of the program. -/
lemma objectRules_lines (h : Readable g c) :
    objectRules (readings (print (lines g c))) = (programSources g c).map (sourceRule c) := by
  rw [objectRules, filter_passes_lines h (by decide),
    filter_passes_sourceRules h mem_and_isTest_of_mem_programSources (by decide),
    filter_passes_sourceRules h mem_and_isTest_of_mem_testSources (by decide),
    if_pos (by decide), if_neg (by decide), List.append_nil]

/-- Programs other than the one of the project are linked from the sources of tests. -/
lemma testRules_lines (h : Readable g c) :
    testRules (readings (print (lines g c))) = (testSources g c).map (sourceRule c) := by
  rw [testRules, filter_passes_lines h (by decide),
    filter_passes_sourceRules h mem_and_isTest_of_mem_programSources (by decide),
    filter_passes_sourceRules h mem_and_isTest_of_mem_testSources (by decide),
    if_neg (by decide), if_pos (by decide), List.nil_append]

/-- Exactly one rule calls the compiler with a source: its own. -/
lemma filter_passes_source (h : Readable g c) (hkeys : g.files.Nodup)
    (hsource : source ∈ g.sources c.extension) :
    (rules (readings (print (lines g c)))).filter (Rule.passes source) = [sourceRule c source] := by
  have hplain := h.isPlain hsource
  have hdot := mem_dot_of_hasExtension (mem_sources.1 hsource).2
  apply filter_rules_lines h hkeys ?_ ?_ hsource
  · intro rule hrule
    apply Bool.eq_false_iff.2
    intro hpasses
    exact hplain.not_mem_dollar (hrule.operands source (Rule.passes_iff.1 hpasses))
  · intro other hother
    have hdotOther := mem_dot_of_hasExtension (mem_sources.1 hother).2
    rw [Rule.passes_iff, compiles_sourceRule_iff (h.isPlain hother) hplain hdotOther hdot]
    exact eq_comm

/-- The rule of a source is in the Makefile. -/
lemma sourceRule_mem_rules (h : Readable g c) (hkeys : g.files.Nodup)
    (hsource : source ∈ g.sources c.extension) :
    sourceRule c source ∈ rules (readings (print (lines g c))) := by
  have hmem := List.mem_singleton_self (sourceRule c source)
  rw [← filter_passes_source h hkeys hsource] at hmem
  exact (List.mem_filter.1 hmem).1

/-- The rule of a source makes an object if, and only if, the source is no test. -/
lemma mem_objectRules_iff (h : Readable g c) (hkeys : g.files.Nodup)
    (hsource : source ∈ g.sources c.extension) :
    sourceRule c source ∈ objectRules (readings (print (lines g c))) ↔
      c.isTest source = false := by
  rw [objectRules, List.mem_filter, passes_sourceRule h hsource (by decide)]
  cases htest : c.isTest source with
  | true => simp [commonOperands, compilerFlags, testedObjects, linkerFlags]
  | false => simp [commonOperands, sourceRule_mem_rules h hkeys hsource]

/-- The rule of a source makes a test if, and only if, the source is one. -/
lemma mem_testRules_iff (h : Readable g c) (hkeys : g.files.Nodup)
    (hsource : source ∈ g.sources c.extension) :
    sourceRule c source ∈ testRules (readings (print (lines g c))) ↔
      c.isTest source = true := by
  rw [testRules, List.mem_filter, passes_sourceRule h hsource (by decide)]
  cases htest : c.isTest source with
  | true => simp [commonOperands, sourceRule_mem_rules h hkeys hsource]
  | false => simp [commonOperands, compilerFlags, testedObjects]

end passes

/-- The program is linked from the objects of its sources. -/
lemma filter_assigns_objects (h : Readable g c) :
    (readings (print (lines g c))).filter (Reading.assigns "BIN_OBJ_FILES") =
      [.assignment "BIN_OBJ_FILES" ((programSources g c).map objectFile)] := by
  rw [filter_readings_lines h, filter_assigns_eq_nil (mt assigned_toolchainLines.1 (by decide)),
    filter_assigns_eq_nil (not_assigned_variableLines (by decide) (by decide)),
    filter_assigns_eq_nil (not_assigned_testsLines (by decide))]
  simp only [programLines, List.map_cons, List.map_nil, reading_assign_objects h]
  simp [Line.reading, Reading.assigns]

section targets

/-- The rules of what the program is built from make the objects. -/
lemma targets_programSources :
    ((programSources g c).map (sourceRule c)).map Rule.targets =
      ((programSources g c).map objectFile).map fun target => [target] := by
  rw [List.map_map, List.map_map]
  apply List.map_congr_left
  intro source hsource
  simp [sourceRule, isTest_of_mem_programSources hsource]

/-- The rules of the tests make their programs. -/
lemma targets_testSources :
    ((testSources g c).map (sourceRule c)).map Rule.targets =
      ((testSources g c).map testProgram).map fun target => [target] := by
  rw [List.map_map, List.map_map]
  apply List.map_congr_left
  intro source hsource
  simp [sourceRule, isTest_of_mem_testSources hsource]

/-- Sources make distinct things if these tell the variables of the sources apart. -/
lemma nodup_made {sources : List String} {make : String → String} (hkeys : g.files.Nodup)
    (hcheck : check (g.sources c.extension) (testSources g c) c = .ok ())
    (hmem : ∀ source ∈ sources, source ∈ g.sources c.extension) (hnodup : sources.Nodup)
    (hmake : ∀ source other, make source = make other → variableName source = variableName other) :
    (sources.map make).Nodup := by
  apply hnodup.map_on
  intro source hsource other hother heq
  exact eq_of_variableName_eq hkeys hcheck (hmem source hsource) (hmem other hother)
    (hmake source other heq)

/-- The targets that every Makefile has, one for all tests included if there are any. -/
def commonTargets (tests : List String) : List String :=
  ["all", objectDirectoryRef, "bin"] ++ (if tests.isEmpty then [] else ["tests"]) ++ ["clean"]

/-- No object is the program of a test. -/
lemma objectFile_ne_testProgram (h : Readable g c) {test : String}
    (htest : test ∈ testSources g c) :
    objectFile source ≠ testProgram test := by
  intro heq
  have hplain := (h.isPlain (mem_sources_of_mem_testSources htest)).stripExtension
  apply hplain.not_mem_dollar
  show '$' ∈ (testProgram test).toList
  rw [← heq, toList_objectFile]
  simp [reference]

/-- No object is a target of the common rules. -/
lemma objectFile_not_mem_commonTargets (tests : List String) :
    objectFile source ∉ commonTargets tests := by
  have hlength : 8 < (objectFile source).toList.length := by
    rw [toList_objectFile]
    simp [reference]
  have hcommon : ∀ target ∈ commonTargets tests, target.toList.length ≤ 8 := by
    unfold commonTargets
    split
    · decide
    · decide
  intro hmem
  exact absurd (hcommon _ hmem) (Nat.not_le.2 hlength)

/-- No program of a test is a target of the common rules. -/
lemma testProgram_not_mem_commonTargets (h : Readable g c)
    (hcheck : check (g.sources c.extension) (testSources g c) c = .ok ()) {test : String}
    (htest : test ∈ testSources g c) : testProgram test ∉ commonTargets (testSources g c) := by
  have hreserved : testProgram test ∉ reservedTargets := fun hmem =>
    testProgram_not_mem hcheck htest (List.mem_cons_of_mem _ hmem)
  have hplain := (h.isPlain (mem_sources_of_mem_testSources htest)).stripExtension
  intro hmem
  -- a target that is not reserved refers to the directory for objects
  have hcommon : ∀ target ∈ commonTargets (testSources g c),
      target ∈ reservedTargets ∨ '$' ∈ target.toList := by
    unfold commonTargets
    split
    · decide
    · decide
  rcases hcommon _ hmem with hmem | hdollar
  · exact hreserved hmem
  · exact hplain.not_mem_dollar hdollar

/-- What the rules other than the list of phony targets make: each of it once. -/
lemma nodup_targets (h : Readable g c) (hkeys : g.files.Nodup)
    (hcheck : check (g.sources c.extension) (testSources g c) c = .ok ()) :
    (commonTargets (testSources g c) ++
      ((programSources g c).map objectFile ++ (testSources g c).map testProgram)).Nodup := by
  have hcommon : (commonTargets (testSources g c)).Nodup := by
    unfold commonTargets
    split
    · decide
    · decide
  have hobjects : ((programSources g c).map objectFile).Nodup :=
    nodup_made hkeys hcheck (fun _ => mem_sources_of_mem_programSources)
      ((nodup_sources hkeys).filter _) fun _ _ => variableName_of_objectFile
  have hprograms : ((testSources g c).map testProgram).Nodup :=
    nodup_made hkeys hcheck (fun _ => mem_sources_of_mem_testSources)
      ((nodup_sources hkeys).filter _) fun _ _ => variableName_of_testProgram
  apply List.nodup_append.2
  refine ⟨hcommon, List.nodup_append.2 ⟨hobjects, hprograms, ?_⟩, ?_⟩
  · intro object hobject program hprogram
    obtain ⟨source, -, rfl⟩ := List.mem_map.1 hobject
    obtain ⟨test, htest, rfl⟩ := List.mem_map.1 hprogram
    exact objectFile_ne_testProgram h htest
  · intro target htarget made hmade
    rintro rfl
    rcases List.mem_append.1 hmade with hmade | hmade
    · obtain ⟨source, -, rfl⟩ := List.mem_map.1 hmade
      exact objectFile_not_mem_commonTargets _ htarget
    · obtain ⟨test, htest, rfl⟩ := List.mem_map.1 hmade
      exact testProgram_not_mem_commonTargets h hcheck htest htarget

/-- The rules before the list of phony targets. -/
def rulesBefore (g : Graph) (c : Config) : List Rule :=
  openingRules c ++ (programSources g c).map (sourceRule c) ++
    (testsRules (testSources g c) ++ (testSources g c).map (sourceRule c))

/-- The rule that cleans up. -/
def cleanRule (tests : List String) (c : Config) : Rule where
  targets := ["clean"]
  prerequisites := []
  recipe := [["rm", "-rf", objectDirectoryRef, c.program] ++ tests.map testProgram]

/-- What is phony. -/
def phonyTargets (tests : List String) : List String :=
  ["all", "bin"] ++ (if tests.isEmpty then [] else ["tests"]) ++ ["clean"]

/-- The rules of the Makefile, if the program has a name. -/
lemma rules_lines_of_program (h : Readable g c) (hprogram : c.program ≠ "") :
    rules (readings (print (lines g c))) =
      rulesBefore g c ++ ⟨[".PHONY"], phonyTargets (testSources g c), []⟩ ::
        [cleanRule (testSources g c) c] := by
  rw [rules_lines h, closingRules, (h.program.isWord hprogram).words]
  rfl

/-- Rules with one target each have these targets. -/
lemma flatMap_targets {made : List Rule} {targets : List String}
    (h : made.map Rule.targets = targets.map fun target => [target]) :
    made.flatMap Rule.targets = targets := by
  rw [List.flatMap_def, h, ← List.flatMap_def, List.flatMap_singleton']

/-- The targets of all rules are the common ones, the objects, and the programs of the tests. -/
lemma targets_perm (g : Graph) (c : Config) :
    ((rulesBefore g c ++ [cleanRule (testSources g c) c]).flatMap Rule.targets).Perm
      (commonTargets (testSources g c) ++
        ((programSources g c).map objectFile ++ (testSources g c).map testProgram)) := by
  have htests : (testsRules (testSources g c)).flatMap Rule.targets =
      if (testSources g c).isEmpty then [] else ["tests"] := by
    unfold testsRules
    split
    · rfl
    · rfl
  have hopening : (openingRules c).flatMap Rule.targets = ["all", objectDirectoryRef, "bin"] := rfl
  have hclean : [cleanRule (testSources g c) c].flatMap Rule.targets = ["clean"] := rfl
  unfold rulesBefore commonTargets
  simp only [List.flatMap_append, flatMap_targets targets_programSources,
    flatMap_targets targets_testSources, htests, hopening, hclean]
  rw [List.perm_iff_count]
  intro target
  simp only [List.count_append]
  omega

/-- The rules of sources make none of the targets that every Makefile has. -/
lemma rulesFor_lines (h : Readable g c) (hprogram : c.program ≠ "")
    (hcheck : check (g.sources c.extension) (testSources g c) c = .ok ()) {target : String}
    (htarget : target ∈ commonTargets (testSources g c)) :
    rulesFor target (readings (print (lines g c))) =
      (openingRules c ++ testsRules (testSources g c) ++
        [⟨[".PHONY"], phonyTargets (testSources g c), []⟩, cleanRule (testSources g c) c]).filter
          fun rule => target ∈ rule.targets := by
  have hobjects : ((programSources g c).map (sourceRule c)).filter
      (fun rule => target ∈ rule.targets) = [] := by
    apply List.filter_eq_nil_iff.2
    intro rule hrule hmem
    obtain ⟨source, hsource, rfl⟩ := List.mem_map.1 hrule
    simp only [sourceRule, isTest_of_mem_programSources hsource, Bool.false_eq_true, if_false,
      List.mem_singleton, decide_eq_true_eq] at hmem
    exact objectFile_not_mem_commonTargets _ (hmem ▸ htarget)
  have hprograms : ((testSources g c).map (sourceRule c)).filter
      (fun rule => target ∈ rule.targets) = [] := by
    apply List.filter_eq_nil_iff.2
    intro rule hrule hmem
    obtain ⟨test, htest, rfl⟩ := List.mem_map.1 hrule
    simp only [sourceRule, isTest_of_mem_testSources htest, if_true, List.mem_singleton,
      decide_eq_true_eq] at hmem
    exact testProgram_not_mem_commonTargets h hcheck htest (hmem ▸ htarget)
  rw [rulesFor, rules_lines_of_program h hprogram, rulesBefore]
  simp only [List.filter_append, hobjects, hprograms, List.append_nil]

end targets

/-- Each source is passed to the compiler by one rule. The rules that compile only are those of the
sources that are no tests, and what they make are the words of `BIN_OBJ_FILES`; the rules that link
with the objects under test are those of the tests, and what they make are the prerequisites of the
rule `tests`, which is there if there is a test and is phony then, and what `clean` removes besides
the directory for objects and the program. Apart from the list of phony targets, no two rules have
one target. -/
theorem render_partition {s : Settings} (hconfig : Config.ofSettings s = .ok c)
    (hrender : render g c = .ok text) (hreadable : Readable g c) (hkeys : g.files.Nodup) :
    (∀ source ∈ g.sources c.extension,
      (rules (readings text)).filter (Rule.passes source) = [sourceRule c source] ∧
      (sourceRule c source ∈ objectRules (readings text) ↔ c.isTest source = false) ∧
      (sourceRule c source ∈ testRules (readings text) ↔ c.isTest source = true)) ∧
    (∃ objects, (readings text).filter (Reading.assigns "BIN_OBJ_FILES") =
        [.assignment "BIN_OBJ_FILES" objects] ∧ objects.Nodup ∧
      (objectRules (readings text)).map Rule.targets = objects.map fun object => [object]) ∧
    (∃ programs, programs.Nodup ∧
      (testRules (readings text)).map Rule.targets = programs.map (fun program => [program]) ∧
      ((∃ source ∈ g.sources c.extension, c.isTest source = true) →
        rulesFor "tests" (readings text) = [⟨["tests"], programs, []⟩]) ∧
      rulesFor "clean" (readings text) =
        [⟨["clean"], [], [["rm", "-rf", objectDirectoryRef, c.program] ++ programs]⟩]) ∧
    ∃ before phony after,
      rules (readings text) = before ++ ⟨[".PHONY"], phony, []⟩ :: after ∧
      ("tests" ∈ phony ↔ ∃ source ∈ g.sources c.extension, c.isTest source = true) ∧
      ((before ++ after).flatMap Rule.targets).Nodup := by
  obtain ⟨hcheck, rfl⟩ := of_render hrender
  have hprogram := (Config.isComplete_of_ofSettings hconfig).program
  have hdistinct := nodup_targets hreadable hkeys hcheck
  obtain ⟨-, hmade, -⟩ := List.nodup_append.1 hdistinct
  obtain ⟨hobjects, hprograms, -⟩ := List.nodup_append.1 hmade
  have htests : (testSources g c).isEmpty = false ↔
      ∃ source ∈ g.sources c.extension, c.isTest source = true := by
    simp [testSources]
  refine ⟨?_, ⟨_, filter_assigns_objects hreadable, hobjects, ?_⟩, ⟨_, hprograms, ?_, ?_, ?_⟩,
    rulesBefore g c, _, _, rules_lines_of_program hreadable hprogram, ?_, ?_⟩
  · intro source hsource
    exact ⟨filter_passes_source hreadable hkeys hsource,
      mem_objectRules_iff hreadable hkeys hsource, mem_testRules_iff hreadable hkeys hsource⟩
  · rw [objectRules_lines hreadable, targets_programSources]
  · rw [testRules_lines hreadable, targets_testSources]
  · intro hexists
    have hsome := htests.2 hexists
    have htarget : "tests" ∈ commonTargets (testSources g c) := by
      simp [commonTargets, hsome]
    rw [rulesFor_lines hreadable hprogram hcheck htarget]
    simp [openingRules, testsRules, cleanRule, objectDirectoryRef, hsome]
  · have htarget : "clean" ∈ commonTargets (testSources g c) := by
      simp [commonTargets]
    rw [rulesFor_lines hreadable hprogram hcheck htarget]
    unfold testsRules
    split
    · simp [openingRules, cleanRule, objectDirectoryRef]
    · simp [openingRules, cleanRule, objectDirectoryRef]
  · rw [← htests, phonyTargets]
    cases (testSources g c).isEmpty with
    | true => decide
    | false => decide
  · exact (targets_perm g c).nodup_iff.2 hdistinct

/-- Settings that give the configuration of the cyclic project. -/
def cyclicSettings : Settings where
  extension := some ".c"
  program := some "app"
  compiler := some "gcc -pipe"
  standard := some "-std=c99"
  optimization := none
  tests := some [" ./t", ""]
  entryPoint := some "a"

/-- The Makefile of the cyclic project has one rule for its test. -/
theorem render_partition_cyclic :
    Config.ofSettings cyclicSettings = .ok cyclicConfig ∧
    render cyclicGraph cyclicConfig = .ok (print (lines cyclicGraph cyclicConfig)) ∧
    Readable cyclicGraph cyclicConfig ∧ cyclicGraph.files.Nodup ∧
    (rules (readings (print (lines cyclicGraph cyclicConfig)))).filter (Rule.passes "t.c") =
      [sourceRule cyclicConfig "t.c"] := by
  have hconfig : Config.ofSettings cyclicSettings = .ok cyclicConfig := by cbv
  have hkeys : cyclicGraph.files.Nodup := by decide
  have hsource : "t.c" ∈ cyclicGraph.sources cyclicConfig.extension :=
    mem_sources.2 ⟨by decide, by decide⟩
  obtain ⟨hsources, -⟩ := render_partition hconfig render_cyclic readable_cyclic hkeys
  obtain ⟨honce, -⟩ := hsources "t.c" hsource
  exact ⟨hconfig, render_cyclic, readable_cyclic, hkeys, honce⟩

/-- A source with an equals sign in its name. -/
def equalsGraph : Graph := ⟨[("a=b.c", [])], []⟩

/-- No name in that graph or its configuration has a blank, a dollar sign, a colon or a hash in it.
Still no rule compiles the source: the line with its object is an assignment. -/
theorem render_loses_rule :
    Config.ofSettings cyclicSettings = .ok cyclicConfig ∧
    render equalsGraph cyclicConfig = .ok (print (lines equalsGraph cyclicConfig)) ∧
    (cyclicConfig.program :: cyclicConfig.entryPoint :: equalsGraph.mentioned).all
      (fun name => name.toList.all fun c => c ∉ ['$', ':', '#'] ∧ Text.isBlank c = false) = true ∧
    "a=b.c" ∈ equalsGraph.sources cyclicConfig.extension ∧
    (rules (readings (print (lines equalsGraph cyclicConfig)))).filter (Rule.passes "a=b.c") =
      [] := by
  have hcheck : check (equalsGraph.sources cyclicConfig.extension)
      (testSources equalsGraph cyclicConfig) cyclicConfig = .ok () := by
    cbv
  have hlines : lines equalsGraph cyclicConfig =
      [ .assign "CC" ["gcc -pipe"], .assign "CFLAGS" ["-Wall"], .append "CFLAGS" ["-std=c99"],
        .append "CFLAGS" ["-O0"], .assignTrimmed "LFLAGS" [], .blank, .assign "ODIR" [".OBJ"],
        .blank, .assign "A_B_DEPS" ["a=b.c"], .blank, .rule "all" ["bin"] [], .blank,
        .rule objectDirectoryRef [] [], .recipe ["@mkdir", "-p", objectDirectoryRef], .blank,
        .assignTrimmed "BIN_OBJ_FILES" ["$(ODIR)/a=b.o"], .blank,
        .rule "bin" [objectDirectoryRef, programObjects] [],
        .recipe [compiler, programObjects, "-o", "app", linkerFlags], .blank,
        .rule "$(ODIR)/a=b.o" ["$(A_B_DEPS)"] [objectDirectoryRef],
        .recipe [compiler, "-c", "a=b.c", compilerFlags, "-o", "$(ODIR)/a=b.o"], .blank,
        .rule ".PHONY" ["all", "bin", "clean"] [], .blank, .rule "clean" [] [],
        .recipe ["rm", "-rf", objectDirectoryRef, "app"] ] := by
    cbv
  have hrules : (rules (readings (print (lines equalsGraph cyclicConfig)))).filter
      (Rule.passes "a=b.c") = [] := by
    rw [hlines, readings_print_eq_map (by decide)]
    decide
  refine ⟨by cbv, ?_, by decide, mem_sources.2 ⟨by decide, by decide⟩, hrules⟩
  rw [render, hcheck]

end MakeDeps.Makefile
