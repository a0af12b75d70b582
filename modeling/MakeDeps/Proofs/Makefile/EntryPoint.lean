import MakeDeps.Proofs.Makefile.Partition

/-!
# The objects that tests are linked with

Tests are linked with the objects of the program, filtered: the object of the entry point is left
out. Its name is made from the configured entry point and not from a source, and the filtering is
left to a call in the Makefile, where a comma ends the pattern and filtering compares names only. If
the entry point is a literal, the object left out is that of the source which it stands for, and no
other object goes with it: `render_filterOut`.
-/

namespace MakeDeps.Makefile

variable {g : Graph} {c : Config} {source text pattern word : String} {env : Environment}

/-- Is the text one pattern of a call, and does it match nothing but itself? -/
def IsLiteral (s : String) : Prop :=
  ∀ c ∈ s.toList, Text.isBlank c = false ∧ c ≠ '%' ∧ c ≠ ','

/-- Whether a text is literal can be computed. -/
instance (s : String) : Decidable (IsLiteral s) :=
  decidable_of_iff (s.toList.all (fun c => !Text.isBlank c && (c != '%' && c != ',')) = true)
    (by simp [IsLiteral])

/-- A literal text is still one where its directories are joined. -/
lemma IsLiteral.flatten (h : IsLiteral source) : IsLiteral (flatten source) := by
  intro c hc
  rcases eq_or_mem_of_mem_flatten hc with rfl | hc
  · decide
  · exact h c hc

/-- Without a percent sign, a pattern matches itself and nothing else. -/
lemma matchesPattern_of_not_mem (h : '%' ∉ pattern.toList) (word : String) :
    matchesPattern pattern word = decide (word = pattern) := by
  unfold matchesPattern
  split
  · next front back hcut =>
    obtain ⟨heq, -⟩ := Text.eq_of_cutFirst hcut
    exact absurd (heq ▸ List.mem_append_right _ List.mem_cons_self) h
  · rfl

/-- A pattern without a percent sign takes from the words those that are equal to it. -/
lemma filterOut_word (hpattern : Text.IsWord pattern) (hpercent : '%' ∉ pattern.toList)
    (words : List Char) :
    filterOut pattern.toList words = (Text.words words).filter (· ≠ pattern) := by
  rw [filterOut, hpattern.words]
  apply List.filter_congr
  intro word _
  simp [matchesPattern_of_not_mem hpercent]

/-- Where a function tells the members of a list apart, filtering the image of one of them out of
the images erases it from the list. -/
lemma filter_ne_map {f : String → String} {x : String} {xs : List String}
    (hnodup : (xs.map f).Nodup) (hx : x ∈ xs) :
    (xs.map f).filter (· ≠ f x) = (xs.erase x).map f := by
  rw [hnodup.of_map.erase_eq_filter, List.filter_map]
  congr 1
  apply List.filter_congr
  intro y hy
  have hinj : f y = f x ↔ y = x := ⟨List.inj_on_of_nodup_map hnodup hy hx, congrArg f⟩
  simp [hinj, bne, Bool.beq_eq_decide_eq]

section call

variable {arguments : List String}

/-- What tests are linked with is assigned once, in front of their rules. -/
lemma environment_ending_tested (hsome : (testSources g c).isEmpty = false)
    (harguments : (Line.assign "ALL_BIN_OBJS_WO_MAIN"
      ["$(filter-out", entryObject c ++ ",", programObjects ++ ")"]).reading =
        .assignment "ALL_BIN_OBJS_WO_MAIN" arguments) :
    environment env (ending g c) "ALL_BIN_OBJS_WO_MAIN" =
      expand env (Line.words arguments).toList := by
  have hnone : (((testSources g c).flatMap testLines ++
      cleanLines (testSources g c) c).map Line.reading).filter
        (Reading.assigns "ALL_BIN_OBJS_WO_MAIN") = [] := by
    apply filter_assigns_eq_nil
    rw [assigned_append]
    exact not_or.2 ⟨not_assigned_testLines _ _, not_assigned_cleanLines _ _ c⟩
  rw [ending, testsLines, hsome, if_neg Bool.false_ne_true, List.append_assoc, List.map_append,
    List.append_assoc, environment_append, environment_append]
  simp only [List.map_cons, List.map_nil, harguments]
  have hend : [Reading.nothing].filter (Reading.assigns "ALL_BIN_OBJS_WO_MAIN") = [] := rfl
  show environment (environment (Function.update env "ALL_BIN_OBJS_WO_MAIN" _) _) [.nothing] _ = _
  rw [environment_of_not_assigned hend, environment_of_not_assigned hnone, Function.update_self]
  rfl

/-- The words of the call are the words of the line if there is no blank and no hash in the entry
point. -/
lemma reading_assign_tested (hblank : ∀ ch ∈ c.entryPoint.toList, Text.isBlank ch = false)
    (hentry : IsArgument c.entryPoint) :
    (Line.assign "ALL_BIN_OBJS_WO_MAIN"
      ["$(filter-out", entryObject c ++ ",", programObjects ++ ")"]).reading =
        .assignment "ALL_BIN_OBJS_WO_MAIN"
          ["$(filter-out", entryObject c ++ ",", "$(BIN_OBJ_FILES))"] := by
  have hentryChar : ∀ ch ∈ (flatten c.entryPoint).toList, Text.isBlank ch = false ∧ ch ≠ '#' := by
    intro ch hch
    rcases eq_or_mem_of_mem_flatten hch with rfl | hch
    · decide
    · exact ⟨hblank ch hch, fun heq => hentry.2 ch hch (by simp [heq])⟩
  have hlist : (entryObject c ++ ",").toList =
      "$(ODIR)/".toList ++ ((flatten c.entryPoint).toList ++ ".o,".toList) := by
    simp [entryObject, inObjectDirectory]
  have hword : Text.IsWord (entryObject c ++ ",") ∧ '#' ∉ (entryObject c ++ ",").toList := by
    have hchars : ∀ ch ∈ (entryObject c ++ ",").toList, Text.isBlank ch = false ∧ ch ≠ '#' := by
      rw [hlist, List.forall_mem_append, List.forall_mem_append]
      exact ⟨by simp [Text.isBlank], hentryChar, by simp [Text.isBlank]⟩
    refine ⟨⟨?_, fun ch hch => (hchars ch hch).1⟩, fun hmem => (hchars _ hmem).2 rfl⟩
    intro hempty
    rw [hempty] at hlist
    cases hlist
  have hwords : ∀ item ∈ ["$(filter-out", entryObject c ++ ",", programObjects ++ ")"],
      Text.IsWord item := by
    simp only [List.forall_mem_cons]
    exact ⟨by decide, hword.1, by decide, by simp⟩
  have hhash : '#' ∉ (Line.words
      ["$(filter-out", entryObject c ++ ",", programObjects ++ ")"]).toList := by
    apply Line.not_mem_words (by decide)
    simp only [List.forall_mem_cons]
    exact ⟨by decide, hword.2, by decide, by simp⟩
  rw [Line.reading, uncommented_eq_self hhash, Text.words_joined, Text.allWords_eq_self hwords]
  rfl

/-- The text of the call. -/
lemma toList_call (c : Config) {front back : List Char}
    (hcut : '/' :: (flatten c.entryPoint).toList ++ ".o, ".toList = front ++ ',' :: back) :
    (Line.words ["$(filter-out", entryObject c ++ ",", "$(BIN_OBJ_FILES))"]).toList =
      "$(filter-out ".toList ++ ((reference "ODIR").toList ++
        (front ++ ',' :: (back ++ ((reference "BIN_OBJ_FILES").toList ++ [')'])))) := by
  have hjoined : (Line.words ["$(filter-out", entryObject c ++ ",", "$(BIN_OBJ_FILES))"]).toList =
      "$(filter-out ".toList ++ ((reference "ODIR").toList ++
        (('/' :: (flatten c.entryPoint).toList ++ ".o, ".toList) ++
          ((reference "BIN_OBJ_FILES").toList ++ [')']))) := by
    simp [Line.words, entryObject, inObjectDirectory, reference]
  rw [hjoined, hcut]
  simp

/-- What tests are linked with, where the call is cut at a comma. -/
lemma environment_tested (h : Readable g c) (hsome : (testSources g c).isEmpty = false)
    (hblank : ∀ ch ∈ c.entryPoint.toList, Text.isBlank ch = false) {front back : List Char}
    (hcut : '/' :: (flatten c.entryPoint).toList ++ ".o, ".toList = front ++ ',' :: back)
    (hcomma : ',' ∉ front) (env : Environment) :
    environment env (readings (print (lines g c))) "ALL_BIN_OBJS_WO_MAIN" =
      (Line.words (filterOut (objectDirectory.toList ++ front) (back ++
        environment (environment env (opening g c)) (middle g c) "BIN_OBJ_FILES"))).toList := by
  have hsub : ['$', '(', ')'] ⊆ ['$', '#', '(', ')', '\x00'] := by simp
  have hquiet : ∀ ch ∈ front ++ ',' :: back, ch ∉ ['$', '(', ')'] := by
    rw [← hcut, List.cons_append, List.forall_mem_cons, List.forall_mem_append]
    refine ⟨by simp, ?_, by simp⟩
    intro ch hch
    rcases eq_or_mem_of_mem_flatten hch with rfl | hch
    · simp
    · exact fun hmem => h.entryPoint.2 ch hch (hsub hmem)
  have hfront : ∀ ch ∈ front, ch ∉ ['$', '(', ')', ','] := by
    intro ch hch
    have hother := hquiet ch (List.mem_append_left _ hch)
    have hne : ch ≠ ',' := fun heq => hcomma (heq ▸ hch)
    simp only [List.mem_cons, List.not_mem_nil, or_false, not_or] at hother ⊢
    exact ⟨hother.1, hother.2.1, hother.2.2, hne⟩
  have hback : ∀ ch ∈ back, ch ∉ ['$', '(', ')'] := fun ch hch =>
    hquiet ch (List.mem_append_right _ (List.mem_cons_of_mem _ hch))
  have hdirectory : IsPlain "ODIR" := by decide
  have hobjects : IsPlain "BIN_OBJ_FILES" := by decide
  rw [environment_lines h,
    environment_ending_tested hsome (reading_assign_tested hblank h.entryPoint), toList_call c hcut,
    expand_filterOut hdirectory hobjects hfront hback, environment_middle_directory h]

/-- If there is a test, one line says what tests are linked with. -/
lemma filter_assigns_tested (h : Readable g c) (hsome : (testSources g c).isEmpty = false)
    (hblank : ∀ ch ∈ c.entryPoint.toList, Text.isBlank ch = false) :
    (readings (print (lines g c))).filter (Reading.assigns "ALL_BIN_OBJS_WO_MAIN") =
      [.assignment "ALL_BIN_OBJS_WO_MAIN"
        ["$(filter-out", entryObject c ++ ",", "$(BIN_OBJ_FILES))"]] := by
  rw [filter_readings_lines h, filter_assigns_eq_nil (mt assigned_toolchainLines.1 (by decide)),
    filter_assigns_eq_nil (not_assigned_variableLines (by decide) (by decide)),
    filter_assigns_eq_nil (mt assigned_programLines.1 (by decide)), testsLines, hsome,
    if_neg Bool.false_ne_true, List.map_append, List.filter_append,
    filter_assigns_eq_nil (not_assigned_testLines _ (testSources g c))]
  simp only [List.map_cons, List.map_nil, reading_assign_tested hblank h.entryPoint]
  rfl

end call

/-- The object of the entry point in the directory for objects. -/
def entryProduct (c : Config) : String :=
  objectDirectory ++ "/" ++ (flatten c.entryPoint ++ ".o")

/-- Object files have one path if they have one name. -/
lemma objectProduct_inj {name other : String} :
    objectDirectory ++ "/" ++ (name ++ ".o") = objectDirectory ++ "/" ++ (other ++ ".o") ↔
      name = other := by
  simp [← String.toList_inj]

/-- The objects of the program that tests are linked with if the entry point is a literal. -/
def testedProducts (g : Graph) (c : Config) : List String :=
  ((programSources g c).map objectProduct).filter (· ≠ entryProduct c)

/-- The objects that tests are linked with are words. -/
lemma isWord_of_mem_testedProducts (h : Readable g c) :
    ∀ object ∈ testedProducts g c, Text.IsWord object := by
  intro object hobject
  obtain ⟨source, hsource, rfl⟩ := List.mem_map.1 (List.mem_filter.1 hobject).1
  exact isWord_objectProduct (h.isPlain (mem_sources_of_mem_programSources hsource))

/-- With a literal entry point, tests are linked with the objects of the program that are not its
object. -/
lemma environment_tested_literal (h : Readable g c) (hsome : (testSources g c).isEmpty = false)
    (hentry : IsLiteral c.entryPoint) (env : Environment) :
    environment env (readings (print (lines g c))) "ALL_BIN_OBJS_WO_MAIN" =
      (Line.words (testedProducts g c)).toList := by
  have hname : ∀ ch ∈ (flatten c.entryPoint).toList,
      Text.isBlank ch = false ∧ ch ≠ '%' ∧ ch ≠ ',' :=
    hentry.flatten
  have hlist : (entryProduct c).toList =
      objectDirectory.toList ++ ('/' :: (flatten c.entryPoint).toList ++ ".o".toList) := by
    simp [entryProduct]
  have hchars : ∀ ch ∈ (entryProduct c).toList, Text.isBlank ch = false ∧ ch ≠ '%' ∧ ch ≠ ',' := by
    rw [hlist, List.forall_mem_append, List.cons_append, List.forall_mem_cons,
      List.forall_mem_append]
    exact ⟨by simp [objectDirectory, Text.isBlank], by decide, hname, by simp [Text.isBlank]⟩
  have hpattern : Text.IsWord (entryProduct c) := by
    refine ⟨fun hempty => ?_, fun ch hch => (hchars ch hch).1⟩
    rw [hempty] at hlist
    cases hlist
  have hpercent : '%' ∉ (entryProduct c).toList := fun hmem => (hchars _ hmem).2.1 rfl
  have hcomma : ',' ∉ '/' :: (flatten c.entryPoint).toList ++ ".o".toList := by
    intro hmem
    exact (hchars ',' (hlist ▸ List.mem_append_right _ hmem)).2.2 rfl
  have hcut : '/' :: (flatten c.entryPoint).toList ++ ".o, ".toList =
      ('/' :: (flatten c.entryPoint).toList ++ ".o".toList) ++ ',' :: [' '] := by
    simp
  rw [environment_tested h hsome (fun ch hch => (hentry ch hch).1) hcut hcomma env, ← hlist,
    filterOut_word hpattern hpercent, List.singleton_append, Text.words_blank_cons (by decide),
    words_programObjects h, testedProducts]

/-- Where there is a test, one line of the Makefile says what the objects of the program are, and
one filters them by a pattern for the tests, which are linked with what is left. If the entry point
stands for a source of the program, the pattern is the object of that source; it is one of the
objects, and what is left are those of the other sources. If the entry point without directories
stands for no source of the program, then all objects are left. The values are those that there are
when commands run, at the end of the Makefile. -/
theorem render_filterOut (hrender : render g c = .ok text) (hreadable : Readable g c)
    (hkeys : g.files.Nodup) (htest : ∃ source ∈ g.sources c.extension, c.isTest source = true)
    (hentry : IsLiteral c.entryPoint) (env : Environment) :
    ∃ objects pattern,
      (readings text).filter (Reading.assigns "BIN_OBJ_FILES") =
        [.assignment "BIN_OBJ_FILES" objects] ∧
      (readings text).filter (Reading.assigns "ALL_BIN_OBJS_WO_MAIN") =
        [.assignment "ALL_BIN_OBJS_WO_MAIN" ["$(filter-out", pattern ++ ",", "$(BIN_OBJ_FILES))"]] ∧
      (∀ test ∈ testSources g c, sourceRule c test ∈ rules (readings text) ∧
        (sourceRule c test).recipe = [[compiler, compilerFlags, test, "$(ALL_BIN_OBJS_WO_MAIN)",
          "-o", testProgram test, linkerFlags]]) ∧
      expandWords (environment env (readings text)) ["$(BIN_OBJ_FILES)"] =
        (programSources g c).map objectProduct ∧
      (∀ source ∈ programSources g c, Path.stripExtension source = c.entryPoint →
        pattern = objectFile source ∧ objects.count pattern = 1 ∧
        expandWords (environment env (readings text)) ["$(ALL_BIN_OBJS_WO_MAIN)"] =
          ((programSources g c).erase source).map objectProduct) ∧
      ((∀ source ∈ programSources g c, flatName source ≠ flatten c.entryPoint) →
        expandWords (environment env (readings text)) ["$(ALL_BIN_OBJS_WO_MAIN)"] =
          (programSources g c).map objectProduct) := by
  obtain ⟨hcheck, rfl⟩ := of_render hrender
  have hsome : (testSources g c).isEmpty = false := by
    simpa [testSources] using htest
  have hobjects : ((programSources g c).map objectFile).Nodup :=
    nodup_made hkeys hcheck (fun _ => mem_sources_of_mem_programSources)
      ((nodup_sources hkeys).filter _) fun _ _ => variableName_of_objectFile
  have hproducts : ((programSources g c).map objectProduct).Nodup := by
    refine nodup_made hkeys hcheck (fun _ => mem_sources_of_mem_programSources)
      ((nodup_sources hkeys).filter _) fun source other heq => ?_
    have hname : flatName source = flatName other := objectProduct_inj.1 heq
    exact variableName_of_objectFile (congrArg inObjectDirectory hname)
  have hlinked : expandWords (environment env (readings (print (lines g c))))
      ["$(ALL_BIN_OBJS_WO_MAIN)"] = testedProducts g c := by
    rw [← show reference "ALL_BIN_OBJS_WO_MAIN" = "$(ALL_BIN_OBJS_WO_MAIN)" by decide,
      expandWords_reference (by decide), environment_tested_literal hreadable hsome hentry,
      Text.words_joined, Text.allWords_eq_self (isWord_of_mem_testedProducts hreadable)]
  refine ⟨_, _, filter_assigns_objects hreadable,
    filter_assigns_tested hreadable hsome fun ch hch => (hentry ch hch).1, ?_, ?_, ?_, ?_⟩
  · intro test htest
    have hrule : c.isTest test = true := (List.mem_filter.1 htest).2
    refine ⟨sourceRule_mem_rules hreadable hkeys (mem_sources_of_mem_testSources htest), ?_⟩
    rw [sourceRule, if_pos hrule]
    rfl
  · rw [← show reference "BIN_OBJ_FILES" = "$(BIN_OBJ_FILES)" by decide,
      expandWords_reference (by decide), environment_lines hreadable,
      environment_of_not_assigned (filter_assigns_ending (by decide)),
      words_programObjects hreadable]
  · intro source hsource hstem
    have hobject : entryObject c = objectFile source := by
      rw [entryObject, ← hstem, objectFile, flatName]
    have hproduct : entryProduct c = objectProduct source := by
      rw [entryProduct, ← hstem, objectProduct, flatName]
    rw [hlinked, hobject, testedProducts, hproduct]
    exact ⟨rfl, List.count_eq_one_of_mem hobjects (List.mem_map_of_mem hsource),
      filter_ne_map hproducts hsource⟩
  · intro hother
    rw [hlinked, testedProducts, List.filter_eq_self]
    intro object hobject
    obtain ⟨source, hsource, rfl⟩ := List.mem_map.1 hobject
    have hne : objectProduct source ≠ entryProduct c := fun heq =>
      hother source hsource (objectProduct_inj.1 heq)
    simpa using hne

/-- Sources of a program in a directory, one of them with two extensions, and a test. -/
def nestedGraph : Graph where
  dependencies := [("src/lib.c", ["src/lib.h"]), ("src/app.v2.c", ["src/lib.h"]), ("src/lib.h", []),
    ("t/lib.c", ["src/lib.h"])]
  libraries := []

/-- A configuration whose entry point is the source with two extensions. -/
def nestedConfig : Config where
  compiler := "gcc"
  extension := "c"
  program := "app"
  standard := "c99"
  optimization := "O0"
  tests := ["t/"]
  entryPoint := "src/app.v2"

/-- The sources in that graph. -/
lemma sources_nested : nestedGraph.sources nestedConfig.extension =
    ["src/app.v2.c", "src/lib.c", "t/lib.c"] :=
  sources_eq (by decide) (by decide)

/-- There is a Makefile for them. -/
lemma render_nested :
    render nestedGraph nestedConfig = .ok (print (lines nestedGraph nestedConfig)) := by
  have hcheck : check ["src/app.v2.c", "src/lib.c", "t/lib.c"] ["t/lib.c"] nestedConfig =
      .ok () := by
    cbv
  have htests : testSources nestedGraph nestedConfig = ["t/lib.c"] := by
    rw [testSources, sources_nested]
    decide
  rw [render, sources_nested, htests, hcheck]

/-- Nothing in that graph gets in the way of reading its Makefile. -/
lemma readable_nested : Readable nestedGraph nestedConfig := by
  obtain ⟨hsources, htests⟩ := starts_of_files (g := nestedGraph) (c := nestedConfig) (by decide)
  exact ⟨by decide, hsources, htests, by decide, by decide, by decide, by decide, by decide,
    by decide, by decide⟩

/-- The test is linked with the object of the other source. -/
theorem render_filterOut_nested :
    render nestedGraph nestedConfig = .ok (print (lines nestedGraph nestedConfig)) ∧
    Readable nestedGraph nestedConfig ∧ nestedGraph.files.Nodup ∧
    (∃ source ∈ nestedGraph.sources nestedConfig.extension, nestedConfig.isTest source = true) ∧
    IsLiteral nestedConfig.entryPoint ∧
    ∀ env, expandWords (environment env (readings (print (lines nestedGraph nestedConfig))))
      ["$(ALL_BIN_OBJS_WO_MAIN)"] = [".OBJ/src_lib.o"] := by
  have hkeys : nestedGraph.files.Nodup := by decide
  have htest : ∃ source ∈ nestedGraph.sources nestedConfig.extension,
      nestedConfig.isTest source = true := by
    rw [sources_nested]
    decide
  have hentry : IsLiteral nestedConfig.entryPoint := by decide
  have hprogram : programSources nestedGraph nestedConfig = ["src/app.v2.c", "src/lib.c"] := by
    rw [programSources, sources_nested]
    decide
  refine ⟨render_nested, readable_nested, hkeys, htest, hentry, fun env => ?_⟩
  obtain ⟨objects, pattern, -, -, -, -, hentryPoint, -⟩ :=
    render_filterOut render_nested readable_nested hkeys htest hentry env
  rw [hprogram] at hentryPoint
  obtain ⟨-, -, hlinked⟩ := hentryPoint "src/app.v2.c" (by decide) (by decide)
  rw [hlinked]
  decide

/-- A program of one source with a comma in its name, and a test. -/
def commaGraph : Graph := ⟨[("a,b.c", []), ("t.c", [])], []⟩

/-- A configuration whose entry point is that source. -/
def commaConfig : Config :=
  { cyclicConfig with entryPoint := "a,b" }

/-- The sources in that graph. -/
lemma sources_comma : commaGraph.sources commaConfig.extension = ["a,b.c", "t.c"] :=
  sources_eq (by decide) (by decide)

/-- No path and no entry point in that project has a blank or a percent sign in it, and the entry
point is a source of the program. Still the test is linked with the object of that source, and with
what stands between the comma in its name and the one that was meant. -/
theorem render_links_entry :
    render commaGraph commaConfig = .ok (print (lines commaGraph commaConfig)) ∧
    (commaConfig.entryPoint :: commaGraph.mentioned).all
      (fun name => name.toList.all fun c => Text.isBlank c = false ∧ c ≠ '%') = true ∧
    (∃ test ∈ commaGraph.sources commaConfig.extension, commaConfig.isTest test = true) ∧
    programSources commaGraph commaConfig = ["a,b.c"] ∧
    Path.stripExtension "a,b.c" = commaConfig.entryPoint ∧
    ∀ env, expandWords (environment env (readings (print (lines commaGraph commaConfig))))
      ["$(ALL_BIN_OBJS_WO_MAIN)"] = ["b.o,", objectProduct "a,b.c"] := by
  have hprogram : programSources commaGraph commaConfig = ["a,b.c"] := by
    rw [programSources, sources_comma]
    decide
  have htests : testSources commaGraph commaConfig = ["t.c"] := by
    rw [testSources, sources_comma]
    decide
  have hrender : render commaGraph commaConfig = .ok (print (lines commaGraph commaConfig)) := by
    have hcheck : check ["a,b.c", "t.c"] ["t.c"] commaConfig = .ok () := by
      cbv
    rw [render, sources_comma, htests, hcheck]
  have hreadable : Readable commaGraph commaConfig := by
    obtain ⟨hsources, hstarts⟩ := starts_of_files (g := commaGraph) (c := commaConfig) (by decide)
    exact ⟨by decide, hsources, hstarts, by decide, by decide, by decide, by decide, by decide,
      by decide, by decide⟩
  have hsome : (testSources commaGraph commaConfig).isEmpty = false := by
    rw [htests]
    rfl
  have hblank : ∀ ch ∈ commaConfig.entryPoint.toList, Text.isBlank ch = false := by
    simp [commaConfig, Text.isBlank]
  have hcut : '/' :: (flatten commaConfig.entryPoint).toList ++ ".o, ".toList =
      "/a".toList ++ ',' :: "b.o, ".toList := by decide
  have hpattern : Text.IsWord ".OBJ/a" := by decide
  refine ⟨hrender, by decide, by rw [sources_comma]; decide, hprogram, by decide, fun env => ?_⟩
  rw [← show reference "ALL_BIN_OBJS_WO_MAIN" = "$(ALL_BIN_OBJS_WO_MAIN)" by decide,
    expandWords_reference (by decide),
    environment_tested hreadable hsome hblank hcut (by decide) env,
    show objectDirectory.toList ++ "/a".toList = ".OBJ/a".toList by decide,
    filterOut_word hpattern (by decide),
    show "b.o, ".toList = "b.o,".toList ++ [' '] by decide, List.append_assoc,
    List.singleton_append,
    Text.words_append_blank (by decide), words_programObjects hreadable, hprogram]
  decide

end MakeDeps.Makefile
