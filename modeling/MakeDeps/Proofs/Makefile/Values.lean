import MakeDeps.Proofs.Makefile.Expansion
import MakeDeps.Proofs.Makefile.Render

/-!
# The values of the variables of a Makefile

A rendered Makefile assigns most variables before its first rule, so all rules begin with the same
values of these (`value_of_mem_rulesIn_lines`). The objects of the program, and those that tests are
linked with, are assigned further down; they are expanded with the values that there are by then
(`words_programObjects`, `words_testedObjects`).
-/

namespace MakeDeps.Makefile

variable {g : Graph} {c : Config} {env here : Environment} {name source text : String}
  {value : List String}

/-- What the lines before the first rule say. -/
def opening (g : Graph) (c : Config) : List Reading :=
  (toolchainLines g c ++ variableLines g (g.sources c.extension)).map Line.reading

/-- What the lines from the first rule to the assignment behind the rules of objects say. -/
def middle (g : Graph) (c : Config) : List Reading :=
  (programLines (programSources g c) c ++ (programSources g c).flatMap objectLines).map Line.reading

/-- What the lines about tests and those at the end say. -/
def ending (g : Graph) (c : Config) : List Reading :=
  (testsLines (testSources g c) c ++ cleanLines (testSources g c) c).map Line.reading ++ [.nothing]

/-- The Makefile says what its parts say. -/
lemma readings_lines (h : Readable g c) :
    readings (print (lines g c)) = opening g c ++ (middle g c ++ ending g c) := by
  rw [readings_print (fits_lines h)]
  simp [lines, opening, middle, ending]

/-- There is no rule at the beginning. -/
lemma rules_opening (g : Graph) (c : Config) : rules (opening g c) = [] := by
  have hmakes := (makes_toolchainLines g c).append (makes_variableLines g (g.sources c.extension))
  rw [opening, List.map_append]
  exact hmakes.2

/-- Behind the beginning, one variable is assigned in front of the rules of objects. -/
lemma filter_assigns_middle (h : name ≠ "BIN_OBJ_FILES") :
    (middle g c).filter (Reading.assigns name) = [] := by
  apply filter_assigns_eq_nil
  rw [assigned_append, assigned_programLines]
  exact not_or.2 ⟨h, not_assigned_objectLines name _⟩

/-- Another one is assigned in front of the rules of tests. -/
lemma filter_assigns_ending (h : name ≠ "ALL_BIN_OBJS_WO_MAIN") :
    (ending g c).filter (Reading.assigns name) = [] := by
  rw [ending, List.filter_append, filter_assigns_eq_nil]
  · rfl
  · rw [assigned_append]
    exact not_or.2 ⟨not_assigned_testsLines h, not_assigned_cleanLines name _ c⟩

/-- What one line at the beginning assigns has its value wherever a rule begins. -/
lemma value_of_mem_rulesIn_lines (h : Readable g c) {rule : Rule}
    (hrule : (here, rule) ∈ rulesIn env (readings (print (lines g c))))
    (hobjects : name ≠ "BIN_OBJ_FILES") (htested : name ≠ "ALL_BIN_OBJS_WO_MAIN")
    (hassigned : (readings (print (lines g c))).filter (Reading.assigns name) =
      [.assignment name value]) (hvalue : '$' ∉ (Line.words value).toList) :
    here name = (Line.words value).toList := by
  have hnone : (middle g c ++ ending g c).filter (Reading.assigns name) = [] := by
    rw [List.filter_append, filter_assigns_middle hobjects, filter_assigns_ending htested]
    rfl
  rw [readings_lines h, List.filter_append, hnone, List.append_nil] at hassigned
  rw [readings_lines h, rulesIn_append (rules_opening g c)] at hrule
  rw [value_of_mem_rulesIn hrule hnone, environment_of_assigned hassigned hvalue]

/-- The directory for objects is assigned once. -/
lemma filter_assigns_directory (h : Readable g c) :
    (readings (print (lines g c))).filter (Reading.assigns "ODIR") =
      [.assignment "ODIR" [objectDirectory]] := by
  have hsources : (((g.sources c.extension).map fun source =>
      Line.assign (variableName source) (g.closure source)).map Line.reading).filter
        (Reading.assigns "ODIR") = [] := by
    apply filter_assigns_eq_nil
    rintro ⟨line, hline, hassigns⟩
    obtain ⟨source, -, rfl⟩ := List.mem_map.1 hline
    have hname : variableName source ≠ "ODIR" := variableName_ne (by decide)
    simp [Line.reading, Reading.assigns, hname] at hassigns
  have hdirectory : (Line.assign "ODIR" [objectDirectory]).reading =
      .assignment "ODIR" [objectDirectory] := by decide
  rw [filter_readings_lines h, filter_assigns_eq_nil (mt assigned_toolchainLines.1 (by decide)),
    filter_assigns_eq_nil (mt assigned_programLines.1 (by decide)),
    filter_assigns_eq_nil (not_assigned_testsLines (by decide))]
  simp only [variableLines, List.map_append, List.filter_append, hsources, List.map_cons,
    List.map_nil, hdirectory]
  rfl

/-- The directory for objects where the first rule begins. -/
lemma environment_opening_directory (h : Readable g c) (env : Environment) :
    environment env (opening g c) "ODIR" = objectDirectory.toList := by
  have hassigned := filter_assigns_directory h
  rw [readings_lines h, List.filter_append, List.filter_append, filter_assigns_middle (by decide),
    filter_assigns_ending (by decide), List.append_nil, List.append_nil] at hassigned
  exact environment_of_assigned hassigned (by decide)

/-- The object file of a source in the directory for objects. -/
def objectProduct (source : String) : String :=
  objectDirectory ++ "/" ++ (flatName source ++ ".o")

/-- The name of an object file is a reference with something behind it. -/
lemma inObjectDirectory_eq (name : String) :
    inObjectDirectory name = reference "ODIR" ++ ("/" ++ name ++ ".o") := by
  rw [← String.toList_inj]
  simp [inObjectDirectory, reference]

/-- What lies in the directory for objects stands for a path in it. -/
lemma expand_inObjectDirectory (hdirectory : env "ODIR" = objectDirectory.toList)
    (hname : '$' ∉ name.toList) : expand env (inObjectDirectory name).toList =
      (objectDirectory ++ "/" ++ (name ++ ".o")).toList := by
  have hrest : '$' ∉ ("/" ++ name ++ ".o").toList := by
    simpa using hname
  rw [inObjectDirectory_eq, String.toList_append, expand_reference (by decide), hdirectory,
    expand_eq_self hrest]
  simp

/-- An object file stands for its path. -/
lemma expand_objectFile (hdirectory : env "ODIR" = objectDirectory.toList) (h : IsPlain source) :
    expand env (objectFile source).toList = (objectProduct source).toList :=
  expand_inObjectDirectory hdirectory h.stripExtension.flatten.not_mem_dollar

/-- An object file is closed. -/
lemma isClosed_objectFile (h : IsPlain source) : IsClosed (objectFile source) := by
  have hname : '$' ∉ (flatName source).toList := h.stripExtension.flatten.not_mem_dollar
  rw [objectFile, inObjectDirectory_eq]
  refine isClosed_reference_append (by decide) (isClosed_of_not_mem ?_)
  simpa using hname

/-- The path of an object file is plain. -/
lemma isPlain_objectProduct (h : IsPlain source) : IsPlain (objectProduct source) := by
  have hname : IsPlain (flatName source) := h.stripExtension.flatten
  have hfront : IsPlain (objectDirectory ++ "/") := by decide
  have hend : IsPlain ".o" := by decide
  unfold objectProduct IsPlain
  simp only [String.toList_append, List.forall_mem_append]
  simp only [IsPlain, String.toList_append, List.forall_mem_append] at hfront
  exact ⟨hfront, hname, hend⟩

/-- The path of an object file is one word. -/
lemma isWord_objectProduct (h : IsPlain source) : Text.IsWord (objectProduct source) := by
  refine (isPlain_objectProduct h).isWord fun hempty => ?_
  have hlist := congrArg String.toList hempty
  simp [objectProduct] at hlist

/-- Object files stand for their paths. -/
lemma expand_objectFiles (hdirectory : env "ODIR" = objectDirectory.toList) {sources : List String}
    (h : ∀ source ∈ sources, IsPlain source) :
    expand env (Line.words (sources.map objectFile)).toList =
      (Line.words (sources.map objectProduct)).toList := by
  have hclosed : ∀ object ∈ sources.map objectFile, IsClosed object := by
    intro object hobject
    obtain ⟨source, hsource, rfl⟩ := List.mem_map.1 hobject
    exact isClosed_objectFile (h source hsource)
  have hproducts :
      (sources.map objectFile).map (fun item => String.ofList (expand env item.toList)) =
      sources.map objectProduct := by
    rw [List.map_map]
    refine List.map_congr_left fun source hsource => ?_
    rw [Function.comp_apply, expand_objectFile hdirectory (h source hsource), String.ofList_toList]
  rw [expand_words hclosed, hproducts]

/-- The line of the objects assigns these as words. -/
lemma reading_assign_objects (h : Readable g c) :
    (Line.assignTrimmed "BIN_OBJ_FILES" ((programSources g c).map objectFile)).reading =
      .assignment "BIN_OBJ_FILES" ((programSources g c).map objectFile) := by
  have hname : ∀ object ∈ (programSources g c).map objectFile, IsName object := by
    intro object hobject
    obtain ⟨source, hsource, rfl⟩ := List.mem_map.1 hobject
    exact isName_objectFile (h.isPlain (mem_sources_of_mem_programSources hsource))
  have hhash := Line.not_mem_words (by decide : '#' ≠ ' ') fun object hobject =>
    (hname object hobject).not_mem isNameChar_hash
  rw [Line.reading, uncommented_eq_self hhash, Text.words_joined,
    Text.allWords_eq_self fun object hobject => (hname object hobject).isWord]

/-- The objects of the program, expanded where they are assigned. -/
lemma environment_middle_objects (h : Readable g c) (env : Environment) :
    environment env (middle g c) "BIN_OBJ_FILES" =
      expand env (Line.words ((programSources g c).map objectFile)).toList := by
  have hobjects : (((programSources g c).flatMap objectLines).map Line.reading).filter
      (Reading.assigns "BIN_OBJ_FILES") = [] :=
    filter_assigns_eq_nil (not_assigned_objectLines _ _)
  rw [middle, List.map_append, environment_append, environment_of_not_assigned hobjects,
    programLines]
  simp only [List.map_cons, List.map_nil, reading_assign_objects h]
  show Function.update env "BIN_OBJ_FILES" (expand env _) "BIN_OBJ_FILES" = _
  rw [Function.update_self]

/-- The directory for objects behind the rules of objects. -/
lemma environment_middle_directory (h : Readable g c) (env : Environment) :
    environment (environment env (opening g c)) (middle g c) "ODIR" = objectDirectory.toList := by
  rw [environment_of_not_assigned (filter_assigns_middle (by decide)),
    environment_opening_directory h]

/-- The program is linked from the object files of its sources. -/
lemma environment_programObjects (h : Readable g c) (env : Environment) :
    environment (environment env (opening g c)) (middle g c) "BIN_OBJ_FILES" =
      (Line.words ((programSources g c).map objectProduct)).toList := by
  rw [environment_middle_objects h]
  refine expand_objectFiles (environment_opening_directory h env) fun source hsource => ?_
  exact h.isPlain (mem_sources_of_mem_programSources hsource)

/-- So the words are these object files. -/
lemma words_programObjects (h : Readable g c) (env : Environment) :
    Text.words (environment (environment env (opening g c)) (middle g c) "BIN_OBJ_FILES") =
      (programSources g c).map objectProduct := by
  rw [environment_programObjects h, Text.words_joined, Text.allWords_eq_self]
  intro object hobject
  obtain ⟨source, hsource, rfl⟩ := List.mem_map.1 hobject
  exact isWord_objectProduct (h.isPlain (mem_sources_of_mem_programSources hsource))

/-- What tests are built into is plain. -/
lemma plain_of_mem_testPrograms (h : Readable g c) :
    ∀ item ∈ (testSources g c).map testProgram, IsPlain item ∧ item ≠ "" := by
  intro item hitem
  obtain ⟨test, htest, rfl⟩ := List.mem_map.1 hitem
  have hmem := mem_sources_of_mem_testSources htest
  exact ⟨(h.isPlain hmem).stripExtension, stripExtension_ne (mem_sources.1 hmem).2⟩

section targets

/-- A target is plain, or the directory for objects or a file in it. -/
lemma cases_target (h : Readable g c) {rule : Rule}
    (hrule : rule ∈ rules (readings (print (lines g c)))) : ∀ target ∈ rule.targets,
      IsPlain target ∨ target = objectDirectoryRef ∨
        ∃ source, IsPlain source ∧ target = objectFile source := by
  have hsource : ∀ source ∈ g.sources c.extension, ∀ target ∈ (sourceRule c source).targets,
      IsPlain target ∨ target = objectDirectoryRef ∨
        ∃ source, IsPlain source ∧ target = objectFile source := by
    intro source hsource target htarget
    have hplain := h.isPlain hsource
    unfold sourceRule at htarget
    split at htarget
    · exact .inl (List.mem_singleton.1 htarget ▸ hplain.stripExtension)
    · exact .inr (.inr ⟨source, hplain, List.mem_singleton.1 htarget⟩)
  rw [rules_lines h] at hrule
  simp only [List.mem_append, or_assoc] at hrule
  rcases hrule with hrule | hrule | hrule | hrule | hrule
  · have hopening : ∀ rule ∈ openingRules c, ∀ target ∈ rule.targets,
        IsPlain target ∨ target = objectDirectoryRef := by
      simp only [openingRules, List.forall_mem_cons]
      exact ⟨by decide, by decide, by decide, by simp⟩
    intro target htarget
    rcases hopening rule hrule target htarget with hplain | hdirectory
    · exact .inl hplain
    · exact .inr (.inl hdirectory)
  · obtain ⟨source, hmem, rfl⟩ := List.mem_map.1 hrule
    exact hsource source (mem_sources_of_mem_programSources hmem)
  · unfold testsRules at hrule
    split at hrule
    · cases hrule
    · rw [List.mem_singleton.1 hrule]
      intro target htarget
      exact .inl (List.mem_singleton.1 htarget ▸ by decide)
  · obtain ⟨source, hmem, rfl⟩ := List.mem_map.1 hrule
    exact hsource source (mem_sources_of_mem_testSources hmem)
  · have hclosing : ∀ rule ∈ closingRules (testSources g c) c, ∀ target ∈ rule.targets,
        IsPlain target := by
      simp only [closingRules, List.forall_mem_cons]
      exact ⟨by decide, by decide, by simp⟩
    exact fun target htarget => .inl (hclosing rule hrule target htarget)

/-- What a target stands for depends on the directory for objects only. -/
lemma expandWords_target {other : Environment} {targets : List String}
    (henv : env "ODIR" = objectDirectory.toList) (hother : other "ODIR" = objectDirectory.toList)
    (h : ∀ target ∈ targets, IsPlain target ∨ target = objectDirectoryRef ∨
      ∃ source, IsPlain source ∧ target = objectFile source) :
    expandWords env targets = expandWords other targets := by
  have hexpand : ∀ target ∈ targets, IsClosed target ∧
      expand env target.toList = expand other target.toList := by
    intro target htarget
    rcases h target htarget with hplain | rfl | ⟨source, hplain, rfl⟩
    · refine ⟨hplain.isClosed, ?_⟩
      rw [expand_eq_self hplain.not_mem_dollar, expand_eq_self hplain.not_mem_dollar]
    · refine ⟨isClosed_reference "ODIR" (by decide), ?_⟩
      show expand env (reference "ODIR").toList = expand other (reference "ODIR").toList
      rw [expand_reference_self (by decide), expand_reference_self (by decide), henv, hother]
    · refine ⟨isClosed_objectFile hplain, ?_⟩
      rw [expand_objectFile henv hplain, expand_objectFile hother hplain]
  rw [expandWords_eq fun target htarget => (hexpand target htarget).1,
    expandWords_eq fun target htarget => (hexpand target htarget).1]
  exact List.flatMap_congr fun target htarget => by rw [(hexpand target htarget).2]

/-- What the targets stand for does not change behind the beginning of the Makefile. -/
lemma targetsIn_eq (h : Readable g c) (env : Environment) :
    targetsIn env (readings (print (lines g c))) =
      (rules (readings (print (lines g c)))).flatMap fun rule =>
        expandWords (environment env (opening g c)) rule.targets := by
  rw [targetsIn, ← map_snd_rulesIn env, List.flatMap_map]
  refine List.flatMap_congr fun made hmem => ?_
  have hrule : made.2 ∈ rules (readings (print (lines g c))) := by
    rw [← map_snd_rulesIn env]
    exact List.mem_map_of_mem hmem
  have hhere := value_of_mem_rulesIn_lines h hmem (by decide) (by decide)
    (filter_assigns_directory h) (by decide)
  exact expandWords_target hhere (environment_opening_directory h env) (cases_target h hrule)

/-- A plain target stands for itself. -/
lemma expandWords_plain {target : String} (h : IsPlain target) (hne : target ≠ "") :
    expandWords env [target] = [target] := by
  rw [expandWords_eq (by simpa using h.isClosed), List.flatMap_singleton, words_plain h hne]

/-- An object file stands for its path. -/
lemma expandWords_objectFile (hdirectory : env "ODIR" = objectDirectory.toList)
    (h : IsPlain source) : expandWords env [objectFile source] = [objectProduct source] := by
  rw [expandWords_eq (by simpa using isClosed_objectFile h), List.flatMap_singleton,
    expand_objectFile hdirectory h, (isWord_objectProduct h).words]

/-- The targets of the rules of a Makefile. -/
lemma targetsIn_lines (h : Readable g c) (env : Environment) :
    targetsIn env (readings (print (lines g c))) =
      ["all", objectDirectory, "bin"] ++ (programSources g c).map objectProduct ++
        ((if (testSources g c).isEmpty then [] else ["tests"]) ++
          (testSources g c).map testProgram) ++ [".PHONY", "clean"] := by
  have hdirectory := environment_opening_directory h env
  rw [targetsIn_eq h]
  generalize environment env (opening g c) = other at hdirectory
  have hreference : expandWords other [objectDirectoryRef] = [objectDirectory] := by
    show expandWords other [reference "ODIR"] = _
    rw [expandWords_reference (by decide), hdirectory]
    decide
  have hobjects : ((programSources g c).map (sourceRule c)).flatMap
      (fun rule => expandWords other rule.targets) = (programSources g c).map objectProduct := by
    rw [List.flatMap_map, ← List.flatMap_pure_eq_map]
    refine List.flatMap_congr fun source hsource => ?_
    rw [sourceRule, isTest_of_mem_programSources hsource, if_neg Bool.false_ne_true]
    exact expandWords_objectFile hdirectory (h.isPlain (mem_sources_of_mem_programSources hsource))
  have hprograms : ((testSources g c).map (sourceRule c)).flatMap
      (fun rule => expandWords other rule.targets) = (testSources g c).map testProgram := by
    rw [List.flatMap_map, ← List.flatMap_pure_eq_map]
    refine List.flatMap_congr fun test htest => ?_
    obtain ⟨hprogram, hne⟩ := plain_of_mem_testPrograms h _ (List.mem_map_of_mem htest)
    rw [sourceRule, isTest_of_mem_testSources htest, if_pos rfl]
    exact expandWords_plain hprogram hne
  have htests : (testsRules (testSources g c)).flatMap
      (fun rule => expandWords other rule.targets) =
        if (testSources g c).isEmpty then [] else ["tests"] := by
    unfold testsRules
    split
    · rfl
    · rw [List.flatMap_singleton, expandWords_plain (by decide) (by decide)]
  have hplain : ∀ target ∈ ["all", "bin", ".PHONY", "clean"], expandWords other [target] =
      [target] := by
    have hnames : ∀ target ∈ ["all", "bin", ".PHONY", "clean"], IsPlain target ∧ target ≠ "" := by
      decide
    exact fun target htarget => expandWords_plain (hnames target htarget).1 (hnames target htarget).2
  rw [rules_lines h]
  simp only [List.flatMap_append, hobjects, hprograms, htests, openingRules, closingRules,
    List.flatMap_cons, List.flatMap_nil, hreference]
  rw [hplain "all" (by simp), hplain "bin" (by simp), hplain ".PHONY" (by simp),
    hplain "clean" (by simp)]
  simp

end targets

/-- The values at the end of the Makefile. -/
lemma environment_lines (h : Readable g c) (env : Environment) :
    environment env (readings (print (lines g c))) =
      environment (environment (environment env (opening g c)) (middle g c)) (ending g c) := by
  rw [readings_lines h, environment_append, environment_append]

end MakeDeps.Makefile
