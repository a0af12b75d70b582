import MakeDeps.Proofs.Makefile.EntryPoint

/-!
# The command lines of a Makefile

Commands are expanded with the values that there are at the end of the Makefile, and given to a
shell line by line. A line of quiet characters means its words to the shell: the first is a program,
the others are its arguments. If nothing in the settings means more than that (`Runnable`), all
command lines of a rendered Makefile are quiet (`isQuiet_of_mem_commandLines`), and these are their
words: `words_link`, `words_compile`, `words_test` and `words_clean`.
-/

namespace MakeDeps.Makefile

variable {g : Graph} {c : Config} {env : Environment} {name source : String}
  {command : List String} {said : List Reading}

/-- Does the character mean nothing to the shell, or divide words? -/
def isQuietChar (c : Char) : Bool :=
  isPlainChar c || [' ', '\t', '=', ':'].contains c

/-- Does the line mean its words to the shell? An equals sign in the first word would assign a
variable. -/
def IsQuiet (line : List Char) : Prop :=
  (∀ c ∈ line, isQuietChar c = true) ∧ ∀ tool ∈ (Text.words line).head?, '=' ∉ tool.toList

/-- Does the character in front of a command tell `make` how to run it? -/
def isMark (c : Char) : Bool :=
  Text.isBlank c || ['@', '-', '+'].contains c

/-- The command as it is given to the shell, with values in place of references and without marks.
-/
def commandLine (env : Environment) (command : List String) : List Char :=
  (expand env (Line.words command).toList).dropWhile isMark

/-- The command lines of all rules. -/
def commandLines (env : Environment) (said : List Reading) : List (List Char) :=
  ((rules said).flatMap Rule.recipe).map (commandLine (environment env said))

/-- The words of the compiler. -/
def compilerWords (c : Config) : List String :=
  Text.words c.compiler.toList

/-- The words of the flags of the compiler. -/
def flagWords (c : Config) : List String :=
  "-Wall" :: (Text.words ("-std=" ++ c.standard).toList ++
    Text.words ("-" ++ c.optimization).toList)

/-- The words of the flags of the linker. -/
def libraryWords (g : Graph) : List String :=
  Text.allWords (g.libraries.map ("-l" ++ ·))

/-- May the word be the program of a command that calls the compiler? It is no program that does
something else by its first argument, and means nothing to `make` or the shell. -/
def IsTool (word : String) : Prop :=
  word ∉ ["rm", "mkdir"] ∧ '=' ∉ word.toList ∧ word.toList.head?.any isMark = false

/-- Whether a word may call the compiler can be computed. -/
instance (word : String) : Decidable (IsTool word) := by
  unfold IsTool
  infer_instance

/-- The Makefile can be read, its settings mean nothing but their words to the shell, and there is a
compiler among them, and no output file. -/
structure Runnable (g : Graph) (c : Config) : Prop extends Readable g c where
  literal : IsLiteral c.entryPoint
  quiet : ∀ setting ∈ [c.compiler, c.standard, c.optimization] ++ g.libraries,
    ∀ ch ∈ setting.toList, isQuietChar ch = true
  tool : ∃ tool arguments, compilerWords c = tool :: arguments ∧ IsTool tool
  outputs : ∀ word ∈ compilerWords c ++ flagWords c ++ libraryWords g, ¬ "-o".toList <+: word.toList

section values

/-- The settings are assigned before all others. -/
lemma environment_lines_toolchain (h : Readable g c) (hname : name ∈ ["CC", "CFLAGS", "LFLAGS"]) :
    environment env (readings (print (lines g c))) name =
      environment env ((toolchainLines g c).map Line.reading) name := by
  have hother : name ∉ ["ODIR", "BIN_OBJ_FILES", "ALL_BIN_OBJS_WO_MAIN"] ∧
      ¬ "_DEPS".toList <:+ name.toList := by
    revert name
    decide
  simp only [List.mem_cons, List.not_mem_nil, or_false, not_or] at hother
  obtain ⟨⟨hdirectory, hobjects, htested⟩, hsources⟩ := hother
  rw [environment_lines h, environment_of_not_assigned (filter_assigns_ending htested),
    environment_of_not_assigned (filter_assigns_middle hobjects), opening, List.map_append,
    environment_append, environment_of_not_assigned]
  exact filter_assigns_eq_nil (not_assigned_variableLines hdirectory hsources)

/-- A quiet text has no comment. -/
lemma uncommented_of_quiet {line : List Char} (h : ∀ ch ∈ line, isQuietChar ch = true) :
    uncommented line = line := by
  refine uncommented_eq_self fun hmem => ?_
  have hquiet := h '#' hmem
  revert hquiet
  decide

/-- A quiet text refers to nothing. -/
lemma not_mem_dollar_of_quiet {line : List Char} (h : ∀ ch ∈ line, isQuietChar ch = true) :
    '$' ∉ line := by
  intro hmem
  have hquiet := h '$' hmem
  revert hquiet
  decide

/-- Plain texts are quiet. -/
lemma IsPlain.quiet {text : String} (h : IsPlain text) :
    ∀ ch ∈ text.toList, isQuietChar ch = true :=
  fun ch hch => Bool.or_eq_true_iff.2 (.inl (h ch hch))

/-- Quiet texts with spaces between them are quiet. -/
lemma quiet_joined {texts : List String}
    (h : ∀ text ∈ texts, ∀ ch ∈ text.toList, isQuietChar ch = true) :
    ∀ ch ∈ (Line.words texts).toList, isQuietChar ch = true := by
  intro ch hch
  by_contra hloud
  have hspace : ch ≠ ' ' := by
    rintro rfl
    exact hloud (by decide)
  exact Line.not_mem_words hspace (fun text htext hmem => hloud (h text htext ch hmem)) hch

/-- The words of a quiet text are quiet. -/
lemma quiet_words {text : List Char} (h : ∀ ch ∈ text, isQuietChar ch = true) :
    ∀ word ∈ Text.words text, ∀ ch ∈ word.toList, isQuietChar ch = true := fun word hword ch hch =>
  h ch ((Text.forall_mem_words text word hword).2 ch hch)

/-- A quiet text stays quiet behind a quiet start. -/
lemma quiet_append {start text : String} (hstart : start.toList.all isQuietChar = true)
    (h : ∀ ch ∈ text.toList, isQuietChar ch = true) :
    ∀ ch ∈ (start ++ text).toList, isQuietChar ch = true := by
  rw [String.toList_append, List.forall_mem_append]
  exact ⟨List.all_eq_true.1 hstart, h⟩

namespace Runnable

/-- The compiler is quiet. -/
lemma quiet_compiler (h : Runnable g c) : ∀ ch ∈ c.compiler.toList, isQuietChar ch = true :=
  h.quiet _ (by simp)

/-- The standard is quiet. -/
lemma quiet_standard (h : Runnable g c) :
    ∀ ch ∈ ("-std=" ++ c.standard).toList, isQuietChar ch = true :=
  quiet_append (by decide) (h.quiet _ (by simp))

/-- The optimization is quiet. -/
lemma quiet_optimization (h : Runnable g c) :
    ∀ ch ∈ ("-" ++ c.optimization).toList, isQuietChar ch = true :=
  quiet_append (by decide) (h.quiet _ (by simp))

/-- The libraries are quiet. -/
lemma quiet_libraries (h : Runnable g c) : ∀ flag ∈ g.libraries.map ("-l" ++ ·),
    ∀ ch ∈ flag.toList, isQuietChar ch = true := by
  intro flag hflag
  obtain ⟨library, hlibrary, rfl⟩ := List.mem_map.1 hflag
  exact quiet_append (by decide) (h.quiet _ (List.mem_append_right _ hlibrary))

end Runnable

/-- What the lines with the settings say. -/
lemma reading_toolchain (h : Runnable g c) : (toolchainLines g c).map Line.reading =
    [ .assignment "CC" (compilerWords c),
      .assignment "CFLAGS" ["-Wall"],
      .addition "CFLAGS" (Text.words ("-std=" ++ c.standard).toList),
      .addition "CFLAGS" (Text.words ("-" ++ c.optimization).toList),
      .assignment "LFLAGS" (libraryWords g) ] := by
  have hsingle : ∀ text : String, Line.words [text] = text := by
    simp [Line.words]
  have hwall : Text.words (uncommented "-Wall".toList) = ["-Wall"] := by decide
  simp only [toolchainLines, List.map_cons, List.map_nil, Line.reading, hsingle, hwall,
    uncommented_of_quiet h.quiet_compiler, uncommented_of_quiet h.quiet_standard,
    uncommented_of_quiet h.quiet_optimization,
    uncommented_of_quiet (quiet_joined h.quiet_libraries), Text.words_joined]
  rfl

/-- What `CC` stands for. -/
lemma environment_compiler (h : Runnable g c) (env : Environment) :
    environment env (readings (print (lines g c))) "CC" =
      (Line.words (compilerWords c)).toList := by
  have hdollar := not_mem_dollar_of_quiet (quiet_joined (quiet_words h.quiet_compiler))
  rw [environment_lines_toolchain h.toReadable (by decide), reading_toolchain h]
  exact expand_eq_self hdollar

/-- What `LFLAGS` stands for. -/
lemma environment_libraries (h : Runnable g c) (env : Environment) :
    environment env (readings (print (lines g c))) "LFLAGS" =
      (Line.words (libraryWords g)).toList := by
  have hquiet : ∀ word ∈ libraryWords g, ∀ ch ∈ word.toList, isQuietChar ch = true := by
    intro word hword
    obtain ⟨flag, hflag, hword⟩ := List.mem_flatMap.1 hword
    exact quiet_words (h.quiet_libraries flag hflag) word hword
  have hdollar := not_mem_dollar_of_quiet (quiet_joined hquiet)
  rw [environment_lines_toolchain h.toReadable (by decide), reading_toolchain h]
  exact expand_eq_self hdollar

/-- What `CFLAGS` stands for. -/
lemma environment_flags (h : Runnable g c) (env : Environment) :
    environment env (readings (print (lines g c))) "CFLAGS" =
      "-Wall".toList ++ ' ' :: (Line.words (Text.words ("-std=" ++ c.standard).toList)).toList ++
        ' ' :: (Line.words (Text.words ("-" ++ c.optimization).toList)).toList := by
  have hstandard := not_mem_dollar_of_quiet (quiet_joined (quiet_words h.quiet_standard))
  have hoptimization := not_mem_dollar_of_quiet (quiet_joined (quiet_words h.quiet_optimization))
  rw [environment_lines_toolchain h.toReadable (by decide), reading_toolchain h]
  show expand _ (Line.words ["-Wall"]).toList ++ ' ' :: expand _ (Line.words _).toList ++
    ' ' :: expand _ (Line.words _).toList = _
  rw [expand_eq_self (by decide), expand_eq_self hstandard, expand_eq_self hoptimization]
  rfl

/-- Are the values those that a rendered Makefile ends with? -/
structure IsFinal (g : Graph) (c : Config) (env : Environment) : Prop where
  compiler : env "CC" = (Line.words (compilerWords c)).toList
  flags : env "CFLAGS" =
    "-Wall".toList ++ ' ' :: (Line.words (Text.words ("-std=" ++ c.standard).toList)).toList ++
      ' ' :: (Line.words (Text.words ("-" ++ c.optimization).toList)).toList
  libraries : env "LFLAGS" = (Line.words (libraryWords g)).toList
  directory : env "ODIR" = objectDirectory.toList
  objects : env "BIN_OBJ_FILES" = (Line.words ((programSources g c).map objectProduct)).toList
  tested : (testSources g c).isEmpty = false →
    env "ALL_BIN_OBJS_WO_MAIN" = (Line.words (testedProducts g c)).toList

/-- The values at the end are these, whatever was there before. -/
lemma isFinal_environment (h : Runnable g c) (env : Environment) :
    IsFinal g c (environment env (readings (print (lines g c)))) where
  compiler := environment_compiler h env
  flags := environment_flags h env
  libraries := environment_libraries h env
  directory := by
    rw [environment_lines h.toReadable,
      environment_of_not_assigned (filter_assigns_ending (by decide)),
      environment_middle_directory h.toReadable]
  objects := by
    rw [environment_lines h.toReadable,
      environment_of_not_assigned (filter_assigns_ending (by decide)),
      environment_programObjects h.toReadable]
  tested := fun hsome => environment_tested_literal h.toReadable hsome h.literal env

end values

section commands

/-- The command that makes the directory for objects. -/
def directoryCommand : List String :=
  ["@mkdir", "-p", objectDirectoryRef]

/-- The command that links the program. -/
def linkCommand (c : Config) : List String :=
  [compiler, programObjects, "-o"] ++ Text.words c.program.toList ++ [linkerFlags]

/-- The command that compiles a source of the program. -/
def compileCommand (source : String) : List String :=
  [compiler, "-c", source, compilerFlags, "-o", objectFile source]

/-- The command that builds a test. -/
def testCommand (test : String) : List String :=
  [compiler, compilerFlags, test, testedObjects, "-o", testProgram test, linkerFlags]

/-- The command that removes what was built. -/
def cleanCommand (tests : List String) (c : Config) : List String :=
  ["rm", "-rf", objectDirectoryRef] ++ Text.words c.program.toList ++ tests.map testProgram

/-- The commands of the Makefile. -/
def commandsOf (g : Graph) (c : Config) : List (List String) :=
  [directoryCommand, linkCommand c] ++ (programSources g c).map compileCommand ++
    (testSources g c).map testCommand ++ [cleanCommand (testSources g c) c]

/-- A command is one of these. -/
lemma mem_commandsOf : command ∈ commandsOf g c ↔
    command = directoryCommand ∨ command = linkCommand c ∨
      (∃ source ∈ programSources g c, compileCommand source = command) ∨
      (∃ test ∈ testSources g c, testCommand test = command) ∨
      command = cleanCommand (testSources g c) c := by
  simp only [commandsOf, List.mem_append, List.mem_cons, List.mem_map, List.not_mem_nil, or_false,
    or_assoc]

/-- The rules have these commands and no others. -/
lemma commands_lines (h : Readable g c) :
    (rules (readings (print (lines g c)))).flatMap Rule.recipe = commandsOf g c := by
  have hprogram : ((programSources g c).map (sourceRule c)).flatMap Rule.recipe =
      (programSources g c).map compileCommand := by
    rw [List.flatMap_map, ← List.flatMap_pure_eq_map]
    refine List.flatMap_congr fun source hsource => ?_
    rw [sourceRule, isTest_of_mem_programSources hsource, if_neg Bool.false_ne_true]
    rfl
  have htest : ((testSources g c).map (sourceRule c)).flatMap Rule.recipe =
      (testSources g c).map testCommand := by
    rw [List.flatMap_map, ← List.flatMap_pure_eq_map]
    refine List.flatMap_congr fun source hsource => ?_
    rw [sourceRule, isTest_of_mem_testSources hsource, if_pos rfl]
    rfl
  have htests : (testsRules (testSources g c)).flatMap Rule.recipe = [] := by
    unfold testsRules
    split
    · rfl
    · rfl
  rw [rules_lines h]
  simp only [List.flatMap_append, hprogram, htest, htests]
  rfl

/-- A plain word stands for itself. -/
lemma flatMap_words_plain {items : List String} (h : ∀ item ∈ items, IsPlain item ∧ item ≠ "") :
    items.flatMap (fun item => Text.words (expand env item.toList)) = items := by
  have hself : items.flatMap (fun item => Text.words (expand env item.toList)) =
      items.flatMap fun item => [item] := by
    refine List.flatMap_congr fun item hitem => ?_
    obtain ⟨hplain, hne⟩ := h item hitem
    rw [expand_eq_self hplain.not_mem_dollar, (hplain.isWord hne).words]
  rw [hself, List.flatMap_singleton']

/-- Does the item have quiet words, whatever comes behind it? -/
structure IsQuietItem (env : Environment) (item : String) : Prop where
  closed : IsClosed item
  quiet : ∀ ch ∈ expand env item.toList, isQuietChar ch = true

/-- Plain items are quiet. -/
lemma IsPlain.quietItem {item : String} (h : IsPlain item) (env : Environment) :
    IsQuietItem env item := by
  refine ⟨h.isClosed, ?_⟩
  rw [expand_eq_self h.not_mem_dollar]
  exact h.quiet

/-- References to quiet values are quiet. -/
lemma quietItem_reference (name : String) (hname : IsPlain name)
    (h : ∀ ch ∈ env name, isQuietChar ch = true) :
    IsQuietItem env (reference name) := by
  refine ⟨isClosed_reference name hname, ?_⟩
  rw [expand_reference_self hname]
  exact h

/-- Object files are quiet. -/
lemma quietItem_objectFile (hdirectory : env "ODIR" = objectDirectory.toList) (h : IsPlain source) :
    IsQuietItem env (objectFile source) := by
  refine ⟨isClosed_objectFile h, ?_⟩
  rw [expand_objectFile hdirectory h]
  exact (isPlain_objectProduct h).quiet

/-- The words of `CFLAGS`. -/
lemma IsFinal.words_flags (he : IsFinal g c env) : Text.words (env "CFLAGS") = flagWords c := by
  have hself : ∀ text : List Char,
      Text.words (Line.words (Text.words text)).toList = Text.words text := by
    intro text
    rw [Text.words_joined, Text.allWords_eq_self]
    exact fun word hword => (Text.forall_mem_words text word hword).1
  have hwall : Text.words "-Wall".toList = ["-Wall"] := by decide
  rw [he.flags, Text.words_append_blank (by decide), Text.words_append_blank (by decide), hself,
    hself, hwall, flagWords, List.append_assoc]
  rfl

/-- The words of `CC`. -/
lemma IsFinal.words_compiler (he : IsFinal g c env) : Text.words (env "CC") = compilerWords c := by
  rw [he.compiler, Text.words_joined, Text.allWords_eq_self]
  exact fun word hword => (Text.forall_mem_words _ word hword).1

/-- The words of `LFLAGS`. -/
lemma IsFinal.words_libraries (he : IsFinal g c env) :
    Text.words (env "LFLAGS") = libraryWords g := by
  rw [he.libraries, Text.words_joined, Text.allWords_eq_self]
  intro word hword
  obtain ⟨flag, -, hword⟩ := List.mem_flatMap.1 hword
  exact (Text.forall_mem_words _ word hword).1

/-- The words of `BIN_OBJ_FILES`. -/
lemma IsFinal.words_objects (h : Readable g c) (he : IsFinal g c env) :
    Text.words (env "BIN_OBJ_FILES") = (programSources g c).map objectProduct := by
  rw [he.objects, Text.words_joined, Text.allWords_eq_self]
  intro object hobject
  obtain ⟨source, hsource, rfl⟩ := List.mem_map.1 hobject
  exact isWord_objectProduct (h.isPlain (mem_sources_of_mem_programSources hsource))

/-- The words of `ALL_BIN_OBJS_WO_MAIN`, if there is a test. -/
lemma IsFinal.words_tested (h : Readable g c) (he : IsFinal g c env) {test : String}
    (htest : test ∈ testSources g c) :
    Text.words (env "ALL_BIN_OBJS_WO_MAIN") = testedProducts g c := by
  have hsome : (testSources g c).isEmpty = false :=
    List.isEmpty_eq_false_iff.2 (List.ne_nil_of_mem htest)
  rw [he.tested hsome, Text.words_joined, Text.allWords_eq_self (isWord_of_mem_testedProducts h)]

/-- The words of the program are plain. -/
lemma plain_of_mem_words_program (h : Readable g c) :
    ∀ item ∈ Text.words c.program.toList, IsPlain item ∧ item ≠ "" := fun item hitem =>
  ⟨h.program.words item hitem, (Text.forall_mem_words _ item hitem).1.1⟩

section quietItem
variable (h : Runnable g c) (he : IsFinal g c env)
include h he

/-- The reference to the compiler is quiet. -/
lemma quietItem_compiler : IsQuietItem env compiler := by
  refine quietItem_reference "CC" (by decide) ?_
  rw [he.compiler]
  exact quiet_joined (quiet_words h.quiet_compiler)

/-- The reference to the flags of the compiler is quiet. -/
lemma quietItem_compilerFlags : IsQuietItem env compilerFlags := by
  refine quietItem_reference "CFLAGS" (by decide) ?_
  have hwall : ∀ ch ∈ "-Wall".toList, isQuietChar ch = true := List.all_eq_true.1 (by decide)
  rw [he.flags]
  simp only [List.forall_mem_append, List.forall_mem_cons]
  exact ⟨⟨hwall, by decide, quiet_joined (quiet_words h.quiet_standard)⟩, by decide,
    quiet_joined (quiet_words h.quiet_optimization)⟩

/-- The reference to the flags of the linker is quiet. -/
lemma quietItem_linkerFlags : IsQuietItem env linkerFlags := by
  refine quietItem_reference "LFLAGS" (by decide) ?_
  rw [he.libraries]
  refine quiet_joined fun word hword => ?_
  obtain ⟨flag, hflag, hword⟩ := List.mem_flatMap.1 hword
  exact quiet_words (h.quiet_libraries flag hflag) word hword

/-- The reference to the objects of the program is quiet. -/
lemma quietItem_programObjects : IsQuietItem env programObjects := by
  refine quietItem_reference "BIN_OBJ_FILES" (by decide) ?_
  rw [he.objects]
  refine quiet_joined fun object hobject => ?_
  obtain ⟨source, hsource, rfl⟩ := List.mem_map.1 hobject
  exact (isPlain_objectProduct (h.isPlain (mem_sources_of_mem_programSources hsource))).quiet

/-- The reference to the objects under test is quiet if there is a test. -/
lemma quietItem_testedObjects (hsome : (testSources g c).isEmpty = false) :
    IsQuietItem env testedObjects := by
  refine quietItem_reference "ALL_BIN_OBJS_WO_MAIN" (by decide) ?_
  rw [he.tested hsome]
  refine quiet_joined fun object hobject => ?_
  obtain ⟨source, hsource, rfl⟩ := List.mem_map.1 (List.mem_filter.1 hobject).1
  exact (isPlain_objectProduct (h.isPlain (mem_sources_of_mem_programSources hsource))).quiet

/-- The command that compiles a source is quiet. -/
lemma quietItem_compileCommand (hsource : source ∈ programSources g c) :
    ∀ item ∈ compileCommand source, IsQuietItem env item := by
  have hplain : IsPlain source := h.isPlain (mem_sources_of_mem_programSources hsource)
  have hoptions : ∀ item ∈ ["-c", "-o"], IsPlain item := by decide
  simp only [compileCommand, List.forall_mem_cons]
  exact ⟨quietItem_compiler h he, (hoptions "-c" (by simp)).quietItem env, hplain.quietItem env,
    quietItem_compilerFlags h he, (hoptions "-o" (by simp)).quietItem env,
    quietItem_objectFile he.directory hplain, by simp⟩

/-- The command that builds a test is quiet. -/
lemma quietItem_testCommand {test : String} (htest : test ∈ testSources g c) :
    ∀ item ∈ testCommand test, IsQuietItem env item := by
  have hsome : (testSources g c).isEmpty = false :=
    List.isEmpty_eq_false_iff.2 (List.ne_nil_of_mem htest)
  have hplain : IsPlain test := h.isPlain (mem_sources_of_mem_testSources htest)
  have hoption : IsPlain "-o" := by decide
  simp only [testCommand, List.forall_mem_cons]
  exact ⟨quietItem_compiler h he, quietItem_compilerFlags h he, hplain.quietItem env,
    quietItem_testedObjects h he hsome, hoption.quietItem env,
    hplain.stripExtension.quietItem env, quietItem_linkerFlags h he, by simp⟩

/-- All items of all commands are quiet. -/
lemma quietItem_commands : ∀ command ∈ commandsOf g c, ∀ item ∈ command, IsQuietItem env item := by
  have hwords : ∀ item ∈ ["@mkdir", "-p", "-o", "rm", "-rf"], IsQuietItem env item := by
    have hplain : ∀ item ∈ ["@mkdir", "-p", "-o", "rm", "-rf"], IsPlain item := by decide
    exact fun item hitem => (hplain item hitem).quietItem env
  have hdirectory : IsQuietItem env objectDirectoryRef := by
    refine quietItem_reference "ODIR" (by decide) ?_
    rw [he.directory]
    exact List.all_eq_true.1 (by decide)
  have hprogram : ∀ item ∈ Text.words c.program.toList, IsQuietItem env item := fun item hitem =>
    (plain_of_mem_words_program h.toReadable item hitem).1.quietItem env
  have htests : ∀ item ∈ (testSources g c).map testProgram,
      IsQuietItem env item := fun item hitem =>
    (plain_of_mem_testPrograms h.toReadable item hitem).1.quietItem env
  intro command hcommand
  rcases mem_commandsOf.1 hcommand with
    rfl | rfl | ⟨source, hsource, rfl⟩ | ⟨test, htest, rfl⟩ | rfl
  · simp only [directoryCommand, List.forall_mem_cons]
    exact ⟨hwords _ (by simp), hwords _ (by simp), hdirectory, by simp⟩
  · simp only [linkCommand, List.forall_mem_append, List.forall_mem_cons]
    exact ⟨⟨⟨quietItem_compiler h he, quietItem_programObjects h he, hwords _ (by simp), by simp⟩,
      hprogram⟩, quietItem_linkerFlags h he, by simp⟩
  · exact quietItem_compileCommand h he hsource
  · exact quietItem_testCommand h he htest
  · simp only [cleanCommand, List.forall_mem_append, List.forall_mem_cons]
    exact ⟨⟨⟨hwords _ (by simp), hwords _ (by simp), hdirectory, by simp⟩, hprogram⟩, htests⟩

/-- So they are closed. -/
lemma isClosed_commands (hcommand : command ∈ commandsOf g c) : ∀ item ∈ command, IsClosed item :=
  fun item hitem => (quietItem_commands h he command hcommand item hitem).closed

end quietItem

/-- The words of the program stand for themselves. -/
lemma flatMap_words_program (h : Readable g c) : (Text.words c.program.toList).flatMap
    (fun item => Text.words (expand env item.toList)) = Text.words c.program.toList :=
  flatMap_words_plain (plain_of_mem_words_program h)

/-- A command line of quiet items is quiet. -/
lemma quiet_commandLine (h : ∀ item ∈ command, IsQuietItem env item) :
    ∀ ch ∈ commandLine env command, isQuietChar ch = true := by
  have hwords : ∀ ch ∈ expand env (Line.words command).toList, isQuietChar ch = true := by
    rw [expand_words fun item hitem => (h item hitem).closed]
    refine quiet_joined fun word hword => ?_
    obtain ⟨item, hitem, rfl⟩ := List.mem_map.1 hword
    rw [String.toList_ofList]
    exact (h item hitem).quiet
  exact fun ch hch => hwords ch ((List.dropWhile_sublist _).subset hch)

/-- Where no mark stands in front, the words of the items are the words of the command line. -/
lemma words_commandLine {item : String} {items : List String}
    (h : ∀ other ∈ item :: items, IsClosed other) {ch : Char} {rest : List Char}
    (hhead : expand env item.toList = ch :: rest) (hmark : isMark ch = false) :
    Text.words (commandLine env (item :: items)) =
      (item :: items).flatMap fun other => Text.words (expand env other.toList) := by
  have hline : ∃ back, expand env (Line.words (item :: items)).toList = ch :: back := by
    rw [expand_words h, List.map_cons, hhead]
    cases items with
    | nil => exact ⟨rest, by simp [Line.words]⟩
    | cons next others => exact ⟨_, by simp [Line.words]; rfl⟩
  obtain ⟨back, hback⟩ := hline
  rw [commandLine, hback, List.dropWhile_cons_of_neg (by simp [hmark]), ← hback]
  exact expandWords_eq h

/-- No mark stands in front of the compiler. -/
lemma exists_head_compiler (h : Runnable g c) (he : IsFinal g c env) :
    ∃ ch rest, expand env compiler.toList = ch :: rest ∧ isMark ch = false := by
  obtain ⟨tool, arguments, hwords, -, -, hmark⟩ := h.tool
  have hvalue : expand env compiler.toList = (Line.words (tool :: arguments)).toList := by
    rw [← hwords, ← he.compiler]
    show expand env (reference "CC").toList = env "CC"
    exact expand_reference_self (by decide)
  have hword : Text.IsWord tool :=
    (Text.forall_mem_words _ tool (hwords ▸ List.mem_cons_self)).1
  cases hlist : tool.toList with
  | nil => exact absurd (String.toList_eq_nil_iff.1 hlist) hword.1
  | cons ch rest =>
    rw [hlist] at hmark
    cases arguments with
    | nil => exact ⟨ch, rest, by simp [hvalue, Line.words, hlist], by simpa using hmark⟩
    | cons next others =>
      exact ⟨ch, _, by simp [hvalue, Line.words, hlist]; rfl, by simpa using hmark⟩

/-- The words of `-o` are the option. -/
lemma words_option : Text.words (expand env "-o".toList) = ["-o"] :=
  words_plain (by decide) (by decide)

/-- The words of the compiler where a command refers to it. -/
lemma words_expand_compiler (he : IsFinal g c env) :
    Text.words (expand env compiler.toList) = compilerWords c :=
  (words_reference "CC" (by decide)).trans he.words_compiler

/-- The words of the flags where a command refers to them. -/
lemma words_expand_flags (he : IsFinal g c env) :
    Text.words (expand env compilerFlags.toList) = flagWords c :=
  (words_reference "CFLAGS" (by decide)).trans he.words_flags

/-- The words of the libraries where a command refers to them. -/
lemma words_expand_libraries (he : IsFinal g c env) :
    Text.words (expand env linkerFlags.toList) = libraryWords g :=
  (words_reference "LFLAGS" (by decide)).trans he.words_libraries

/-- What makes the directory for objects. -/
lemma commandLine_directory (he : IsFinal g c env) :
    commandLine env directoryCommand = "mkdir -p .OBJ".toList := by
  have hline : (Line.words directoryCommand).toList =
      "@mkdir -p ".toList ++ (reference "ODIR").toList := by decide
  rw [commandLine, hline, expand_append (by decide), expand_reference_self (by decide),
    he.directory]
  decide

/-- What links the program. -/
lemma words_link (h : Runnable g c) (he : IsFinal g c env) :
    Text.words (commandLine env (linkCommand c)) =
      compilerWords c ++ ((programSources g c).map objectProduct ++
        ("-o" :: (Text.words c.program.toList ++ libraryWords g))) := by
  have hcommand : linkCommand c ∈ commandsOf g c := mem_commandsOf.2 (by simp)
  have hclosed := isClosed_commands h he hcommand
  have hobjects : Text.words (expand env programObjects.toList) =
      (programSources g c).map objectProduct :=
    (words_reference "BIN_OBJ_FILES" (by decide)).trans (he.words_objects h.toReadable)
  obtain ⟨ch, rest, hhead, hmark⟩ := exists_head_compiler h he
  rw [show linkCommand c = compiler :: ([programObjects, "-o"] ++ Text.words c.program.toList ++
    [linkerFlags]) from rfl] at hclosed ⊢
  rw [words_commandLine hclosed hhead hmark]
  simp only [List.flatMap_cons, List.flatMap_append, List.flatMap_nil, words_expand_compiler he,
    hobjects, words_option, flatMap_words_program h.toReadable, words_expand_libraries he]
  simp

/-- What compiles a source of the program. -/
lemma words_compile (h : Runnable g c) (he : IsFinal g c env)
    (hsource : source ∈ programSources g c) :
    Text.words (commandLine env (compileCommand source)) =
      compilerWords c ++ (["-c", source] ++ flagWords c ++ ["-o", objectProduct source]) := by
  have hcommand : compileCommand source ∈ commandsOf g c :=
    mem_commandsOf.2 (.inr (.inr (.inl ⟨source, hsource, rfl⟩)))
  have hclosed := isClosed_commands h he hcommand
  have hmem := mem_sources_of_mem_programSources hsource
  have hplain := h.isPlain hmem
  have hobject : Text.words (expand env (objectFile source).toList) = [objectProduct source] := by
    rw [expand_objectFile he.directory hplain, (isWord_objectProduct hplain).words]
  have hfile : Text.words (expand env source.toList) = [source] :=
    words_plain hplain (isWord_of_mem_sources h.toReadable hmem).1
  have hcompile : Text.words (expand env "-c".toList) = ["-c"] :=
    words_plain (by decide) (by decide)
  obtain ⟨ch, rest, hhead, hmark⟩ := exists_head_compiler h he
  rw [compileCommand] at hclosed ⊢
  rw [words_commandLine hclosed hhead hmark]
  simp only [List.flatMap_cons, List.flatMap_nil, words_expand_compiler he, words_expand_flags he,
    hobject, hfile, hcompile, words_option]
  simp

/-- What builds a test. -/
lemma words_test (h : Runnable g c) (he : IsFinal g c env) {test : String}
    (htest : test ∈ testSources g c) :
    Text.words (commandLine env (testCommand test)) =
      compilerWords c ++ (flagWords c ++ (test :: testedProducts g c) ++
        ("-o" :: testProgram test :: libraryWords g)) := by
  have hcommand : testCommand test ∈ commandsOf g c :=
    mem_commandsOf.2 (.inr (.inr (.inr (.inl ⟨test, htest, rfl⟩))))
  have hclosed := isClosed_commands h he hcommand
  have hmem := mem_sources_of_mem_testSources htest
  have hplain := h.isPlain hmem
  have htested : Text.words (expand env testedObjects.toList) = testedProducts g c :=
    (words_reference "ALL_BIN_OBJS_WO_MAIN" (by decide)).trans (he.words_tested h.toReadable htest)
  have hfile : Text.words (expand env test.toList) = [test] :=
    words_plain hplain (isWord_of_mem_sources h.toReadable hmem).1
  have hprogram : Text.words (expand env (testProgram test).toList) = [testProgram test] :=
    words_plain hplain.stripExtension (stripExtension_ne (mem_sources.1 hmem).2)
  obtain ⟨ch, rest, hhead, hmark⟩ := exists_head_compiler h he
  rw [testCommand] at hclosed ⊢
  rw [words_commandLine hclosed hhead hmark]
  simp only [List.flatMap_cons, List.flatMap_nil, words_expand_compiler he, words_expand_flags he,
    htested, hfile, hprogram, words_option, words_expand_libraries he]
  simp

/-- What cleans up. -/
lemma words_clean (h : Runnable g c) (he : IsFinal g c env) :
    Text.words (commandLine env (cleanCommand (testSources g c) c)) =
      ["rm", "-rf", objectDirectory] ++ Text.words c.program.toList ++
        (testSources g c).map testProgram := by
  have hcommand : cleanCommand (testSources g c) c ∈ commandsOf g c := mem_commandsOf.2 (by simp)
  have hclosed := isClosed_commands h he hcommand
  have hremove : expand env "rm".toList = 'r' :: ['m'] := expand_eq_self (by decide)
  have hoptions : Text.words (expand env "rm".toList) = ["rm"] ∧
      Text.words (expand env "-rf".toList) = ["-rf"] :=
    ⟨words_plain (by decide) (by decide), words_plain (by decide) (by decide)⟩
  have hdirectory : Text.words (expand env objectDirectoryRef.toList) = [objectDirectory] := by
    refine (words_reference "ODIR" (by decide)).trans ?_
    rw [he.directory]
    decide
  have htests : ((testSources g c).map testProgram).flatMap
      (fun item => Text.words (expand env item.toList)) = (testSources g c).map testProgram :=
    flatMap_words_plain (plain_of_mem_testPrograms h.toReadable)
  rw [show cleanCommand (testSources g c) c = "rm" :: (["-rf", objectDirectoryRef] ++
    Text.words c.program.toList ++ (testSources g c).map testProgram) from rfl] at hclosed ⊢
  rw [words_commandLine hclosed hremove (by decide)]
  simp only [List.flatMap_cons, List.flatMap_append, List.flatMap_nil, hoptions.1, hoptions.2,
    hdirectory, flatMap_words_program h.toReadable, htests]
  simp

/-- All command lines of the Makefile are quiet. -/
lemma isQuiet_of_mem_commandLines (h : Runnable g c) (env : Environment) :
    ∀ line ∈ commandLines env (readings (print (lines g c))), IsQuiet line := by
  have he := isFinal_environment h env
  obtain ⟨tool, arguments, hcompiler, -, hequals, -⟩ := h.tool
  intro line hline
  obtain ⟨command, hcommand, rfl⟩ := List.mem_map.1 hline
  rw [commands_lines h.toReadable] at hcommand
  refine ⟨quiet_commandLine (quietItem_commands h he command hcommand), ?_⟩
  -- the first word is the compiler or a program that the rule names
  have hfirst : ∃ tool words, Text.words (commandLine (environment env (readings (print (lines g c))))
      command) = tool :: words ∧ '=' ∉ tool.toList := by
    rcases mem_commandsOf.1 hcommand with
      rfl | rfl | ⟨source, hsource, rfl⟩ | ⟨test, htest, rfl⟩ | rfl
    · rw [commandLine_directory he]
      exact ⟨"mkdir", ["-p", ".OBJ"], by decide, by decide⟩
    · rw [words_link h he, hcompiler]
      exact ⟨tool, _, rfl, hequals⟩
    · rw [words_compile h he hsource, hcompiler]
      exact ⟨tool, _, rfl, hequals⟩
    · rw [words_test h he htest, hcompiler]
      exact ⟨tool, _, rfl, hequals⟩
    · rw [words_clean h he]
      exact ⟨"rm", _, rfl, by decide⟩
  obtain ⟨first, words, hwords, hnone⟩ := hfirst
  rw [hwords]
  simpa using hnone

end commands

end MakeDeps.Makefile
