import MakeDeps.Proofs.Graph.Closure
import MakeDeps.Proofs.Makefile.Names

/-!
# Makefiles that can be read

A graph and its configuration are `Readable` if nothing in them gets in the way of reading the
Makefile. Then all lines of the Makefile fit what is expected of lines: `fits_lines`.

Some of the conditions keep out what the reading here leaves out, and no proof asks for them: a
value that goes on behind a backslash, a reference in a setting, a test whose program is a special
target for its dot, and a program that a command would take for an option.
-/

namespace MakeDeps.Makefile

/-- A value that stands for itself, on a line of its own: it does not break the line, refers to
nothing, and does not go on behind a backslash. -/
structure IsSetting (s : String) : Prop where
  isSingleLine : IsSingleLine s
  not_mem_dollar : '$' ∉ s.toList
  notContinued : (Text.trimRight s.toList).getLast? ≠ some '\\'

/-- Whether a text is a setting can be computed. -/
instance (s : String) : Decidable (IsSetting s) :=
  decidable_of_iff
    (IsSingleLine s ∧ '$' ∉ s.toList ∧ (Text.trimRight s.toList).getLast? ≠ some '\\')
    ⟨fun ⟨hline, hdollar, hlast⟩ => ⟨hline, hdollar, hlast⟩,
      fun ⟨hline, hdollar, hlast⟩ => ⟨hline, hdollar, hlast⟩⟩

/-- Does the text stand in the argument of a call, and leave the call as it is? -/
def IsArgument (s : String) : Prop :=
  IsSingleLine s ∧ ∀ c ∈ s.toList, c ∉ ['$', '#', '(', ')', '\x00']

/-- Whether a text may stand in a call can be computed. -/
instance (s : String) : Decidable (IsArgument s) :=
  decidable_of_iff
    (IsSingleLine s ∧ s.toList.all (fun c => c ∉ ['$', '#', '(', ')', '\x00']) = true)
    (by simp [IsArgument])

/-- Does a command take the word for a file? One that starts with a hyphen is an option, and one
that starts with an at sign names a file of options. -/
def IsOperand (word : String) : Prop :=
  word.toList.head? ≠ some '-' ∧ word.toList.head? ≠ some '@'

/-- Whether a word is taken for a file can be computed. -/
instance (word : String) : Decidable (IsOperand word) := by
  unfold IsOperand
  infer_instance

/-- No path and no program name has a character in it that means something in a Makefile or to the
shell, no source and no program looks like an option and no test like a special target, no other
setting and no library is more than a value on one line, and the entry point may stand in a call. -/
structure Readable (g : Graph) (c : Config) : Prop where
  files : ∀ file ∈ g.mentioned, IsPlain file
  sources : ∀ source ∈ g.sources c.extension, IsOperand source
  tests : ∀ test ∈ testSources g c, test.toList.head? ≠ some '.'
  program : IsPlain c.program
  programStart : IsOperand c.program
  compiler : IsSetting c.compiler
  standard : IsSetting c.standard
  optimization : IsSetting c.optimization
  libraries : ∀ library ∈ g.libraries, IsSetting library
  entryPoint : IsArgument c.entryPoint

variable {g : Graph} {c : Config} {source : String}

/-- Sources are the files with the extension. -/
lemma mem_sources {extension : String} :
    source ∈ g.sources extension ↔ source ∈ g.files ∧ Path.hasExtension source extension := by
  unfold Graph.sources Text.sorted
  rw [List.mem_mergeSort, List.mem_filter]

/-- The sources are the files with the extension if these have been put in order. -/
lemma sources_eq {extension : String} {sources : List String}
    (hperm : sources.Perm (g.files.filter (Path.hasExtension · extension)))
    (hsorted : sources.Pairwise (· ≤ ·)) : g.sources extension = sources :=
  List.Perm.eq_of_pairwise (fun _ _ _ _ => String.le_antisymm) (Text.pairwise_sorted _) hsorted
    ((List.mergeSort_perm _ _).trans hperm.symm)

/-- A graph mentions the files that it lists. -/
lemma mem_mentioned_of_mem_files (h : source ∈ g.files) : source ∈ g.mentioned := by
  obtain ⟨x, hx, rfl⟩ := List.mem_map.1 h
  exact List.mem_flatMap.2 ⟨x, hx, List.mem_cons_self⟩

/-- The closure of a listed file stays among the files that the graph mentions. -/
lemma mem_mentioned_of_mem_closure {file : String} (h : source ∈ g.files)
    (hfile : file ∈ g.closure source) : file ∈ g.mentioned := by
  rcases (Graph.mem_closure_iff.1 hfile).cases_tail with heq | ⟨before, -, hedge⟩
  · exact heq ▸ mem_mentioned_of_mem_files h
  · exact Graph.mem_mentioned_of_mem_dependenciesOf hedge

/-- The path of a source is plain. -/
lemma Readable.isPlain (h : Readable g c) (hsource : source ∈ g.sources c.extension) :
    IsPlain source :=
  h.files source (mem_mentioned_of_mem_files (mem_sources.1 hsource).1)

/-- How sources start may be looked up among all files of the graph. -/
lemma starts_of_files
    (h : ∀ file ∈ g.files, IsOperand file ∧ file.toList.head? ≠ some '.') :
    (∀ source ∈ g.sources c.extension, IsOperand source) ∧
      ∀ test ∈ testSources g c, test.toList.head? ≠ some '.' := by
  refine ⟨fun source hsource => (h source (mem_sources.1 hsource).1).1, fun test htest => ?_⟩
  exact (h test (mem_sources.1 (List.mem_filter.1 htest).1).1).2

/-- What the program is built from are sources. -/
lemma mem_sources_of_mem_programSources (h : source ∈ programSources g c) :
    source ∈ g.sources c.extension :=
  (List.mem_filter.1 h).1

/-- Tests are sources. -/
lemma mem_sources_of_mem_testSources (h : source ∈ testSources g c) :
    source ∈ g.sources c.extension :=
  (List.mem_filter.1 h).1

/-- What the program is built from are no tests. -/
lemma isTest_of_mem_programSources (h : source ∈ programSources g c) : c.isTest source = false := by
  simpa using (List.mem_filter.1 h).2

/-- Tests are tests. -/
lemma isTest_of_mem_testSources (h : source ∈ testSources g c) : c.isTest source = true :=
  (List.mem_filter.1 h).2

/-- Values without a line break fit on the lines of the compiler. -/
lemma fits_toolchainLines (hcompiler : IsSingleLine c.compiler)
    (hstandard : IsSingleLine c.standard) (hoptimization : IsSingleLine c.optimization)
    (hlibraries : ∀ library ∈ g.libraries, IsSingleLine library) :
    ∀ line ∈ toolchainLines g c, line.Fits := by
  have hflags : ∀ text ∈ g.libraries.map ("-l" ++ ·), IsSingleLine text := by
    intro text htext
    obtain ⟨library, hlibrary, rfl⟩ := List.mem_map.1 htext
    exact isSingleLine_append (by decide) (hlibraries library hlibrary)
  have hstandardFlag : IsSingleLine ("-std=" ++ c.standard) :=
    isSingleLine_append (by decide) hstandard
  have hoptimizationFlag : IsSingleLine ("-" ++ c.optimization) :=
    isSingleLine_append (by decide) hoptimization
  simp only [toolchainLines, List.forall_mem_cons]
  refine ⟨⟨by decide, ?_⟩, ⟨by decide, by decide⟩, ⟨by decide, ?_⟩, ⟨by decide, ?_⟩,
    ⟨by decide, hflags⟩, by simp⟩
  · simpa using hcompiler
  · simpa using hstandardFlag
  · simpa using hoptimizationFlag

/-- The files that sources depend on fit on the lines of the variables. -/
lemma fits_variableLines (h : Readable g c) :
    ∀ line ∈ variableLines g (g.sources c.extension), line.Fits := by
  intro line hline
  unfold variableLines at hline
  rcases List.mem_append.1 hline with hline | hline
  · simp only [List.mem_cons, List.not_mem_nil, or_false] at hline
    rcases hline with rfl | rfl | rfl
    · trivial
    · exact ⟨by decide, by decide⟩
    · trivial
  · obtain ⟨source, hsource, rfl⟩ := List.mem_map.1 hline
    refine ⟨isName_variableName source, fun file hfile => ?_⟩
    have hmentioned := mem_mentioned_of_mem_closure (mem_sources.1 hsource).1 hfile
    exact (h.files file hmentioned).isSingleLine

/-- A reference to the variable of a source has only characters of names. -/
lemma isName_dependenciesRef (source : String) : IsName (dependenciesRef source) := by
  have hlist : (dependenciesRef source).toList =
      '$' :: '(' :: ((variableName source).toList ++ [')']) := by
    simp [dependenciesRef]
  constructor
  · intro hempty
    rw [hempty] at hlist
    cases hlist
  · rw [hlist]
    simp only [List.forall_mem_cons, List.forall_mem_append]
    refine ⟨by decide, by decide, ?_, by decide, by simp⟩
    exact (isPlain_variableName source).isNameChar

/-- What is built from a test may be a target. -/
lemma isName_testProgram (h : Readable g c) (hsource : source ∈ g.sources c.extension) :
    IsName (testProgram source) :=
  (h.isPlain hsource).stripExtension.isName (stripExtension_ne (mem_sources.1 hsource).2)

/-- The lines of the program fit. -/
lemma fits_programLines (h : Readable g c) :
    ∀ line ∈ programLines (programSources g c) c, line.Fits := by
  have hprogram := h.program.isSingleLine
  have hobjects : ∀ text ∈ (programSources g c).map objectFile, IsSingleLine text := by
    intro text htext
    obtain ⟨source, hsource, rfl⟩ := List.mem_map.1 htext
    have hplain := h.isPlain (mem_sources_of_mem_programSources hsource)
    exact (isName_objectFile hplain).isSingleLine
  simp only [programLines, List.forall_mem_cons]
  refine ⟨trivial, ⟨by decide, by decide⟩, trivial, ⟨by decide, by decide⟩, by decide, trivial,
    ⟨by decide, hobjects⟩, trivial, ⟨by decide, by decide⟩, ?_, by simp⟩
  simp only [Line.Fits, List.forall_mem_cons]
  exact ⟨by decide, by decide, by decide, hprogram, by decide, by simp⟩

/-- The lines of an object file fit. -/
lemma fits_objectLines (h : Readable g c) (hsource : source ∈ g.sources c.extension) :
    ∀ line ∈ objectLines source, line.Fits := by
  have hplain := h.isPlain hsource
  have hobject := isName_objectFile hplain
  simp only [objectLines, List.forall_mem_cons]
  refine ⟨trivial, ⟨hobject, ?_⟩, ?_, by simp⟩
  · simp only [List.cons_append, List.nil_append, List.forall_mem_cons]
    exact ⟨(isName_dependenciesRef source).isRuleText, by decide, by simp⟩
  · simp only [Line.Fits, List.forall_mem_cons]
    exact ⟨by decide, by decide, hplain.isSingleLine, by decide, by decide,
      hobject.isSingleLine, by simp⟩

/-- The lines of a test fit. -/
lemma fits_testLines (h : Readable g c) (hsource : source ∈ g.sources c.extension) :
    ∀ line ∈ testLines source, line.Fits := by
  have hplain := h.isPlain hsource
  have hprogram := isName_testProgram h hsource
  simp only [testLines, List.forall_mem_cons]
  refine ⟨trivial, ⟨hprogram, ?_⟩, ?_, by simp⟩
  · simp only [List.append_nil, List.forall_mem_cons]
    exact ⟨(isName_dependenciesRef source).isRuleText, by decide, by simp⟩
  · simp only [Line.Fits, List.forall_mem_cons]
    exact ⟨by decide, by decide, hplain.isSingleLine, by decide, by decide,
      hprogram.isSingleLine, by decide, by simp⟩

/-- The object of the entry point stands on one line. -/
lemma isSingleLine_entryObject (h : Readable g c) : IsSingleLine (entryObject c) := by
  have hflat : IsSingleLine (flatten c.entryPoint) := by
    intro hmem
    rcases eq_or_mem_of_mem_flatten hmem with heq | hmem
    · cases heq
    · exact h.entryPoint.1 hmem
  unfold entryObject inObjectDirectory
  exact isSingleLine_append (isSingleLine_append (by decide) hflat) (by decide)

/-- All that is built from tests may be targets. -/
lemma isName_of_mem_testPrograms (h : Readable g c) :
    ∀ program ∈ (testSources g c).map testProgram, IsName program := by
  intro program hprogram
  obtain ⟨source, hsource, rfl⟩ := List.mem_map.1 hprogram
  exact isName_testProgram h (mem_sources_of_mem_testSources hsource)

/-- The lines of all tests fit. -/
lemma fits_testsLines (h : Readable g c) : ∀ line ∈ testsLines (testSources g c) c, line.Fits := by
  intro line hline
  unfold testsLines at hline
  split at hline
  · cases hline
  · rcases List.mem_append.1 hline with hline | hline
    · have hentry : IsSingleLine (entryObject c ++ ",") :=
        isSingleLine_append (isSingleLine_entryObject h) (by decide)
      have hprograms : ∀ text ∈ (testSources g c).map testProgram ++ [], IsRuleText text := by
        rw [List.append_nil]
        exact fun text htext => (isName_of_mem_testPrograms h text htext).isRuleText
      simp only [List.mem_cons, List.not_mem_nil, or_false] at hline
      rcases hline with rfl | rfl | rfl | rfl
      · trivial
      · refine ⟨by decide, ?_⟩
        simp only [List.forall_mem_cons]
        exact ⟨by decide, hentry, by decide, by simp⟩
      · trivial
      · exact ⟨by decide, hprograms⟩
    · obtain ⟨source, hsource, hline⟩ := List.mem_flatMap.1 hline
      exact fits_testLines h (mem_sources_of_mem_testSources hsource) line hline

/-- The lines at the end fit. -/
lemma fits_cleanLines (h : Readable g c) : ∀ line ∈ cleanLines (testSources g c) c, line.Fits := by
  have hprograms : ∀ text ∈ (testSources g c).map testProgram,
      IsSingleLine text := fun text htext =>
    (isName_of_mem_testPrograms h text htext).isSingleLine
  simp only [cleanLines, List.forall_mem_cons]
  refine ⟨trivial, ?_, trivial, by decide, ?_, by simp⟩
  · split
    · decide
    · decide
  · simp only [Line.Fits, List.cons_append, List.nil_append, List.forall_mem_cons]
    exact ⟨by decide, by decide, by decide, h.program.isSingleLine, hprograms⟩

/-- All lines of the Makefile can be read. -/
lemma fits_lines (h : Readable g c) : ∀ line ∈ lines g c, line.Fits := by
  intro line hline
  unfold lines at hline
  simp only [List.mem_append, or_assoc] at hline
  rcases hline with hline | hline | hline | hline | hline | hline
  · have hlibraries : ∀ library ∈ g.libraries, IsSingleLine library := fun library hlibrary =>
      (h.libraries library hlibrary).isSingleLine
    exact fits_toolchainLines h.compiler.isSingleLine h.standard.isSingleLine
      h.optimization.isSingleLine hlibraries line hline
  · exact fits_variableLines h line hline
  · exact fits_programLines h line hline
  · obtain ⟨source, hsource, hline⟩ := List.mem_flatMap.1 hline
    exact fits_objectLines h (mem_sources_of_mem_programSources hsource) line hline
  · exact fits_testsLines h line hline
  · exact fits_cleanLines h line hline

end MakeDeps.Makefile
