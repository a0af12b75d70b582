import MakeDeps.Proofs.Makefile.Render

/-!
# The variables of a Makefile

The variables that a Makefile assigns are those of its sources and six others (`assigned_lines`).
The name of a source's variable is any text of capital letters, digits and underscores, with `_DEPS`
at its end (`exists_variableName_iff`), and so none of the six. Sources from which the same object
file or the same program would be made have one variable, so it is enough to compare variables to
find out: `variableName_eq_and_form`.
-/

namespace MakeDeps.Makefile

namespace IsVariableChar
variable {c : Char}

/-- What may be in a variable may be in a word. -/
lemma isWordChar (h : IsVariableChar c) : isWordChar c = true := by
  have hchar := isVariableChar_iff.1 h
  rw [isWordChar_iff]
  omega

/-- What may be in a variable is in upper case. -/
lemma toUpper_eq (h : IsVariableChar c) : c.toUpper = c := by
  have hchar := isVariableChar_iff.1 h
  have hbounds : ¬ (97 ≤ c.toNat ∧ c.toNat ≤ 122) := by omega
  exact dif_neg hbounds

end IsVariableChar

/-- A path of such characters is its own stem, and none of them is replaced. -/
lemma variableName_of_isVariableChar {stem : String} (h : ∀ c ∈ stem.toList, IsVariableChar c) :
    variableName stem = stem ++ "_DEPS" := by
  have hdot : '.' ∉ stem.toList := by
    intro hmem
    have hchar := h _ hmem
    revert hchar
    decide
  have hkept : ∀ c ∈ stem.toList, (if isWordChar c then c.toUpper else '_') = c := by
    intro c hc
    rw [if_pos (h c hc).isWordChar, (h c hc).toUpper_eq]
  rw [variableName, Path.stripExtension_eq_self hdot, List.map_congr_left hkept, List.map_id',
    String.ofList_toList]

/-- A name is the variable of some path if, and only if, it has the form of one. -/
lemma exists_variableName_iff {name : String} : (∃ path, variableName path = name) ↔
    ∃ stem : String, name = stem ++ "_DEPS" ∧ ∀ c ∈ stem.toList, IsVariableChar c := by
  constructor
  · rintro ⟨path, rfl⟩
    exact exists_stem_variableName path
  · rintro ⟨stem, rfl, hstem⟩
    exact ⟨stem, variableName_of_isVariableChar hstem⟩

/-- A Makefile assigns the variables of its sources, and those that it would have without any. What
tests are linked with has a variable only if there is a test. -/
lemma assigned_lines {g : Graph} {c : Config} {name : String} : Assigned (lines g c) name ↔
    name ∈ ["CC", "CFLAGS", "LFLAGS", "ODIR", "BIN_OBJ_FILES"] ∨
      (name = "ALL_BIN_OBJS_WO_MAIN" ∧ ∃ test, test ∈ testSources g c) ∨
      ∃ source ∈ g.sources c.extension, variableName source = name := by
  have hobjects := not_assigned_objectLines name (programSources g c)
  have hclean := not_assigned_cleanLines name (testSources g c) c
  unfold lines
  simp only [assigned_append, assigned_toolchainLines, assigned_variableLines,
    assigned_programLines, assigned_testsLines, hobjects, hclean, or_false, List.mem_cons,
    List.not_mem_nil]
  -- the same variables, in the order in which the lines assign them
  simp only [or_assoc, or_left_comm, or_comm]

/-- Paths with the same object file or the same test program have the same variable. Its name is
made of capital letters, digits and underscores and ends in `_DEPS`, so it is none of the six that
no source has. Every text of this form is the name of some variable, and a Makefile assigns only
variables of its sources and some of the six: all of them if there is a test, or else all but the
last. -/
theorem variableName_eq_and_form :
    (∀ path other, objectFile path = objectFile other ∨ testProgram path = testProgram other →
      variableName path = variableName other) ∧
    (∀ path, (∀ c ∈ (variableName path).toList, IsVariableChar c) ∧
      (∃ stem, variableName path = stem ++ "_DEPS") ∧
      variableName path ∉
        ["CC", "CFLAGS", "LFLAGS", "ODIR", "BIN_OBJ_FILES", "ALL_BIN_OBJS_WO_MAIN"]) ∧
    (∀ name, (∃ path, variableName path = name) ↔
      ∃ stem : String, name = stem ++ "_DEPS" ∧ ∀ c ∈ stem.toList, IsVariableChar c) ∧
    ∀ g c name, Assigned (lines g c) name ↔
      name ∈ ["CC", "CFLAGS", "LFLAGS", "ODIR", "BIN_OBJ_FILES"] ∨
        (name = "ALL_BIN_OBJS_WO_MAIN" ∧ ∃ test, test ∈ testSources g c) ∨
        ∃ source ∈ g.sources c.extension, variableName source = name := by
  refine ⟨?_, ?_, fun _ => exists_variableName_iff, fun _ _ _ => assigned_lines⟩
  · rintro path other (hobject | hprogram)
    · exact variableName_of_objectFile hobject
    · exact variableName_of_testProgram hprogram
  · intro path
    obtain ⟨stem, hname, -⟩ := exists_stem_variableName path
    exact ⟨isVariableChar_variableName, ⟨stem, hname⟩, variableName_not_mem_commonVariables path⟩

/-- Directories that are joined to one name, and a test in two languages. -/
theorem variableName_eq_and_form_joined :
    (objectFile "net/io.c" = objectFile "net_io.c" ∧
      variableName "net/io.c" = variableName "net_io.c") ∧
    testProgram "t/io.c" = testProgram "t/io.cpp" ∧
      variableName "t/io.c" = variableName "t/io.cpp" := by
  have hobject : objectFile "net/io.c" = objectFile "net_io.c" := by decide +kernel
  have hprogram : testProgram "t/io.c" = testProgram "t/io.cpp" := by decide +kernel
  exact ⟨⟨hobject, variableName_eq_and_form.1 _ _ (.inl hobject)⟩,
    hprogram, variableName_eq_and_form.1 _ _ (.inr hprogram)⟩

/-- A letter that is no word character is replaced before it could become capital letters, and paths
with one variable may have different objects. -/
example : variableName "straße.c" = "STRA_E_DEPS" ∧ variableName "Stra.e.c" = "STRA_E_DEPS" ∧
    objectFile "straße.c" ≠ objectFile "Stra.e.c" := by
  decide +kernel

end MakeDeps.Makefile
