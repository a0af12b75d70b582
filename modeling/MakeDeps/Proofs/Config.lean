import Mathlib.Data.Finset.Max
import MakeDeps.Config
import MakeDeps.Proofs.Text.Cut
import MakeDeps.Proofs.Text.Order
import MakeDeps.Proofs.Text.Trim

/-!
# Complete configurations

Settings are completed with what a toolchain adds to them (`ofSettings_eq_ok_iff`), and no field of
the result is left open: `IsComplete`. Completing it again changes nothing if it is settled, which
fails for a standard that was given with a flag and nothing or another flag after it, and for tests
that have a blank after the `./` they start with: `ofSettings_settings`.
-/

namespace MakeDeps.Config
open Text

variable {s : Settings} {c : Config} {tools : Toolchain} {test given extension : String}
  {tests : List String} {cs : List Char}

/-- The configuration, given as settings. -/
def settings (c : Config) : Settings where
  extension := some c.extension
  program := some c.program
  compiler := some c.compiler
  standard := some c.standard
  optimization := some c.optimization
  tests := some c.tests
  entryPoint := some c.entryPoint

/-- The settings with what a toolchain adds to them. -/
def complete (s : Settings) (tools : Toolchain) : Config where
  compiler := orDefault s.compiler tools.compiler
  extension := withoutLeading '.' (s.extension.getD "")
  program := s.program.getD ""
  standard := withoutStart standardFlag (orDefault s.standard tools.standard)
  optimization := withoutLeading '-' (orDefault s.optimization defaultOptimization)
  tests := normalizeTests (s.tests.getD defaultTests)
  entryPoint := orDefault s.entryPoint defaultEntryPoint

/-- What holds of every configuration that settings are completed to. -/
structure IsComplete (c : Config) : Prop where
  language : c.extension = "c" ∨ c.extension = "cpp"
  compiler : c.compiler ≠ ""
  program : c.program ≠ ""
  entryPoint : c.entryPoint ≠ ""
  optimization : c.optimization ≠ ""
  noDash : c.optimization.toList.head? ≠ some '-'
  test : ∀ test ∈ c.tests, test ≠ ""
  notHere : ∀ test ∈ c.tests, ¬ "./".toList <+: test.toList
  noBlankAfter : ∀ test ∈ c.tests, trimRight test.toList = test.toList
  ordered : c.tests.Pairwise (· < ·)

/-- There is a standard without a flag. -/
structure HasStandard (c : Config) : Prop where
  ne_empty : c.standard ≠ ""
  noFlag : ¬ standardFlag.toList <+: c.standard.toList

/-- Nothing is left to be taken off the standard and the tests. -/
structure IsSettled (c : Config) : Prop where
  standard : c.HasStandard
  trimmed : ∀ test ∈ c.tests, trim test.toList = test.toList

/-- There are tools for two extensions, and for no other. -/
lemma toolchain?_eq_some_iff : toolchain? extension = some tools ↔
    extension = "c" ∧ tools = ⟨"gcc", "c99"⟩ ∨ extension = "cpp" ∧ tools = ⟨"g++", "c++11"⟩ := by
  unfold toolchain?
  split
  · next h => simp [h, eq_comm]
  · next h =>
    split
    · next h' => simp [h', eq_comm]
    · next h' => simp [h, h']

/-- Settings are completed if there is a program, a known language, and an optimization. -/
lemma ofSettings_eq_ok_iff : ofSettings s = .ok c ↔
    ∃ tools, toolchain? (withoutLeading '.' (s.extension.getD "")) = some tools ∧
      s.program.getD "" ≠ "" ∧
      withoutLeading '-' (orDefault s.optimization defaultOptimization) ≠ "" ∧
      c = complete s tools := by
  unfold ofSettings
  dsimp only
  split
  · next h => simp [h]
  · next h =>
    split
    · next h' =>
      have hnone : toolchain? (withoutLeading '.' (s.extension.getD "")) = none := by
        rw [h']
        decide +kernel
      simp [hnone]
    · next h' =>
      split
      · next hnone => simp [hnone]
      · next tools hsome =>
        split
        · next hopt => simp [hsome, hopt]
        · next hopt => simp [hsome, hopt, h, complete, eq_comm]

/-- A setting is not empty if its default is not. -/
lemma orDefault_ne {default : String} (setting : Option String) (h : default ≠ "") :
    orDefault setting default ≠ "" := by
  unfold orDefault
  split
  · split
    · exact h
    · next hne => exact hne
  · exact h

/-- A setting has its default, or what has been given. -/
lemma orDefault_cases (setting : Option String) (default : String) :
    orDefault setting default = default ∨ setting = some (orDefault setting default) := by
  unfold orDefault
  split
  · split
    · exact .inl rfl
    · exact .inr rfl
  · exact .inl rfl

/-- What has been given is the setting, unless it is empty. -/
lemma orDefault_some {setting : String} (h : setting ≠ "") (default : String) :
    orDefault (some setting) default = setting :=
  if_neg h

section tests

/-- Behind leading here marks comes none. -/
lemma not_isPrefix_dropHere (cs : List Char) : ¬ ['.', '/'] <+: dropHere cs := by
  fun_induction dropHere cs with
  | case1 cs ih => exact ih
  | case2 cs h =>
    rintro ⟨rest, rfl⟩
    exact h rest rfl

/-- Leading here marks are dropped from the front. -/
lemma dropHere_suffix (cs : List Char) : dropHere cs <:+ cs := by
  fun_induction dropHere cs with
  | case1 cs ih => exact (ih.trans (List.suffix_cons _ _)).trans (List.suffix_cons _ _)
  | case2 cs h => exact List.suffix_rfl

/-- A text without a leading here mark stays as it is. -/
lemma dropHere_eq_self (h : ¬ ['.', '/'] <+: cs) : dropHere cs = cs := by
  unfold dropHere
  split
  · exact absurd ⟨_, rfl⟩ h
  · rfl

/-- A test is normalized by trimming it and dropping here marks. -/
lemma toList_normalizeTest (test : String) :
    (normalizeTest test).toList = dropHere (trim test.toList) :=
  String.toList_ofList

/-- Normalizing a test makes it no longer, and only what stays as it is stays as long as it is. -/
lemma normalizeTest_isInfix (test : String) : (normalizeTest test).toList <:+: test.toList := by
  rw [toList_normalizeTest]
  exact (dropHere_suffix _).isInfix.trans (trim_isInfix _)

/-- A normalized test has no blanks at its end. -/
lemma trimRight_normalizeTest (test : String) :
    trimRight (normalizeTest test).toList = (normalizeTest test).toList := by
  rw [toList_normalizeTest]
  exact trimRight_of_suffix (dropHere_suffix _) (trimRight_trim _)

/-- Blanks can come to the start of a test only where a `./` was. -/
lemma trim_normalizeTest (h : ¬ "./".toList <+: trim test.toList) :
    trim (normalizeTest test).toList = (normalizeTest test).toList := by
  rw [toList_normalizeTest, dropHere_eq_self h, trim_trim]

/-- A test without a leading here mark is normalized if it is trimmed. -/
lemma normalizeTest_eq_self_iff (h : ¬ "./".toList <+: test.toList) :
    normalizeTest test = test ↔ trim test.toList = test.toList := by
  rw [← String.toList_inj, toList_normalizeTest]
  constructor
  · intro heq
    have hlength := (dropHere_suffix (trim test.toList)).length_le
    rw [heq] at hlength
    exact (trim_isInfix _).eq_of_length_le hlength
  · intro heq
    rw [heq, dropHere_eq_self h]

/-- The tests are the normalized ones of those that are not empty. -/
lemma mem_normalizeTests :
    test ∈ normalizeTests tests ↔ test ≠ "" ∧ ∃ given ∈ tests, normalizeTest given = test := by
  rw [normalizeTests, mem_sortedSet, List.mem_filter, List.mem_map, decide_eq_true_eq, and_comm]

/-- Normalizing tests that have been put in order changes nothing exactly if it changes none of
them. Otherwise, a longest one of those that it changes would be missing. -/
lemma normalizeTests_eq_self_iff (hordered : tests.Pairwise (· < ·))
    (hne : ∀ test ∈ tests, test ≠ "") :
    normalizeTests tests = tests ↔ ∀ test ∈ tests, normalizeTest test = test := by
  constructor
  · intro h
    by_contra hex
    push Not at hex
    obtain ⟨changed, hmem, hchanged⟩ := hex
    obtain ⟨longest, hlongest, hmax⟩ :=
      (tests.toFinset.filter fun test => normalizeTest test ≠ test).exists_max_image
        (fun test => test.toList.length) ⟨changed, by simp [hmem, hchanged]⟩
    rw [Finset.mem_filter, List.mem_toFinset] at hlongest
    obtain ⟨hmem, hchanged⟩ := hlongest
    rw [← h] at hmem
    obtain ⟨-, given, hgiven, heq⟩ := mem_normalizeTests.1 hmem
    have hfixed : normalizeTest given ≠ given := by
      rintro hfixed
      rw [hfixed] at heq
      exact hchanged (heq ▸ hfixed)
    have hlength := hmax given (by simp [hgiven, hfixed])
    rw [← heq] at hlength
    exact hfixed (String.toList_inj.1 ((normalizeTest_isInfix given).eq_of_length_le hlength))
  · intro h
    have hmap : tests.map normalizeTest = tests := by
      rw [List.map_congr_left h, List.map_id']
    have hfilter : tests.filter (· ≠ "") = tests := List.filter_eq_self.2 (by simpa using hne)
    rw [normalizeTests, hmap, hfilter, sortedSet_eq_self hordered]

end tests

/-- A configuration that has been made is complete. -/
lemma isComplete_of_ofSettings (h : ofSettings s = .ok c) : c.IsComplete := by
  obtain ⟨tools, htools, hprogram, hoptimization, rfl⟩ := ofSettings_eq_ok_iff.1 h
  have hlanguage := toolchain?_eq_some_iff.1 htools
  exact {
    language := hlanguage.imp And.left And.left
    compiler := by
      apply orDefault_ne
      rcases hlanguage with ⟨-, rfl⟩ | ⟨-, rfl⟩ <;> decide
    program := hprogram
    entryPoint := orDefault_ne _ (by decide)
    optimization := hoptimization
    noDash := head?_withoutLeading '-' _
    test := fun test htest => (mem_normalizeTests.1 htest).1
    notHere := by
      intro test htest
      obtain ⟨-, given, -, rfl⟩ := mem_normalizeTests.1 htest
      rw [toList_normalizeTest]
      exact not_isPrefix_dropHere _
    noBlankAfter := by
      intro test htest
      obtain ⟨-, given, -, rfl⟩ := mem_normalizeTests.1 htest
      exact trimRight_normalizeTest given
    ordered := pairwise_sortedSet _ }

/-- The standard of a complete configuration is kept exactly if it has no flag. A missing one is
replaced. -/
lemma standard_eq_iff (htools : toolchain? extension = some tools) :
    c.standard = withoutStart standardFlag (orDefault (some c.standard) tools.standard) ↔
      c.HasStandard := by
  have hdefault : withoutStart standardFlag (orDefault (some "") tools.standard) ≠ "" := by
    rcases toolchain?_eq_some_iff.1 htools with ⟨-, rfl⟩ | ⟨-, rfl⟩ <;> decide +kernel
  by_cases hne : c.standard = ""
  · rw [hne]
    exact ⟨fun h => absurd h.symm hdefault, fun h => absurd hne h.ne_empty⟩
  · rw [orDefault_some hne, eq_comm, withoutStart_eq_self_iff (by decide)]
    exact ⟨fun h => ⟨hne, h⟩, HasStandard.noFlag⟩

/-- A complete configuration is completed to itself exactly if it is settled. -/
lemma ofSettings_settings_iff (h : c.IsComplete) : ofSettings c.settings = .ok c ↔ c.IsSettled := by
  have hextension : withoutLeading '.' c.extension = c.extension := by
    apply withoutLeading_of_head?
    rcases h.language with heq | heq <;> rw [heq] <;> decide
  have hoptimization : withoutLeading '-' (orDefault (some c.optimization) defaultOptimization) =
      c.optimization := by
    rw [orDefault_some h.optimization, withoutLeading_of_head? h.noDash]
  have hfields : ∀ tools, c = complete c.settings tools ↔
      c.standard = withoutStart standardFlag (orDefault (some c.standard) tools.standard) ∧
        normalizeTests c.tests = c.tests := by
    intro tools
    have hcompiler := orDefault_some h.compiler tools.compiler
    have hentryPoint := orDefault_some h.entryPoint defaultEntryPoint
    have hcomplete : complete c.settings tools = { c with
        standard := withoutStart standardFlag (orDefault (some c.standard) tools.standard)
        tests := normalizeTests c.tests } := by
      simp [complete, settings, hcompiler, hentryPoint, hextension, hoptimization]
    rw [hcomplete]
    cases c
    simp [eq_comm]
  have htests : normalizeTests c.tests = c.tests ↔
      ∀ test ∈ c.tests, trim test.toList = test.toList := by
    rw [normalizeTests_eq_self_iff h.ordered h.test]
    exact forall₂_congr fun test htest => normalizeTest_eq_self_iff (h.notHere test htest)
  have hlanguage : ∃ tools, toolchain? c.extension = some tools := by
    rcases h.language with heq | heq <;> rw [heq] <;> exact ⟨_, rfl⟩
  rw [ofSettings_eq_ok_iff]
  show (∃ tools, toolchain? (withoutLeading '.' c.extension) = some tools ∧ c.program ≠ "" ∧
    withoutLeading '-' (orDefault (some c.optimization) defaultOptimization) ≠ "" ∧
    c = complete c.settings tools) ↔ _
  rw [hextension, hoptimization]
  constructor
  · rintro ⟨tools, htools, -, -, heq⟩
    obtain ⟨hstandard, hsame⟩ := (hfields tools).1 heq
    exact ⟨(standard_eq_iff htools).1 hstandard, htests.1 hsame⟩
  · rintro ⟨hstandard, htrimmed⟩
    obtain ⟨tools, htools⟩ := hlanguage
    exact ⟨tools, htools, h.program, h.optimization,
      (hfields tools).2 ⟨(standard_eq_iff htools).2 hstandard, htests.2 htrimmed⟩⟩

/-- A standard comes to start with a flag or to be missing only where one flag was taken off. -/
lemma hasStandard_or (h : ofSettings s = .ok c) :
    c.HasStandard ∨ s.standard = some (standardFlag ++ c.standard) := by
  obtain ⟨tools, htools, -, -, rfl⟩ := ofSettings_eq_ok_iff.1 h
  have hdefault : tools.standard ≠ "" ∧ ¬ standardFlag.toList <+: tools.standard.toList := by
    rcases toolchain?_eq_some_iff.1 htools with ⟨-, rfl⟩ | ⟨-, rfl⟩ <;> decide
  have hstandard : (complete s tools).standard =
      withoutStart standardFlag (orDefault s.standard tools.standard) := rfl
  rcases eq_or_eq_append standardFlag (orDefault s.standard tools.standard) with
    ⟨hflag, hsame⟩ | hflag
  · rw [hsame] at hstandard
    refine .inl ⟨?_, ?_⟩
    · rw [hstandard]
      exact orDefault_ne _ hdefault.1
    · rwa [hstandard]
  · right
    rw [← hstandard] at hflag
    rcases orDefault_cases s.standard tools.standard with heq | hgiven
    · refine absurd ⟨(complete s tools).standard.toList, ?_⟩ hdefault.2
      rw [← heq, hflag, String.toList_append]
    · rw [hgiven, hflag]

/-- A level is left without its signs, unless it has only signs. -/
lemma withoutDashes_ne_iff :
    withoutLeading '-' (orDefault s.optimization defaultOptimization) ≠ "" ↔
      ¬ ∃ level, s.optimization = some level ∧ level ≠ "" ∧ ∀ sign ∈ level.toList, sign = '-' := by
  rw [ne_eq, withoutLeading_eq_empty_iff, not_iff_not]
  constructor
  · intro hdashes
    rcases orDefault_cases s.optimization defaultOptimization with heq | hgiven
    · rw [heq] at hdashes
      exact absurd (hdashes 'O' (by decide)) (by decide)
    · exact ⟨_, hgiven, orDefault_ne _ (by decide), hdashes⟩
  · rintro ⟨level, hlevel, hne, hdashes⟩
    rwa [hlevel, orDefault_some hne]

/-- Settings are completed exactly if they name a program, a known language after any dots, and no
optimization that consists of dashes. The result is complete. Its standard and its tests have
nothing left to be taken off, apart from a standard that was given with a flag and a test that was
given with `./`; it is completed to itself exactly if this is true of all of them. -/
theorem ofSettings_settings (s : Settings) :
    ((∃ c, ofSettings s = .ok c) ↔ s.program.getD "" ≠ "" ∧
      withoutLeading '.' (s.extension.getD "") ∈ ["c", "cpp"] ∧
      ¬ ∃ level, s.optimization = some level ∧ level ≠ "" ∧ ∀ sign ∈ level.toList, sign = '-') ∧
    ∀ c, ofSettings s = .ok c → c.IsComplete ∧
      (c.HasStandard ∨ s.standard = some (standardFlag ++ c.standard)) ∧
      (∀ test ∈ c.tests, trim test.toList = test.toList ∨
        ∃ given ∈ s.tests.getD defaultTests, normalizeTest given = test ∧
          "./".toList <+: trim given.toList) ∧
      (ofSettings c.settings = .ok c ↔ c.IsSettled) := by
  refine ⟨?_, fun c h => ⟨isComplete_of_ofSettings h, hasStandard_or h, ?_,
    ofSettings_settings_iff (isComplete_of_ofSettings h)⟩⟩
  · have hlanguage : (∃ tools, toolchain? (withoutLeading '.' (s.extension.getD "")) = some tools) ↔
        withoutLeading '.' (s.extension.getD "") ∈ ["c", "cpp"] := by
      simp [toolchain?_eq_some_iff, exists_or]
    rw [← hlanguage, ← withoutDashes_ne_iff]
    simp only [ofSettings_eq_ok_iff]
    constructor
    · rintro ⟨c, tools, htools, hprogram, hoptimization, -⟩
      exact ⟨hprogram, ⟨tools, htools⟩, hoptimization⟩
    · rintro ⟨hprogram, ⟨tools, htools⟩, hoptimization⟩
      exact ⟨_, tools, htools, hprogram, hoptimization, rfl⟩
  · intro test htest
    obtain ⟨tools, -, -, -, rfl⟩ := ofSettings_eq_ok_iff.1 h
    obtain ⟨-, given, hgiven, rfl⟩ := mem_normalizeTests.1 htest
    by_cases hhere : "./".toList <+: trim given.toList
    · exact .inr ⟨given, hgiven, rfl, hhere⟩
    · exact .inl (trim_normalizeTest hhere)

/-- The settings that are needed. -/
def neededSettings : Settings :=
  ⟨some "c", some "app", none, none, none, none, none⟩

/-- A flag alone leaves no standard, of two flags one is left, and a blank after `./` is kept. If
they are completed again, the result is another one. -/
theorem ofSettings_unsettled :
    (ofSettings { neededSettings with standard := some "-std=" }).map standard = .ok "" ∧
    (ofSettings { neededSettings with standard := some "" }).map standard = .ok "c99" ∧
    (ofSettings { neededSettings with standard := some "-std=-std=c11" }).map standard =
      .ok "-std=c11" ∧
    (ofSettings { neededSettings with standard := some "-std=c11" }).map standard = .ok "c11" ∧
    (ofSettings { neededSettings with tests := some ["./ a"] }).map Config.tests = .ok [" a"] ∧
    (ofSettings { neededSettings with tests := some [" a"] }).map Config.tests = .ok ["a"] := by
  decide +kernel

end MakeDeps.Config
